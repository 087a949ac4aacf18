import LibraryLink.General.LittleEndian
import LibraryLink.General.ByteSource
import LibraryLink.Framing
import LibraryLink.CppFraming
import LibraryLink.Lemmas.ReadFrame
import LibraryLink.Theorems.CppFraming
import LibraryLink.General.Runs
import LibraryLink.GoHandler
import LibraryLink.Theorems.GoHandler
import LibraryLink.NestedCalls
import LibraryLink.Lemmas.NestedCalls
import LibraryLink.Theorems.NestedCalls
import LibraryLink.CppCallbacks
import LibraryLink.Theorems.CppCallbacks
import LibraryLink.SharedGenerator
import LibraryLink.Lemmas.SharedGenerator
import LibraryLink.Theorems.SharedGenerator
import LibraryLink.General.Outcome
import LibraryLink.CppReceiver
import LibraryLink.Z3Receiver
import LibraryLink.Lemmas.CppReceiver
import LibraryLink.Lemmas.AssignedIds
import LibraryLink.Theorems.AssignedIds
import LibraryLink.CppChannels
import LibraryLink.Lemmas.HeapTypes
import LibraryLink.Lemmas.Requests
import LibraryLink.Theorems.Requests
import LibraryLink.CppBatch
import LibraryLink.Theorems.CppBatch
import LibraryLink.General.Duplex
import LibraryLink.GoBatch
import LibraryLink.Lemmas.GoBatch
import LibraryLink.Theorems.GoBatch
import LibraryLink.CppClients
import LibraryLink.Lemmas.Embedding
import LibraryLink.Lemmas.Lockstep
import LibraryLink.Lemmas.Clients
import LibraryLink.Lemmas.Renaming
import LibraryLink.Theorems.Clients
import LibraryLink.KotlinRequests
import LibraryLink.CachingExchange
import LibraryLink.Theorems.CachingExchange
import LibraryLink.LinkCache
import LibraryLink.Theorems.LinkCache
import LibraryLink.Exchange
import LibraryLink.CallbackExchange
import LibraryLink.Theorems.CallbackExchange
import LibraryLink.ThrowingCallbacks
import LibraryLink.Theorems.ThrowingCallbacks
import LibraryLink.Generator
import LibraryLink.Theorems.Generator
import LibraryLink.KotlinExchange
import LibraryLink.Wrappers
import LibraryLink.Theorems.Wrappers
import LibraryLink.BoundHandles
import LibraryLink.Theorems.BoundHandles
import LibraryLink.Lemmas.KotlinExchange
import LibraryLink.General.Arrays
import LibraryLink.ArrayHandles
import LibraryLink.Lemmas.ArrayHandles
import LibraryLink.Theorems.ArrayHandles
import LibraryLink.Theorems.CharArrays
import LibraryLink.Templates
import LibraryLink.Theorems.GeneratedClasses
import LibraryLink.Theorems.GeneratedArguments
import LibraryLink.PythonCommands
import LibraryLink.PythonReceiver
import LibraryLink.General.Tables
import LibraryLink.Theorems.PythonCallbacks
import LibraryLink.CleanupThread
import LibraryLink.Theorems.CleanupThread
import LibraryLink.Theorems.PythonReceiver
import LibraryLink.WebSocketBridge
import LibraryLink.Theorems.WebSocketBridge
import LibraryLink.CharStrings
import LibraryLink.Theorems.CharStrings
import LibraryLink.General.Protobuf
import LibraryLink.ExchangeEncoding
import LibraryLink.GoMessages
import LibraryLink.Lemmas.SkipExchange
import LibraryLink.Theorems.GoMessages
import LibraryLink.General.PythonLiterals
import LibraryLink.General.PythonGrammar
import LibraryLink.Theorems.PythonCommands
import LibraryLink.RequestSequences
import LibraryLink.Theorems.RequestSequences
import LibraryLink.KotlinFraming
import LibraryLink.Theorems.KotlinFraming
import LibraryLink.PythonFraming
import LibraryLink.Theorems.PythonFraming
import LibraryLink.Theorems.CutStreams
import LibraryLink.TextFraming
import LibraryLink.Theorems.TextFraming
import LibraryLink.PythonRequests
import LibraryLink.Theorems.PythonRequests
import LibraryLink.FailedCallbacks
import LibraryLink.Theorems.FailedCallbacks
import LibraryLink.PersistenceKeys
import LibraryLink.Theorems.PersistenceKeys
import LibraryLink.General.Decimals
import LibraryLink.General.WireReader
import LibraryLink.CppMessages
import LibraryLink.Theorems.CppMessages
import LibraryLink.CppBytes
import LibraryLink.Theorems.CppBytes
import LibraryLink.General.Linearizable
import LibraryLink.ThreadLocalGenerator
import LibraryLink.General.SliceWriter
import LibraryLink.GoMarshal
import LibraryLink.Theorems.GoMarshal
import LibraryLink.Theorems.ThreadLocalGenerator
import LibraryLink.Z3Wrappers
import LibraryLink.TypedSessions
import LibraryLink.Lemmas.TypedSessions
import LibraryLink.Theorems.TypedSessions
import LibraryLink.GeneratedReceiver
import LibraryLink.Theorems.GeneratedReceiver
import LibraryLink.Theorems.StrlenTest
import LibraryLink.ByteSessions
import LibraryLink.Theorems.ByteSessions
import LibraryLink.TypedThreads
import LibraryLink.Theorems.TypedThreads
