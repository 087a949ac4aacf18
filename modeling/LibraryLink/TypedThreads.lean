import LibraryLink.ByteSessions
import LibraryLink.ThreadLocalGenerator

/-!
# Threads that share handles

Wrappers and arrays called by any number of threads at the same time, each over the channel that `ThreadLocalRequestGenerator` opens
for it. Handles are shared: what was returned to one thread any other may pass. A call is one request, but for `set` of an array,
which reads the element first; other threads go on between its two requests, and between a request and its response.
-/

namespace LibraryLink.Kotlin.Z3Kotlin

open Cpp.Batch (Linked)
open Cpp.Process (Elem)
open ThreadLocalGenerator (System)

variable {ω S : Type}

/-! ## The requests of a call -/

/-- A request of a call; `set` is the second one of `ArrayHandle.set`. -/
inductive Part where
  | wrapper (w : Wrapper) (assignedID : String) (actual : List Instance)
  | allocate (elem : Elem) (size : Nat)
  | get (elem : Elem) (assignedID : String) (index : Nat)
  | set (elem : Elem) (assignedID : String) (index : Nat) (element : Instance)

/-- What is requested. -/
def Part.request : Part → Except Thrown (Request Argument)
  | .wrapper w assignedID actual => return .methodCall (w.request assignedID actual)
  | .allocate elem size => return ArrayHandle.methodCall (clazzOf elem) "mem_alloc" "" [.of (.value (.number size)) none] false
  | .get elem assignedID index =>
    return ArrayHandle.methodCall (clazzOf elem) "get" assignedID [.of (.value (.number index)) none] true
  | .set elem assignedID index element => do
    let value ← ArrayHandle.valueArgument element
    return ArrayHandle.methodCall (clazzOf elem) "set" assignedID [.of (.value (.number index)) none, value] false

/-- The message. -/
def Part.message (part : Part) : Except Thrown Exchange.Request := do
  let request ← part.request
  request.toProtobuf

/-- What is made of the response. -/
def Part.receive : Part → ProcessExchangeResponse → Except Thrown (Option Instance)
  | .wrapper w _ _, resp => Z3Kotlin.receive w.result resp
  | .allocate _ _, resp => return some (.handle resp.assignedID)
  | .get elem _ _, resp => do
    let element ← resp.asInstanceOf (clazzOf elem)
    return some element
  | .set _ _ _ _, _ => return none

/-- The type of it. -/
def Part.returned : Part → Returned
  | .wrapper w _ _ => .ofResult w.result
  | .allocate elem size => .handle (.array elem size)
  | .get elem _ _ => .element elem
  | .set _ _ _ _ => .nothing

/-- The requests that a call makes. -/
def Call.parts : Call → List Part
  | .wrapper w assignedID actual => [.wrapper w assignedID actual]
  | .makeArray elem size => [.allocate elem size]
  | .get elem assignedID index => [.get elem assignedID index]
  | .set elem assignedID index element => [.get elem assignedID index, .set elem assignedID index element]

/-- The requests, made one after the other. -/
def runParts (sendRequest : Exchange.Request → ω → Except Thrown (Exchange.ChannelResponse × ω)) :
    List Part → ω → Except Thrown (List (Option Instance) × ω)
  | [], world => return ([], world)
  | part :: parts, world => do
    let request ← part.request
    let resp ← makeRequest sendRequest request world
    let first ← part.receive resp.1
    let others ← runParts sendRequest parts resp.2
    return (first :: others.1, others.2)

/-- The types allow a request. -/
inductive Part.WellTyped (Γ : Context) : Part → Prop
  | wrapper (w : Wrapper) (assignedID : String) (actual : List Instance) : w ∈ wrappers →
      (w.isStatic = false → (assignedID, .object w.clazz) ∈ Γ) → List.Forall₂ (fun p v => Γ.Accepts p.2 v) w.params actual →
      WellTyped Γ (.wrapper w assignedID actual)
  | allocate (elem : Elem) (size : Nat) : size < 2 ^ 31 → WellTyped Γ (.allocate elem size)
  | get (elem : Elem) (assignedID : String) (size index : Nat) : (assignedID, .array elem size) ∈ Γ → index < size →
      index < 2 ^ 31 → WellTyped Γ (.get elem assignedID index)
  | set (elem : Elem) (assignedID : String) (size index : Nat) (element : Instance) : (assignedID, .array elem size) ∈ Γ →
      index < size → index < 2 ^ 31 → Γ.AcceptsElement elem element → WellTyped Γ (.set elem assignedID index element)

/-! ## Threads -/

/-- The channels and the receiver, the handles that are bound, and for each thread the requests that its call has still to make, the
first of which may be open; `returned` records what has been made of responses, with the types. -/
structure Threads (S : Type) where
  system : System S := {}
  context : Context := []
  parts : Nat → List Part := fun _ => []
  returned : Nat → List (Returned × Option Instance) := fun _ => []

/-- A thread begins a call that the types allow, or makes a request or reads the response to it, or the channel is opened or its loop
takes a turn. -/
inductive ThreadsStep (linked : Linked S) (protocol : Protocol) (t : Nat) : Threads S → Threads S → Prop
  | begin (v : Threads S) (call : Call) : v.parts t = [] → call.WellTyped v.context → call.InInts →
      ThreadsStep linked protocol t v { v with parts := Function.update v.parts t call.parts }
  | channel (v : Threads S) (system : System S) : ThreadLocalGenerator.Step linked t v.system system →
      system.history = v.system.history → ThreadsStep linked protocol t v { v with system }
  | write (v : Threads S) (system : System S) (part : Part) (parts : List Part) (m : Exchange.Request) (requestMessage : Message) :
      v.parts t = part :: parts → part.message = .ok m → m.toByteArray protocol.declared = some requestMessage.bytes →
      ThreadLocalGenerator.Step linked t v.system system →
      system.history = v.system.history ++ [.call v.system.calls t requestMessage] →
      ThreadsStep linked protocol t v { v with system }
  | read (v : Threads S) (system : System S) (part : Part) (parts : List Part) (n : Nat) (responseBinary : List UInt8)
      (resp : ProcessExchangeResponse) (value : Option Instance) : v.parts t = part :: parts →
      ThreadLocalGenerator.Step linked t v.system system → system.history = v.system.history ++ [.ret n responseBinary] →
      toProcessExchangeResponse (protocol.parseFrom responseBinary) = .ok resp → part.receive resp = .ok value →
      ThreadsStep linked protocol t v {
        system, context := v.context.bind part.returned value, parts := Function.update v.parts t parts
        returned := Function.update v.returned t (v.returned t ++ [(part.returned, value)]) }

/-- The library function that the next request on the channel of a thread reaches, if it reaches one, returns. -/
def LibraryReturns (linked : Linked S) (system : System S) (t : Nat) : Prop :=
  ∀ link frame rest, system.localFraming t = some link → link.readFrame = .ok (frame, rest) →
    Cpp.Process.Returns linked.lib (linked.parse frame.data) system.server.state

/-- A step of some thread or its channel, in which no library function fails to return. -/
def ReturningStep (linked : Linked S) (protocol : Protocol) (v v' : Threads S) : Prop :=
  ∃ t, LibraryReturns linked v.system t ∧ ThreadsStep linked protocol t v v'

end LibraryLink.Kotlin.Z3Kotlin
