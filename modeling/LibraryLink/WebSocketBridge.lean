import LibraryLink.CppFraming

/-!
# The WebSocket bridge

`main` of `WebSocketFraming.kt`: messages of all sessions are written to one channel, and each session gets a thread that reads
messages from it, when its first message arrives. `sender.js` puts the tag of a frame in front of the payload. First the bytes, then,
for several sessions, the order of events with whole messages.
-/

namespace LibraryLink.WebSocket

/-! ## Bytes -/

/-- A message as `sender.js` builds it: four bytes for the tag, and the payload. -/
structure SocketMessage where
  tag : Nat
  payload : List UInt8
  size_lt : 4 + payload.length < 2 ^ 31

/-- `messageBuffer` -/
def SocketMessage.bytes (m : SocketMessage) : List UInt8 := LittleEndian.encode 4 m.tag ++ m.payload

/-- The frame that a message stands for: payload length, tag, payload. -/
def SocketMessage.frame (m : SocketMessage) : List UInt8 :=
  LittleEndian.encode 4 m.payload.length ++ LittleEndian.encode 4 m.tag ++ m.payload

/-- `onMessage`: what is written to the channel for a message. -/
def onMessage (actualMsg : List UInt8) : List UInt8 := toByteArray actualMsg.length ++ actualMsg

/-- What a receiver may answer with: a frame's length has four bytes. -/
structure Payload where
  bytes : List UInt8
  size_lt : bytes.length < 2 ^ 32

/-- A RESPONSE frame that `write_frame` writes. -/
def Payload.frame (p : Payload) : List UInt8 := Cpp.writeFrame Tag.response.code p.bytes

/-- The loop of a reading thread, for complete reads: the messages that it sends over its session. It waits for ever when there are
not enough bytes, and ends where the length is negative as an `Int`. -/
def readingThread (input : List UInt8) : List (List UInt8) :=
  if input.length < 4 then []
  else
    let msgLength := LittleEndian.decode (input.take 4)
    if 2 ^ 31 ≤ msgLength then []
    else if (input.drop 4).length < msgLength then []
    else (input.drop 4).take msgLength :: readingThread ((input.drop 4).drop msgLength)
  termination_by input.length
  decreasing_by simp only [List.length_drop]; omega

/-! ## Sessions -/

variable {P : Type}

/-- A message, with the number of the session that it came from. -/
structure Arrival (P : Type) where
  session : Nat
  payload : P

/-- A response, with the message that it answers. -/
structure Answer (P : Type) where
  message : Arrival P
  payload : P

/-- A response that was sent over a session. -/
structure Delivery (P : Type) where
  session : Nat
  answer : Answer P

/-- The messages still to come, in the order they arrive in; those in the channel, and the responses in it; the sessions that have a
thread; and the responses sent. -/
structure Bridge (P : Type) where
  arriving : List (Arrival P)
  requests : List (Arrival P) := []
  responses : List (Answer P) := []
  sessions : List Nat := []
  delivered : List (Delivery P) := []

/-- A step: the next message is written to the channel, the receiver answers the next message, or the thread of a session reads the
next response. -/
inductive BridgeStep : Bridge P → Bridge P → Prop
  | onMessage (b : Bridge P) (m : Arrival P) (arriving : List (Arrival P)) : b.arriving = m :: arriving →
      BridgeStep b { b with
        arriving, requests := b.requests ++ [m],
        sessions := if m.session ∈ b.sessions then b.sessions else b.sessions ++ [m.session] }
  | respond (b : Bridge P) (m : Arrival P) (requests : List (Arrival P)) (payload : P) : b.requests = m :: requests →
      BridgeStep b { b with requests, responses := b.responses ++ [{ message := m, payload }] }
  | read (b : Bridge P) (session : Nat) (a : Answer P) (responses : List (Answer P)) : b.responses = a :: responses →
      session ∈ b.sessions → BridgeStep b { b with responses, delivered := b.delivered ++ [{ session, answer := a }] }

/-- Every response was sent to the session whose message it answers, and the responses sent to a session answer its messages in
order. -/
def Bridge.Routed (arrivals : List (Arrival P)) (b : Bridge P) : Prop :=
  (∀ d ∈ b.delivered, d.session = d.answer.message.session) ∧
    ∀ session, (b.delivered.filter fun d => d.session = session).map (fun d => d.answer.message) <+:
      arrivals.filter fun m => m.session = session

end LibraryLink.WebSocket
