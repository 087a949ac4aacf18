import LibraryLink.Z3Receiver
import LibraryLink.CppFraming

/-!
# The channels of the C++ receiver

The loop of `process_channel` in the process it is part of: a thread for each channel that was accepted, all of them over the
same globals and the same memory. An exception that leaves `process_channel` leaves its thread, so it ends the process with all
its threads, as a fault of the memory does.
-/

namespace LibraryLink.Cpp.Process

/-- The process: its globals and memory, the channels whose loops run, and the responses written to each channel. -/
structure Server (S : Type) where
  state : State S := {}
  channels : List Nat := []
  written : Nat → List ChannelResponse := fun _ => []

variable {S : Type}

/-- `accept`, and the thread for the channel. -/
def Server.accept (v : Server S) (fd : Nat) : Server S := { v with channels := v.channels ++ [fd] }

/-- The loop of a channel ends, the others go on. -/
def Server.leave (v : Server S) (fd : Nat) : Server S := { v with channels := v.channels.erase fd }

/-- One turn of the loop of `process_channel`, on what `read_frame` returned or threw; none where it ends the process: by an exception,
in the memory, or by the signal `SIGPIPE`, when nobody reads what `write_frame` writes. `parse` is `ParseFromArray`, whose result nobody
looks at. -/
def Server.turn (parse : List UInt8 → Request) (lib : Library S) (env : Env) (fd : Nat) (v : Server S) :
    Except String ChannelRequest → Option (Server S)
  | .error _ => some (v.leave fd)
  | .ok frame =>
    if frame.tag = 8 then some (v.leave fd)
    else
      match serve lib env (parse frame.data) v.state with
      | .ok (response, state) =>
        if env.peerReads then some { v with state, written := Function.update v.written fd (v.written fd ++ [response]) } else none
      | .error _ => none

/-- What `read_frame` returns or throws for a frame that arrives whole. -/
def received (f : Frame) : Except String ChannelRequest :=
  match readFrame ⟨f.encode, Cuts.const (2 ^ 31) (by decide)⟩ with
  | .ok (frame, _) => .ok frame
  | .error e => .error e

/-- A step of the process: a channel is accepted, the loop of some channel takes a turn on whatever it reads, or the library
calls back. Parser, library and environment may be others at each step. -/
inductive ServerStep : Server S → Server S → Prop
  | accept (v : Server S) (fd : Nat) : fd ∉ v.channels → ServerStep v (v.accept fd)
  | turn (parse : List UInt8 → Request) (lib : Library S) (env : Env) (fd : Nat) (v v' : Server S)
      (read : Except String ChannelRequest) : fd ∈ v.channels → v.turn parse lib env fd read = some v' → ServerStep v v'
  | callback (methodName type : String) (args : List CallbackArg) (v : Server S) :
      ServerStep v { v with state := (doCallback methodName type args v.state).2 }

end LibraryLink.Cpp.Process
