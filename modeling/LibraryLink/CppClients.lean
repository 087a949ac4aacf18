import LibraryLink.Z3Receiver

/-!
# Several clients of one receiver

Each client sends its requests on a channel of its own, and the loops of the channels serve them one at a time, in some order:
a schedule. All of them use one counter of ids, one table and one memory.
-/

namespace LibraryLink.Cpp.Process

variable {S C : Type}

/-- A request that leaves it to the receiver to assign an id. -/
def plain (r : MethodCallRequest) : Request := ⟨some r, ""⟩

/-- The requests of a schedule, served in order: the responses and the receiver's state. -/
def serveAll (lib : Library S) : List (C × MethodCallRequest) → State S → Except Fault (List (C × ChannelResponse) × State S)
  | [], s => .ok ([], s)
  | (c, r) :: schedule, s => do
    let first ← serve lib {} (plain r) s
    let others ← serveAll lib schedule first.2
    .ok ((c, first.1) :: others.1, others.2)

/-- What of a schedule or of its responses is of one client. -/
def ofClient {β : Type} [DecidableEq C] (c : C) (l : List (C × β)) : List β := (l.filter (·.1 = c)).map (·.2)

/-! ## Other ids -/

/-- A value with another id. -/
def Value.rename (f : String → String) : Value → Value
  | .string value => .string (f value)
  | value => value

/-- A request with other ids. -/
def MethodCallRequest.rename (f : String → String) (r : MethodCallRequest) : MethodCallRequest :=
  { r with objectId := f r.objectId, arg := r.arg.map fun a => { a with value := a.value.rename f } }

/-- A schedule with other ids. -/
def renameAll (f : String → String) (schedule : List (C × MethodCallRequest)) : List (C × MethodCallRequest) :=
  schedule.map fun x => (x.1, x.2.rename f)

/-- A response with another id. -/
def ChannelResponse.rename (f : String → String) (resp : ChannelResponse) : ChannelResponse :=
  { resp with assignedId := f resp.assignedId }

end LibraryLink.Cpp.Process
