import LibraryLink.General.Protobuf

/-!
# The messages of the Go receiver

`readProtobuf` of `main.go`, and what `exchange.pb.go` generates for it: `Unmarshal` of `MethodCallRequest` and of its `Argument`, and
`skipExchange`. A Go `string` is its bytes.

`skipExchange` calls itself for each group in a group, and the stack of a goroutine is bounded: where it is used up the process ends,
which nothing recovers. How many calls it holds is a parameter.
-/

namespace LibraryLink.Go

/-- How many calls of `skipExchange`, one in another, the stack of a goroutine holds: below `Unmarshal` of a request, and below that of an
argument of a request. -/
structure Stack where
  request : Nat
  argument : Nat

/-- A stack for a million calls. -/
def Stack.million : Stack := ⟨1000000, 1000000⟩

/-- What ends `Unmarshal`: the errors, with what their texts are made of, a panic, and a stack that is used up. -/
inductive Failure where
  | intOverflow
  | unexpectedEOF
  | invalidLength
  | endGroup (message : String)
  | illegalTag (message : String) (fieldNum : Int) (wire : Nat)
  | wrongWireType (wireType : Nat) (field : String)
  | illegalWireType (wireType : Nat)
  | panic
  | stackOverflow
  deriving DecidableEq, Repr

/-! ## Numbers -/

/-- `int(n)` -/
def toInt (n : Nat) : Int := (n : Int).bmod (2 ^ 64)

/-- `int32(n)` -/
def toInt32 (n : Nat) : Int := (n : Int).bmod (2 ^ 32)

/-- `uint64(n)` -/
def toUint64 (n : Nat) : Nat := n % 2 ^ 64

/-- The loop over the bytes of a varint, which is there for several types of the number: it is cut to its type afterwards. -/
def varintLoop (value : Nat) (shift : Nat) : List UInt8 → Except Failure (Nat × List UInt8)
  | [] => if shift ≥ 64 then .error .intOverflow else .error .unexpectedEOF
  | b :: dAtA =>
    if shift ≥ 64 then .error .intOverflow
    else
      let value := value + b.toNat % 128 * 2 ^ shift
      if b < 0x80 then .ok (value, dAtA) else varintLoop value (shift + 7) dAtA

/-- A varint. -/
def readVarint (dAtA : List UInt8) : Except Failure (Nat × List UInt8) := varintLoop 0 0 dAtA

/-- `iNdEx + length`, where it is an index of a slice of `l` bytes that is cut there. -/
def postIndex (l iNdEx : Nat) (length : Int) : Except Failure Nat :=
  let index := (iNdEx + length : Int).bmod (2 ^ 64)
  if index > l then .error .unexpectedEOF
  else if index < iNdEx then .error .panic
  else .ok index.toNat

/-- The bytes of a string or a message, at the end of a slice of `l` bytes. -/
def readBytes (l : Nat) (dAtA : List UInt8) : Except Failure (List UInt8 × List UInt8) := do
  let (stringLen, dAtA) ← readVarint dAtA
  let intStringLen := toInt stringLen
  if intStringLen < 0 then .error .invalidLength
  else
    let iNdEx := l - dAtA.length
    let postIndex ← postIndex l iNdEx intStringLen
    .ok (dAtA.take (postIndex - iNdEx), dAtA.drop (postIndex - iNdEx))

/-! ## Fields that are not known -/

/-- The loop over the fields of a group, from an index on, with `skip` for a field in it. The first number bounds the passes, of which
each goes on by a byte at least. -/
def skipGroup (skip : List UInt8 → Except Failure Int) (dAtA : List UInt8) : Nat → Int → Except Failure Int
  | 0, _ => .error .panic
  | passes + 1, start =>
    if start ≥ dAtA.length then .error .unexpectedEOF
    else if start < 0 then .error .panic
    else do
      let inner := dAtA.drop start.toNat
      let (innerWire, rest) ← readVarint inner
      if toUint64 innerWire % 8 = 4 then .ok (dAtA.length - rest.length : Nat)
      else do
        let next ← skip inner
        skipGroup skip dAtA passes ((start + next).bmod (2 ^ 64))

/-- `skipExchange`: the length of the first field. The first argument is how many calls of it, one in another, the stack still holds. -/
def skipExchange : Nat → List UInt8 → Except Failure Int
  | 0, _ => .error .stackOverflow
  | _ + 1, [] => .error .panic
  | calls + 1, dAtA => do
    let (wire, rest) ← readVarint dAtA
    let iNdEx := dAtA.length - rest.length
    match toUint64 wire % 8 with
    | 0 => do
      let (_, rest) ← readVarint rest
      .ok (dAtA.length - rest.length : Nat)
    | 1 => .ok (iNdEx + 8 : Nat)
    | 2 => do
      let (length, rest) ← readVarint rest
      if toInt length < 0 then .error .invalidLength
      else .ok (((dAtA.length - rest.length : Nat) + toInt length : Int).bmod (2 ^ 64))
    | 3 => skipGroup (skipExchange calls) dAtA (dAtA.length + 1) iNdEx
    | 4 => .ok iNdEx
    | 5 => .ok (iNdEx + 4 : Nat)
    | wireType => .error (.illegalWireType wireType)

/-! ## `Unmarshal` -/

variable {M : Type}

/-- A case of the `switch` over the numbers of the fields: the name of the field, and what is done with what is read. -/
inductive FieldCase (M : Type) where
  | bytes (name : String) (put : M → List UInt8 → Except Failure M)
  | varint (name : String) (put : M → Nat → M)

/-- What is generated for a message: its name, the `switch`, and what its `default` appends to `XXX_unrecognized`. -/
structure Generated (M : Type) where
  message : String
  fields : Int → Option (FieldCase M)
  append : M → List UInt8 → M

/-- One pass of the loop of `Unmarshal`, at the end of a slice of `l` bytes, with a stack for `calls` calls of `skipExchange`. -/
def unmarshalPass (calls : Nat) (g : Generated M) (l : Nat) (m : M) (dAtA : List UInt8) : Except Failure (M × List UInt8) := do
  let (wire, rest) ← readVarint dAtA
  let wire := toUint64 wire
  let fieldNum := toInt32 (wire / 8)
  let wireType := wire % 8
  if wireType = 4 then .error (.endGroup g.message)
  else if fieldNum ≤ 0 then .error (.illegalTag g.message fieldNum wire)
  else
    match g.fields fieldNum with
    | some (.bytes name put) =>
      if wireType ≠ 2 then .error (.wrongWireType wireType name)
      else do
        let (b, rest) ← readBytes l rest
        let m ← put m b
        .ok (m, rest)
    | some (.varint name put) =>
      if wireType ≠ 0 then .error (.wrongWireType wireType name)
      else do
        let (v, rest) ← readVarint rest
        .ok (put m v, rest)
    | none => do
      let skippy ← skipExchange calls dAtA
      if skippy < 0 then .error .invalidLength
      else
        let iNdEx := l - dAtA.length
        let postIndex ← postIndex l iNdEx skippy
        .ok (g.append m (dAtA.take (postIndex - iNdEx)), dAtA.drop (postIndex - iNdEx))

/-- The loop of `Unmarshal`, for as many passes as the number after `l` says. -/
def unmarshalLoop (calls : Nat) (g : Generated M) (l : Nat) : Nat → M → List UInt8 → Except Failure M
  | _, m, [] => .ok m
  | 0, _, _ :: _ => .error .panic
  | fuel + 1, m, dAtA => do
    let (m, rest) ← unmarshalPass calls g l m dAtA
    unmarshalLoop calls g l fuel m rest

/-- `Unmarshal`: a pass reads a byte at least. -/
def unmarshal (calls : Nat) (g : Generated M) (m : M) (dAtA : List UInt8) : Except Failure M :=
  unmarshalLoop calls g dAtA.length dAtA.length m dAtA

/-! ## The messages -/

/-- `isMethodCallRequest_Argument_Value` -/
inductive ArgumentValue where
  | stringValue (s : List UInt8)
  | intValue (n : Int)
  deriving DecidableEq, Repr

/-- `MethodCallRequest_Argument`, with `Type` as the `int32` it is. -/
structure RawArgument where
  type : Int := 0
  value : Option ArgumentValue := none
  key : List UInt8 := []
  unrecognized : List UInt8 := []
  deriving DecidableEq, Repr

/-- The fields of `MethodCallRequest_Argument` -/
def RawArgument.fields : Int → Option (FieldCase RawArgument)
  | 1 => some (.varint "Type" fun m v => { m with type := toInt32 v })
  | 2 => some (.bytes "StringValue" fun m s => .ok { m with value := some (.stringValue s) })
  | 3 => some (.varint "IntValue" fun m v => { m with value := some (.intValue (toInt32 v)) })
  | 4 => some (.bytes "Key" fun m s => .ok { m with key := s })
  | _ => none

def RawArgument.generated : Generated RawArgument where
  message := "Argument"
  fields := fields
  append m b := { m with unrecognized := m.unrecognized ++ b }

/-- `Unmarshal` of a new argument -/
def RawArgument.unmarshal (stack : Stack) (dAtA : List UInt8) : Except Failure RawArgument :=
  Go.unmarshal stack.argument generated {} dAtA

/-- `MethodCallRequest`; no element of `Args` is nil. -/
structure MethodCallRequest where
  methodName : List UInt8 := []
  objectID : List UInt8 := []
  args : List RawArgument := []
  static : Bool := false
  doGetReturnValue : Bool := false
  property : Bool := false
  assignedID : List UInt8 := []
  unrecognized : List UInt8 := []
  deriving DecidableEq, Repr

/-- The fields of `MethodCallRequest` -/
def MethodCallRequest.fields (stack : Stack) : Int → Option (FieldCase MethodCallRequest)
  | 1 => some (.bytes "MethodName" fun m s => .ok { m with methodName := s })
  | 2 => some (.bytes "ObjectID" fun m s => .ok { m with objectID := s })
  | 3 => some (.bytes "Args" fun m s => do
    let arg ← RawArgument.unmarshal stack s
    .ok { m with args := m.args ++ [arg] })
  | 4 => some (.varint "Static" fun m v => { m with static := toInt v ≠ 0 })
  | 5 => some (.varint "DoGetReturnValue" fun m v => { m with doGetReturnValue := toInt v ≠ 0 })
  | 6 => some (.varint "Property" fun m v => { m with property := toInt v ≠ 0 })
  | 7 => some (.bytes "AssignedID" fun m s => .ok { m with assignedID := s })
  | _ => none

def MethodCallRequest.generated (stack : Stack) : Generated MethodCallRequest where
  message := "MethodCallRequest"
  fields := fields stack
  append m b := { m with unrecognized := m.unrecognized ++ b }

/-- `Unmarshal` of a new request -/
def MethodCallRequest.unmarshal (stack : Stack) (dAtA : List UInt8) : Except Failure MethodCallRequest :=
  Go.unmarshal stack.request (generated stack) {} dAtA

/-! ## `readProtobuf` -/

/-- `Argument` of `main.go` -/
structure Argument where
  type : String := ""
  value : Option ArgumentValue := none
  key : Option (List UInt8) := none
  deriving DecidableEq, Repr

/-- `Request` of `main.go`, without `Import`, which nothing sets. -/
structure Request where
  methodName : List UInt8 := []
  objectID : List UInt8 := []
  args : List Argument := []
  doGetReturnValue : Bool := false
  assignedID : List UInt8 := []
  property : Bool := false
  static : Bool := false
  deriving DecidableEq, Repr

/-- The body of the loop of `readProtobuf` -/
def RawArgument.read (arg : RawArgument) : Argument where
  type := if arg.type = 0 then "persistence" else if arg.type = 1 then "inplace" else ""
  value := arg.value
  key := if arg.key = [] then none else some arg.key

/-- `readProtobuf`: `none` where it panics or the stack is used up. An error is printed, and the request stays as it is. -/
def readProtobuf (stack : Stack) (request : Request) (data : List UInt8) : Option Request :=
  match MethodCallRequest.unmarshal stack data with
  | .error .panic => none
  | .error .stackOverflow => none
  | .error _ => some request
  | .ok rawReq => some {
      methodName := rawReq.methodName, objectID := rawReq.objectID, args := rawReq.args.map RawArgument.read,
      doGetReturnValue := rawReq.doGetReturnValue, assignedID := rawReq.assignedID, property := rawReq.property,
      static := rawReq.static }

end LibraryLink.Go
