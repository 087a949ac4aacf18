import LibraryLink.ArrayHandles

/-!
# Strings of the C++ receiver in Kotlin

The helpers of `ProcessDataExchange.kt` that pass a `String` as an array of characters: `toArrayHandle` with the constructor it calls,
`strlen` and `toStringOfSize`. A `String` is the list of its UTF-16 code units.
-/

namespace LibraryLink.Kotlin

variable {ω : Type}

/-- The value as a `Char` -/
def Instance.asChar : Instance → Except Thrown UInt16
  | .value (.char c) => .ok c
  | _ => .error .classCast

/-- The value as an `Int` -/
def Instance.asInt : Instance → Except Thrown Int
  | .value (.number n) => .ok n
  | _ => .error .classCast

namespace ArrayHandle

variable (sendRequest : Exchange.Request → ω → Except Thrown (Exchange.ChannelResponse × ω))

/-- The loop of `ArrayHandle(src, clazz)`, from an index on -/
def setAll (h : ArrayHandle) : Nat → List Instance → ω → Except Thrown ω
  | _, [], w => .ok w
  | index, value :: src, w => do
    let previousValue ← h.set sendRequest index value w
    h.setAll (index + 1) src previousValue.2

/-- `ArrayHandle(src, clazz)` -/
def ofCollection (src : List Instance) (clazz : Clazz) (w : ω) : Except Thrown (ArrayHandle × ω) := do
  let made ← make sendRequest clazz src.length w
  let w ← made.1.setAll sendRequest 0 src made.2
  return (made.1, w)

/-- `strlen` -/
def strlen (h : ArrayHandle) (w : ω) : Except Thrown (Int × ω) := do
  let resp ← makeRequest sendRequest
    (.methodCall { methodName := "strlen", type := "char[]", args := [], objectID := h.assignedID, doGetReturnValue := true }) w
  let size ← resp.1.asInstanceOf .int
  let size ← size.asInt
  return (size, resp.2)

/-- The loop of `strlen_test`, with some rounds to go, from an index on -/
def strlenFrom (h : ArrayHandle) : Nat → Nat → ω → Except Thrown (Int × ω)
  | 0, _, _ => .error .illegalArgument
  | rounds + 1, i, w => do
    let element ← h.get sendRequest i w
    let char ← element.1.asChar
    if char = 0 then .ok ((i : Int), element.2) else h.strlenFrom rounds (i + 1) element.2

/-- `strlen_test`, for the indices from 0 to 100 -/
def strlenTest (h : ArrayHandle) (w : ω) : Except Thrown (Int × ω) := h.strlenFrom sendRequest 101 0 w

/-- The loop of `toStringOfSize`, up to a size -/
def appendAll (h : ArrayHandle) : Nat → ω → Except Thrown (List UInt16 × ω)
  | 0, w => .ok ([], w)
  | i + 1, w => do
    let sb ← h.appendAll i w
    let element ← h.get sendRequest i sb.2
    let char ← element.1.asChar
    return (sb.1 ++ [char], element.2)

/-- `toStringOfSize` -/
def toStringOfSize (h : ArrayHandle) (sizeSource : ArrayHandle → ω → Except Thrown (Int × ω)) (w : ω) :
    Except Thrown (List UInt16 × ω) := do
  let size ← sizeSource h w
  -- The `StringBuilder` is made with this capacity.
  if size.1 < 0 then .error .negativeArraySize
  else h.appendAll sendRequest size.1.toNat size.2

end ArrayHandle

/-- `toArrayHandle` of a `String` -/
def toArrayHandle (sendRequest : Exchange.Request → ω → Except Thrown (Exchange.ChannelResponse × ω)) (s : List UInt16) (w : ω) :
    Except Thrown (ArrayHandle × ω) :=
  ArrayHandle.ofCollection sendRequest (s.map fun c => .value (.char c)) .char w

end LibraryLink.Kotlin
