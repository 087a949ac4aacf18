import LibraryLink.KotlinRequests
import Mathlib.Logic.Function.Basic

/-!
# The Kotlin side of a callback

`CallbackDataExchange` of `ProcessDataExchange.kt`: the receivers that were registered for the methods of foreign objects, the
constructors of the Kotlin objects that stand for them, and the table of these objects.

What receivers and constructors do is a `Program`, on a state of its own; they may register others. A constructor gives a new
object each time; objects are numbered in the order they are made in.
-/

namespace LibraryLink.Kotlin

/-- A call of `registerCallback` or `registerConstructorCallback`. -/
inductive Registration (C K : Type) where
  | callback (methodName type : String) (receiver : C)
  | constructorCallback (className : String) (receiver : K)

/-- What constructors and receivers do: the calls that they make to register others, what a receiver returns, and the state of the
program. -/
structure Program (ω C K : Type) where
  construct : K → MethodCallRequest Argument → ω → List (Registration C K) × ω
  receive : C → MethodCallRequest Argument → Option Nat → ω → AnyValue × List (Registration C K) × ω

/-- `class CallbackDataExchange`. A key of `localPersistence` is absent or has null alike. `world` is the program's state and
`objects` the number of objects made. -/
structure CallbackDataExchange (ω C K : Type) where
  world : ω
  callbackReceiversMap : String × String → Option C := fun _ => none
  callbackConstructorsMap : String → Option K := fun _ => none
  localPersistence : String → Option Nat := fun _ => none
  objects : Nat := 0

/-- What a call of `handleRequest` did: the request and the object that the receiver was handed, whether a constructor was
invoked, and the response. -/
structure Handled where
  request : MethodCallRequest Argument
  obj : Option Nat
  constructed : Bool
  response : Exchange.ChannelResponse

/-- `toMethodCallRequest`; what it does not set has its default. -/
def toMethodCallRequest (r : Exchange.MethodCallRequest) : MethodCallRequest Argument where
  methodName := r.methodName
  objectID := r.objectId
  type := r.type
  args := []
  isStatic := r.static
  doGetReturnValue := r.doGetReturnValue
  isProperty := r.property

namespace CallbackDataExchange

variable {ω C K : Type}

/-- `registerCallback`, `registerConstructorCallback` -/
def register (s : CallbackDataExchange ω C K) : Registration C K → CallbackDataExchange ω C K
  | .callback methodName type receiver =>
    { s with callbackReceiversMap := Function.update s.callbackReceiversMap (methodName, type) (some receiver) }
  | .constructorCallback className receiver =>
    { s with callbackConstructorsMap := Function.update s.callbackConstructorsMap className (some receiver) }

/-- `callbackConstructorsMap[request.objectID]?.invoke(request)` -/
def invokeConstructor (program : Program ω C K) (request : MethodCallRequest Argument) (s : CallbackDataExchange ω C K) :
    Option Nat × CallbackDataExchange ω C K :=
  match s.callbackConstructorsMap request.objectID with
  | none => (none, s)
  | some receiver =>
    let effect := program.construct receiver request s.world
    (some s.objects, effect.1.foldl register { s with world := effect.2, objects := s.objects + 1 })

/-- The object for a request: the one in `localPersistence`, or what the constructor gives, which is put there. -/
def objectFor (program : Program ω C K) (request : MethodCallRequest Argument) (s : CallbackDataExchange ω C K) :
    Option Nat × CallbackDataExchange ω C K :=
  match s.localPersistence request.assignedID with
  | some existingObject => (some existingObject, s)
  | none =>
    let made := s.invokeConstructor program request
    (made.1, { made.2 with localPersistence := Function.update made.2.localPersistence request.assignedID made.1 })

/-- `handleRequest`; none where a `TODO()` throws. -/
def handleRequest (program : Program ω C K) (requestWrapped : Exchange.Request) (s : CallbackDataExchange ω C K) :
    Option (Handled × CallbackDataExchange ω C K) :=
  match requestWrapped.request with
  | some (.methodCall call) =>
    let request := toMethodCallRequest call
    let obj := s.objectFor program request
    match obj.2.callbackReceiversMap (request.methodName, request.type) with
    | none => none
    | some callback =>
      let returned := program.receive callback request obj.1 obj.2.world
      let response : Exchange.ChannelResponse := ⟨some (.returnValue returned.1.toValue), request.assignedID⟩
      some (⟨request, obj.1, obj.2.objects != s.objects, response⟩,
        returned.2.1.foldl register { obj.2 with world := returned.2.2 })
  | _ => none

/-- Runs of one exchange: callbacks are registered and requests are handled. The list has the requests that were handled, in
order, with what was done; at each of them a constructor is registered for its `object_id`. -/
inductive Run (program : Program ω C K) (s : CallbackDataExchange ω C K) :
    List (Exchange.Request × Handled) → CallbackDataExchange ω C K → Prop
  | start : Run program s [] s
  | register {l s'} (r : Registration C K) : Run program s l s' → Run program s l (s'.register r)
  | handle {l s' s''} (m : Exchange.Request) (call : Exchange.MethodCallRequest) (handled : Handled) : Run program s l s' →
      m.request = some (.methodCall call) → s'.callbackConstructorsMap call.objectId ≠ none →
      s'.handleRequest program m = some (handled, s'') → Run program s (l ++ [(m, handled)]) s''

end CallbackDataExchange

end LibraryLink.Kotlin
