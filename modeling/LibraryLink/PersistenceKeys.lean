import LibraryLink.PythonReceiver
import Mathlib.Logic.Relation

/-!
# The names of the objects in the persistence

`callback_argument` and `delete_from_persistence` with the names that they look up: `RequestsReceiver` and `logging`, among the
variables of the module, and the builtins, through `__builtins__`. A name that `delete_from_persistence` does not find in the
persistence it deletes from the variables of the module, so these can be gone.
-/

namespace LibraryLink.Python.PersistenceKeys

open Relation

/-- `NameError` -/
structure NameError where
  name : String
  deriving DecidableEq, Repr

/-- The variables of the module that the two methods use. -/
def usedGlobals : List String := ["RequestsReceiver", "logging", "__builtins__"]

/-- A variable of the module is looked up. -/
def lookupGlobal (name : String) (s : State) : Except NameError Unit :=
  if (s.globals.get name).isSome then .ok () else .error ⟨name⟩

/-- The name that `callback_argument` makes of the counter. -/
def newKey (callbackIndex : Nat) : String := "callback_var" ++ toString callbackIndex

/-- `callback_argument` -/
def callbackArgument (arg : Value) (s : State) : Except NameError Entry × State :=
  match lookupGlobal "__builtins__" s with
  | .error e => (.error e, s)
  | .ok _ =>
    match arg with
    | .object _ =>
      match lookupGlobal "RequestsReceiver" s with
      | .error e => (.error e, s)
      | .ok _ =>
        match s.persistence.items.find? fun e => e.2 = arg with
        | some e =>
          match lookupGlobal "logging" s with
          | .error e => (.error e, s)
          | .ok _ => (.ok { value := .str e.1, type := .persistence }, s)
        | none =>
          let key := newKey s.callbackIndex
          let s := { s with callbackIndex := s.callbackIndex + 1 }
          match lookupGlobal "logging" s with
          | .error e => (.error e, s)
          | .ok _ => (.ok { value := .str key, type := .persistence }, { s with persistence := s.persistence.set key arg })
    | _ => (.ok { value := arg, type := .inplace }, s)

/-- `delete_from_persistence` -/
def deleteFromPersistence (varName : String) (s : State) : Except NameError Unit × State :=
  match lookupGlobal "logging" s with
  | .error e => (.error e, s)
  | .ok _ =>
    match lookupGlobal "RequestsReceiver" s with
    | .error e => (.error e, s)
    | .ok _ => (.ok (), Python.deleteFromPersistence varName s)

/-! ## Runs -/

/-- What happens to the persistence: an object is passed, a variable is assigned by a command, or a name is deleted. -/
inductive Action where
  | call (arg : Value)
  | assign (name : String) (value : Value)
  | delete (name : String)

/-- The state after an action. -/
def Action.perform (s : State) : Action → State
  | .call arg => (callbackArgument arg s).2
  | .assign name value => { s with persistence := s.persistence.set name value }
  | .delete name => (deleteFromPersistence name s).2

/-- The client does not assign names that begin like those of the counter. -/
def ClientNames (_ : State) : Action → Prop
  | .assign name _ => ¬ "callback_var".toList <+: name.toList
  | _ => True

/-- Besides, a variable of the module that the two methods use is not deleted: its name is deleted only from the persistence. -/
def SparesGlobals (s : State) (action : Action) : Prop :=
  ClientNames s action ∧ ∀ name ∈ usedGlobals, action = .delete name → (s.persistence.get name).isSome = true

/-- An action that is allowed. -/
def Step (allowed : State → Action → Prop) (s s' : State) : Prop := ∃ action, allowed s action ∧ s' = action.perform s

/-- An object has the same names. -/
def SameNames (arg : Value) (s s' : State) : Prop :=
  ∀ name, s.persistence.get name = some arg ↔ s'.persistence.get name = some arg

/-- An object that has no name is given one. -/
def Generates (arg : Value) (s : State) (key : String) : Prop :=
  (callbackArgument arg s).1 = .ok { value := .str key, type := .persistence } ∧ ∀ name, s.persistence.get name ≠ some arg

/-- In all runs: the name that is answered for an object denotes it; no name that was there is bound anew; no name is given twice; and
as long as the names of an object do not change, the same name is answered for it. -/
structure Right (allowed : State → Action → Prop) (start : State) : Prop where
  denotes : ∀ s arg entry, ReflTransGen (Step allowed) start s → (callbackArgument arg s).1 = .ok entry →
    entry.type = .persistence → ∃ key, entry.value = .str key ∧ (callbackArgument arg s).2.persistence.get key = some arg
  keeps : ∀ s arg name value, ReflTransGen (Step allowed) start s → s.persistence.get name = some value →
    (callbackArgument arg s).2.persistence.get name = some value
  once : ∀ s arg key s' arg', ReflTransGen (Step allowed) start s → Generates arg s key →
    ReflTransGen (Step allowed) (callbackArgument arg s).2 s' → ¬ Generates arg' s' key
  stable : ∀ s arg entry s', ReflTransGen (Step allowed) start s → (callbackArgument arg s).1 = .ok entry →
    entry.type = .persistence →
    ReflTransGen (fun a b => Step allowed a b ∧ SameNames arg a b) (callbackArgument arg s).2 s' →
    (callbackArgument arg s').1 = .ok entry

end LibraryLink.Python.PersistenceKeys
