import LibraryLink.Theorems.PythonReceiver

/-!
# What a callback request carries

`callback_argument` encodes its argument, and `callback_handler` encodes each of the arguments that it is called with. The function
that `create_callback` returns hands on the tuple of the arguments and the dictionary of the keyword arguments as two arguments, so
no request carries the arguments of its call.
-/

namespace LibraryLink.Python

/-- An entry is what `callback_argument` makes of an argument: the argument itself, or a name that it has in the persistence. -/
def Encodes (persistence : Dict) : Value → Entry → Prop
  | .object id, entry => entry.type = .persistence ∧ ∃ key, entry.value = .str key ∧ persistence.get key = some (.object id)
  | arg, entry => entry = { value := arg, type := .inplace }

/-- `callback_argument` encodes its argument. -/
theorem callbackArgument_encodes (arg : Value) (s : State) :
    Encodes (callbackArgument arg s).2.persistence arg (callbackArgument arg s).1 := by
  cases arg with
  | object id =>
    unfold callbackArgument
    cases hfind : s.persistence.items.find? fun e => e.2 = Value.object id with
    | some e =>
      obtain ⟨key, value⟩ := e
      obtain rfl : value = Value.object id := by simpa using List.find?_some hfind
      exact ⟨rfl, key, rfl, Table.get_eq_some_iff.mpr (List.mem_of_find?_eq_some hfind)⟩
    | none => exact ⟨rfl, _, rfl, Table.get_set_self _ _ _⟩
  | int n => rfl
  | bool b => rfl
  | str t => rfl

/-- An entry encodes one object only. -/
theorem Encodes.object_eq {persistence : Dict} {id : Nat} {arg : Value} {entry : Entry} (h : Encodes persistence (.object id) entry)
    (harg : Encodes persistence arg entry) : arg = .object id := by
  obtain ⟨htype, key, hvalue, hget⟩ := h
  cases arg with
  | object id' =>
    obtain ⟨-, key', hvalue', hget'⟩ := harg
    obtain rfl : key = key' := Value.str.inj (hvalue.symm.trans hvalue')
    exact Option.some.inj (hget'.symm.trans hget)
  | int n =>
    rw [show entry = _ from harg] at htype
    cases htype
  | bool b =>
    rw [show entry = _ from harg] at htype
    cases htype
  | str t =>
    rw [show entry = _ from harg] at htype
    cases htype

/-! ## Sequences of calls -/

/-- A request that was sent, with the call it is for and the persistence at that time. -/
structure Sent where
  call : Call
  request : CallbackRequest
  persistence : Dict

/-- The request has one entry for each positional argument, in order, and each encodes its argument. -/
def Sent.Right (sent : Sent) : Prop := List.Forall₂ (Encodes sent.persistence) sent.call.args sent.request.args

/-- Calls of a method one after the other; before each call anything may happen to the state. -/
def Callback.calls (callback : Callback) : List ((State → State) × Call) → State → List Sent
  | [], _ => []
  | (world, c) :: rest, s =>
    let (request, s) := callback.call c (world s)
    { call := c, request, persistence := s.persistence } :: callback.calls rest s

/-- The request of a call always has two entries, and the second one encodes the dictionary of the keyword arguments. -/
theorem call_args (className callbackName : String) (c : Call) (s : State) :
    ∃ first second, ((createCallback className callbackName).call c s).1.args = [first, second] ∧
      Encodes ((createCallback className callbackName).call c s).2.persistence (.object c.dict) second := by
  have hencodes := callbackArgument_encodes (.object c.dict)
    (callbackArgument (.object c.tuple) (callbackArgument c.currentObject s).2).2
  exact ⟨_, _, rfl, hencodes⟩

/-- No request of a call is right. -/
theorem not_right_of_call {className callbackName : String} (c : Call) (s : State) :
    ¬Sent.Right ⟨c, ((createCallback className callbackName).call c s).1,
      ((createCallback className callbackName).call c s).2.persistence⟩ := by
  obtain ⟨first, second, hargs, hsecond⟩ := call_args className callbackName c s
  intro h
  unfold Sent.Right at h
  rw [hargs] at h
  obtain ⟨arg, args, -, h, hc⟩ := List.forall₂_cons_right_iff.mp h
  obtain ⟨arg', args', harg', -, rfl⟩ := List.forall₂_cons_right_iff.mp h
  have hmem : arg' ∈ c.args := hc ▸ List.mem_cons_of_mem _ List.mem_cons_self
  rw [hsecond.object_eq harg'] at hmem
  exact c.dict_new hmem

/-- For every class that is inherited, every method of it and every sequence of calls, from every state and whatever happens between
the calls: the requests carry the arguments of their calls if and only if there is no call. -/
theorem right_iff_nil {py : Interpreter} {importName className base : String} {methods : List String} {s₀ : State} {clazz : Class}
    (h : dynamicallyInheritClass py importName className base methods s₀ = .ok clazz) {name : String} {callback : Callback}
    (hmethod : (name, callback) ∈ clazz.methods) (calls : List ((State → State) × Call)) (s : State) :
    (∀ sent ∈ callback.calls calls s, sent.Right) ↔ calls = [] := by
  obtain rfl : callback = createCallback className name := by
    unfold dynamicallyInheritClass at h
    split at h
    · cases h
    · split at h
      · cases h
      · obtain rfl := Except.ok.inj h
        obtain ⟨name', -, heq⟩ := List.mem_map.mp hmethod
        obtain ⟨rfl, rfl⟩ := Prod.mk.inj heq
        rfl
  constructor
  · intro hright
    rcases calls with _ | ⟨⟨world, c⟩, rest⟩
    · rfl
    · exact absurd (hright _ List.mem_cons_self) (not_right_of_call c (world s))
  · rintro rfl
    exact List.forall_mem_nil _

/-- The module `socketserver` is imported. -/
def imported : State where
  persistence := { items := [("socketserver", .object 0)], nodup := by decide }

/-- The call `handler.handle(5)`. -/
def handleFive : Call where
  currentObject := .object 2
  args := [.int 5]
  tuple := 3
  dict := 4
  tuple_new := by decide
  dict_new := by decide

/-- The rule at the class `MyHandler`, for no call of `handle` and for one: the request of the one is not right. -/
theorem right_iff_nil_handler : ∃ clazz callback,
    dynamicallyInheritClass oneModule "socketserver" "MyHandler" "BaseRequestHandler" ["handle"] imported = .ok clazz ∧
      ("handle", callback) ∈ clazz.methods ∧ (∀ sent ∈ callback.calls [] imported, sent.Right) ∧
        ¬∀ sent ∈ callback.calls [(id, handleFive)] imported, sent.Right := by
  have h : dynamicallyInheritClass oneModule "socketserver" "MyHandler" "BaseRequestHandler" ["handle"] imported = .ok _ := rfl
  refine ⟨_, _, h, List.mem_cons_self, (right_iff_nil h List.mem_cons_self [] imported).mpr rfl, ?_⟩
  intro hright
  exact List.cons_ne_nil _ _ ((right_iff_nil h List.mem_cons_self [(id, handleFive)] imported).mp hright)

/-- The request of `handler.handle(5)`: instead of 5 it carries the names of the tuple and of the dictionary. -/
theorem not_right_handler : ∃ clazz callback,
    dynamicallyInheritClass oneModule "socketserver" "MyHandler" "BaseRequestHandler" ["handle"] imported = .ok clazz ∧
      ("handle", callback) ∈ clazz.methods ∧ ∃ sent, callback.calls [(id, handleFive)] imported = [sent] ∧
        sent.request.args = [⟨.str "callback_var1", .persistence⟩, ⟨.str "callback_var2", .persistence⟩] ∧
          sent.persistence.get "callback_var1" = some (.object handleFive.tuple) ∧ ¬sent.Right :=
  ⟨_, _, rfl, List.mem_cons_self, _, rfl, by decide, by decide, not_right_of_call handleFive imported⟩

end LibraryLink.Python
