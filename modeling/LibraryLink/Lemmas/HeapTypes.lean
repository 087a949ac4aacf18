import LibraryLink.Lemmas.CppReceiver
import LibraryLink.CppChannels
import LibraryLink.General.Runs
import Mathlib.Data.List.ReduceOption

/-!
# Helpers for `Theorems/Requests.lean`: what the variables in memory point to

The table of handles forgets types, the variables it points to do not: the value of each is null or leads to an array or an
object, as its type says. No step of the process changes what kind of thing stands at an address.
-/

namespace LibraryLink.Cpp.Process

open Outcome

variable {S : Type}

/-! ## Kinds -/

/-- What stands at an address, without its content. -/
inductive Kind where
  | cell (type : CType)
  | chars
  | asts
  | object
  deriving DecidableEq, Repr

/-- The kind of a thing in memory. -/
def Obj.kind : Obj S → Kind
  | .cell type _ => .cell type
  | .chars _ => .chars
  | .asts _ => .asts
  | .object _ => .object

/-- What a value of a type leads to, unless it is null. -/
def CType.pointee : CType → Kind
  | .charPointer => .chars
  | .astPointer => .asts
  | _ => .object

/-- The kind of what stands at an address. -/
def kindAt (heap : List (Obj S)) (a : Addr) : Option Kind := heap[a]?.map Obj.kind

/-- The pointers in a variable or an array lead where their type says. -/
def Obj.WellTyped (kinds : Addr → Option Kind) : Obj S → Prop
  | .cell type (some b) => kinds b = some type.pointee
  | .asts data => ∀ b, some b ∈ data → kinds b = some .object
  | _ => True

/-- All pointers in the memory lead where their type says. -/
def WellTyped (heap : List (Obj S)) : Prop := ∀ o ∈ heap, o.WellTyped (kindAt heap)

theorem wellTyped_nil : WellTyped ([] : List (Obj S)) := nofun

/-- What stands at an address stays what it is. -/
def KeepsKinds (heap heap' : List (Obj S)) : Prop := ∀ a k, kindAt heap a = some k → kindAt heap' a = some k

/-- What leads to the right kinds of things does so while these stay what they are. -/
theorem Obj.WellTyped.mono {o : Obj S} {heap heap' : List (Obj S)} (h : o.WellTyped (kindAt heap))
    (hk : KeepsKinds heap heap') : o.WellTyped (kindAt heap') := by
  cases o with
  | cell type value =>
    cases value with
    | none => trivial
    | some b => exact hk _ _ h
  | asts data => exact fun b hb => hk _ _ (h b hb)
  | chars data => trivial
  | object state => trivial

/-- What stands at an address is in the memory. -/
theorem wellTyped_at {heap : List (Obj S)} (h : WellTyped heap) {a : Addr} {o : Obj S} (ha : heap[a]? = some o) :
    o.WellTyped (kindAt heap) :=
  h o (List.mem_of_getElem? ha)

theorem kindAt_of_getElem? {heap : List (Obj S)} {a : Addr} {o : Obj S} (h : heap[a]? = some o) :
    kindAt heap a = some o.kind := by
  rw [kindAt, h]
  rfl

theorem exists_of_kindAt {heap : List (Obj S)} {a : Addr} {k : Kind} (h : kindAt heap a = some k) :
    ∃ o, heap[a]? = some o ∧ o.kind = k :=
  Option.map_eq_some_iff.mp h

/-! ## The array and the object at an address -/

theorem exists_charsAt {heap : List (Obj S)} {b : Addr} : (∃ data, charsAt heap b = .ok data) ↔ kindAt heap b = some .chars := by
  unfold charsAt kindAt
  rcases heap[b]? with _ | ⟨type, value⟩ | data | data | state <;> simp [Obj.kind]

theorem exists_astsAt {heap : List (Obj S)} {b : Addr} : (∃ data, astsAt heap b = .ok data) ↔ kindAt heap b = some .asts := by
  unfold astsAt kindAt
  rcases heap[b]? with _ | ⟨type, value⟩ | data | data | state <;> simp [Obj.kind]

theorem exists_objectAt {heap : List (Obj S)} {a : Addr} :
    (∃ state, objectAt heap a = .ok state) ↔ kindAt heap a = some .object := by
  unfold objectAt kindAt
  rcases heap[a]? with _ | ⟨type, value⟩ | data | data | state <;> simp [Obj.kind]

/-! ## Changes of the memory -/

/-- Something new at the end of the memory. -/
theorem KeepsKinds.alloc (heap : List (Obj S)) (o : Obj S) : KeepsKinds heap (heap ++ [o]) := by
  intro a k ha
  obtain ⟨o', ho', rfl⟩ := exists_of_kindAt ha
  refine kindAt_of_getElem? ?_
  rw [List.getElem?_append_left (List.getElem?_eq_some_iff.mp ho').1]
  exact ho'

theorem kindAt_alloc (s : State S) (o : Obj S) : kindAt (s.alloc o).2.heap (s.alloc o).1 = some o.kind := by
  refine kindAt_of_getElem? ?_
  simp [State.alloc]

theorem WellTyped.alloc {s : State S} {o : Obj S} (h : WellTyped s.heap) (ho : o.WellTyped (kindAt s.heap)) :
    WellTyped (s.alloc o).2.heap := by
  intro o' ho'
  have hk : KeepsKinds s.heap (s.alloc o).2.heap := KeepsKinds.alloc s.heap o
  rcases List.mem_append.mp ho' with ho' | ho'
  · exact (h o' ho').mono hk
  · rw [List.mem_singleton.mp ho']
    exact ho.mono hk

/-- A change that leaves every kind as it is. -/
theorem WellTyped.change {heap heap' : List (Obj S)} (hk : kindAt heap' = kindAt heap)
    (h : ∀ o ∈ heap', o.WellTyped (kindAt heap)) : WellTyped heap' := by
  intro o ho
  rw [hk]
  exact h o ho

/-- Another content of the same kind. -/
theorem WellTyped.set {heap : List (Obj S)} (h : WellTyped heap) {b : Addr} {o o' : Obj S} (hb : heap[b]? = some o)
    (hkind : o'.kind = o.kind) (ho' : o'.WellTyped (kindAt heap)) : WellTyped (heap.set b o') := by
  have hk : kindAt (heap.set b o') = kindAt heap := by
    funext a
    unfold kindAt
    by_cases hab : b = a
    · subst hab
      rw [List.getElem?_set_self (List.getElem?_eq_some_iff.mp hb).1, hb]
      exact congrArg some hkind
    · rw [List.getElem?_set_ne hab]
  refine WellTyped.change hk ?_
  intro x hx
  rcases List.mem_or_eq_of_mem_set hx with hx | rfl
  · exact h x hx
  · exact ho'

/-- The library changes the states of objects. -/
theorem kindAt_update {heap : List (Obj S)} {passed : List Addr} (h : ∀ a ∈ passed, kindAt heap a = some .object)
    (states : List S) : kindAt (update heap passed states) = kindAt heap := by
  funext a
  unfold kindAt update
  rw [List.getElem?_mapIdx]
  cases ha : heap[a]? with
  | none => rfl
  | some o =>
    simp only [Option.map_some, Option.some.injEq]
    split
    · rename_i hmem
      have hkind := kindAt_of_getElem? ha
      rw [h a hmem, Option.some.injEq] at hkind
      split
      · exact hkind
      · rfl
    · rfl

theorem WellTyped.update {heap : List (Obj S)} (hw : WellTyped heap) {passed : List Addr}
    (h : ∀ a ∈ passed, kindAt heap a = some .object) (states : List S) : WellTyped (update heap passed states) := by
  refine WellTyped.change (kindAt_update h states) ?_
  intro o ho
  obtain ⟨i, hi, rfl⟩ := List.mem_mapIdx.mp ho
  split
  · split
    · trivial
    · exact hw _ (List.getElem_mem hi)
  · exact hw _ (List.getElem_mem hi)

/-! ## Requests -/

@[simp] theorem doCallback_heap (methodName type : String) (args : List CallbackArg) (s : State S) :
    (doCallback methodName type args s).2.heap = s.heap := by
  induction args generalizing s with
  | nil => rfl
  | cons arg args ih =>
    cases arg with
    | inplace value => exact ih s
    | persistence p => exact ih _

@[simp] theorem runCallbacks_heap (callbacks : List Callback) (s : State S) : (runCallbacks callbacks s).heap = s.heap := by
  induction callbacks generalizing s with
  | nil => rfl
  | cons c callbacks ih => exact (ih _).trans (doCallback_heap _ _ _ s)

/-- A handle that is returned is one of an object. -/
def Ret.returnsObject : Ret → Bool
  | .handle type => type.pointee = .object
  | _ => true

/-- A handle that a branch returns is one of an object. -/
def Action.returnsObject : Action → Bool
  | .library h => h.ret.returnsObject
  | _ => true

theorem returnsObject_of_dispatch {r : MethodCallRequest} {action : Action} (h : dispatch r = some action) :
    action.returnsObject = true := by
  have hall : ∀ route ∈ routes, route.2.2.returnsObject = true := List.all_eq_true.mp (by decide)
  unfold dispatch at h
  split at h
  · rename_i route hfind
    rw [← Option.some.inj h]
    exact hall route (List.mem_of_find?_eq_some hfind)
  · split at h
    · rw [← Option.some.inj h]
      rfl
    · cases h

/-- The result of a library function, as the value of a variable for objects. -/
theorem WellTyped.produce {s : State S} (hw : WellTyped s.heap) {passed : List Addr}
    (hpassed : ∀ a ∈ passed, kindAt s.heap a = some .object) (p : Produced S) :
    WellTyped (produce passed s p).2.heap ∧
      ∀ b, (Process.produce passed s p).1 = some b → kindAt (Process.produce passed s p).2.heap b = some .object := by
  cases p with
  | null => exact ⟨hw, nofun⟩
  | existing i => exact ⟨hw, fun b hb => hpassed b (List.mem_of_getElem? hb)⟩
  | fresh state =>
    refine ⟨hw.alloc trivial, fun b hb => ?_⟩
    rw [← Option.some.inj hb]
    exact kindAt_alloc s _

/-- The result of a handler is stored in a variable that leads to an object. -/
theorem WellTyped.finish {s : State S} (hw : WellTyped s.heap) {passed : List Addr}
    (hpassed : ∀ a ∈ passed, kindAt s.heap a = some .object) {ret : Ret} (hret : ret.returnsObject = true)
    (effect : Effect S) (resp : ChannelResponse) : WellTyped (ret.finish passed effect s resp).2.heap := by
  cases ret with
  | handle type =>
    obtain ⟨hw', hvalue⟩ := hw.produce hpassed effect.object
    refine hw'.alloc ?_
    cases h : (Process.produce passed s effect.object).1 with
    | none => trivial
    | some b => exact (hvalue b h).trans (congrArg some (of_decide_eq_true hret).symm)
  | _ => exact hw

/-- Only objects are passed to the library. -/
theorem object_of_mapM {heap : List (Obj S)} {passed : List Addr} {states : List S}
    (h : passed.mapM (objectAt heap) = .ok states) : ∀ a ∈ passed, kindAt heap a = some .object :=
  fun a ha => exists_objectAt.mp (exists_mapM_eq_ok.mp ⟨states, h⟩ a ha)

/-- A zeroed array has no pointers in it. -/
theorem WellTyped.calloc {s : State S} (hw : WellTyped s.heap) (elem : Elem) (callocs : Bool) (size : Int) :
    WellTyped (calloc elem callocs size s).2.heap ∧
      (Obj.cell elem.pointer (Process.calloc elem callocs size s).1 : Obj S).WellTyped
        (kindAt (Process.calloc elem callocs size s).2.heap) := by
  unfold Process.calloc
  split
  · refine ⟨hw.alloc ?_, (kindAt_alloc s _).trans ?_⟩
    · cases elem with
      | char => trivial
      | ast => exact fun b hb => nomatch List.eq_of_mem_replicate hb
    · cases elem <;> rfl
  · exact ⟨hw, trivial⟩

/-- Serving a call leaves the memory well typed. -/
theorem WellTyped.run {lib : Library S} {env : Env} {r : MethodCallRequest} {s s' : State S} {resp resp' : ChannelResponse}
    {action : Action} (hret : action.returnsObject = true) (hw : WellTyped s.heap)
    (h : action.run lib env r s resp = .ok (resp', s')) : WellTyped s'.heap := by
  cases action with
  | library handler =>
    obtain ⟨s₁, passed, states, effect, hheap, -, hstates, rfl⟩ := handler_eq_ok h
    have hpassed := object_of_mapM hstates
    refine WellTyped.finish ?_ ?_ hret _ resp
    · show WellTyped (Process.update (runCallbacks env.callbacks s₁).heap _ _)
      rw [runCallbacks_heap, hheap]
      exact WellTyped.update hw hpassed _
    · show ∀ a ∈ _, kindAt (Process.update (runCallbacks env.callbacks s₁).heap _ _) a = _
      rw [runCallbacks_heap, hheap, kindAt_update hpassed]
      exact hpassed
  | set elem =>
    cases elem with
    | char =>
      obtain ⟨b, data, data', hdata, hheap, -⟩ := setChar_eq_ok h
      rw [hheap]
      exact hw.set hdata rfl trivial
    | ast =>
      obtain ⟨b, data, i, a, value, hdata, hcell, hheap, -⟩ := set_eq_ok h
      rw [hheap]
      refine hw.set hdata rfl ?_
      intro c hc
      rcases List.mem_or_eq_of_mem_set hc with hc | rfl
      · exact wellTyped_at hw hdata c hc
      · exact wellTyped_at hw hcell
  | get elem =>
    cases elem with
    | char =>
      rw [(getChar_eq_ok h).1]
      exact hw
    | ast =>
      obtain ⟨b, data, value, s₁, hdata, hmem, hheap, -, rfl⟩ := get_eq_ok h
      refine WellTyped.alloc (hheap ▸ hw) ?_
      rw [hheap]
      cases value with
      | none => trivial
      | some a => exact wellTyped_at hw hdata a (hmem a rfl)
  | memAlloc elem =>
    obtain ⟨size, array, rfl, rfl⟩ := memAlloc_eq_ok h
    obtain ⟨hw', hcell⟩ := hw.calloc elem env.callocs size
    exact hw'.alloc hcell
  | strlen =>
    rw [(strlen_eq_ok h).1]
    exact hw

/-- The response's id is drawn without a look at the memory. -/
@[simp] theorem assignId_heap (rq : Request) (s : State S) : (assignId rq s).2.heap = s.heap := by
  unfold assignId
  split <;> rfl

/-- The response's id is drawn without a look at the table. -/
@[simp] theorem assignId_persistence (rq : Request) (s : State S) : (assignId rq s).2.persistence = s.persistence := by
  unfold assignId
  split <;> rfl

/-- Serving a request leaves the memory well typed. -/
theorem WellTyped.serve {lib : Library S} {env : Env} {rq : Request} {s s' : State S} {resp : ChannelResponse}
    (hw : WellTyped s.heap) (h : serve lib env rq s = .ok (resp, s')) : WellTyped s'.heap := by
  have hw' : WellTyped (assignId rq s).2.heap := (assignId_heap rq s).symm ▸ hw
  rcases serve_cases h with ⟨-, -, rfl⟩ | ⟨r, action, -, hdispatch, hrun⟩
  · exact hw'
  · exact hw'.run (returnsObject_of_dispatch hdispatch) hrun

/-- A turn after which the process still runs leaves the channel, or answers a request. -/
theorem Server.turn_cases {parse : List UInt8 → Request} {lib : Library S} {env : Env} {fd : Nat} {v v' : Server S}
    {read : Except String ChannelRequest} (h : v.turn parse lib env fd read = some v') :
    v' = v.leave fd ∨ ∃ rq response state, serve lib env rq v.state = .ok (response, state) ∧
      v' = { v with state, written := Function.update v.written fd (v.written fd ++ [response]) } := by
  unfold Server.turn at h
  split at h
  · exact .inl (Option.some.inj h).symm
  · split at h
    · exact .inl (Option.some.inj h).symm
    · split at h
      · rename_i hserve
        split at h
        · exact .inr ⟨_, _, _, hserve, (Option.some.inj h).symm⟩
        · cases h
      · cases h

/-- A step of the process leaves the memory well typed. -/
theorem WellTyped.step {v v' : Server S} (hw : WellTyped v.state.heap) (h : ServerStep v v') : WellTyped v'.state.heap := by
  cases h with
  | accept v fd => exact hw
  | turn parse lib env fd v v' read hfd h =>
    rcases Server.turn_cases h with rfl | ⟨rq, response, state, hserve, rfl⟩
    · exact hw
    · exact hw.serve hserve
  | callback methodName type args v =>
    rw [doCallback_heap]
    exact hw

/-- In every state that the process reaches the memory is well typed. -/
theorem wellTyped_of_run {v : Server S} (h : Relation.ReflTransGen ServerStep {} v) : WellTyped v.state.heap :=
  Runs.invariant (I := fun v : Server S => WellTyped v.state.heap) (fun _ _ hw hs => hw.step hs) h wellTyped_nil

/-! ## The arguments of the library -/

/-- A value of a variable gives an argument. -/
theorem exists_operandOf {heap : List (Obj S)} {type : CType} {value : Option Addr}
    (hw : (Obj.cell type value : Obj S).WellTyped (kindAt heap)) : ∃ o, operandOf heap type value = .ok o := by
  cases value with
  | none => exact ⟨_, rfl⟩
  | some b =>
    cases type with
    | charPointer => exact exists_bind_eq_ok.mpr ((exists_charsAt.mpr hw).imp fun data h => ⟨h, _, rfl⟩)
    | astPointer => exact exists_bind_eq_ok.mpr ((exists_astsAt.mpr hw).imp fun data h => ⟨h, _, rfl⟩)
    | _ => exact ⟨_, rfl⟩

/-- The things passed with the argument that a variable gives are objects. -/
theorem object_of_operandOf {heap : List (Obj S)} (hheap : WellTyped heap) {type : CType} {value : Option Addr}
    (hw : (Obj.cell type value : Obj S).WellTyped (kindAt heap)) {o : Operand} (h : operandOf heap type value = .ok o) :
    ∀ a ∈ o.objects, kindAt heap a = some .object := by
  cases value with
  | none =>
    rw [← Except.ok.inj h]
    exact nofun
  | some b =>
    cases type with
    | charPointer =>
      obtain ⟨data, -, h⟩ := bind_eq_ok.mp h
      rw [← Except.ok.inj h]
      exact nofun
    | astPointer =>
      obtain ⟨data, hdata, h⟩ := bind_eq_ok.mp h
      rw [← Except.ok.inj h]
      intro a ha
      exact wellTyped_at hheap (astsAt_eq_ok.mp hdata) a (List.reduceOption_mem_iff.mp ha)
    | _ =>
      rw [← Except.ok.inj h]
      intro a ha
      rw [List.mem_singleton.mp ha]
      exact hw

/-- The things passed with the argument that a local variable gives are objects. -/
theorem object_of_operand {heap : List (Obj S)} (hheap : WellTyped heap) {l : Local} {o : Operand}
    (h : l.operand heap = .ok o) : ∀ a ∈ o.objects, kindAt heap a = some .object := by
  cases l with
  | pointer type p =>
    obtain ⟨value, hvalue, h⟩ := bind_eq_ok.mp h
    obtain ⟨a, -, ha⟩ := deref_eq_ok.mp hvalue
    exact object_of_operandOf hheap (wellTyped_at hheap ha) h
  | int n =>
    rw [← Except.ok.inj h]
    exact nofun
  | bool b =>
    rw [← Except.ok.inj h]
    exact nofun

end LibraryLink.Cpp.Process
