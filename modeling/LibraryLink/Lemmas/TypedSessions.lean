import LibraryLink.TypedSessions

/-!
# Helpers for `Theorems/TypedSessions.lean`: what no step changes of the memory, and what a branch answers

A variable keeps its value and an array its length, whatever is served and whoever asked for it. A branch that succeeds answers with a
result of its kind, and leaves under the assigned id what it is said to return.
-/

namespace LibraryLink.Cpp.Process

open Outcome

variable {S : Type}

/-! ## Shapes -/

/-- What stands at an address, as far as it never changes. -/
inductive Shape where
  | cell (type : CType) (value : Option Addr)
  | chars (length : Nat)
  | asts (length : Nat)
  | object
  deriving DecidableEq, Repr

/-- The shape of a thing in memory. -/
def Obj.shape : Obj S → Shape
  | .cell type value => .cell type value
  | .chars data => .chars data.length
  | .asts data => .asts data.length
  | .object _ => .object

/-- The shape of what stands at an address. -/
def shapeAt (heap : List (Obj S)) (a : Addr) : Option Shape := heap[a]?.map Obj.shape

theorem shapeAt_of_getElem? {heap : List (Obj S)} {a : Addr} {o : Obj S} (h : heap[a]? = some o) :
    shapeAt heap a = some o.shape := by
  rw [shapeAt, h]
  rfl

theorem exists_of_shapeAt {heap : List (Obj S)} {a : Addr} {sh : Shape} (h : shapeAt heap a = some sh) :
    ∃ o, heap[a]? = some o ∧ o.shape = sh :=
  Option.map_eq_some_iff.mp h

/-- What stands at an address keeps its shape. -/
def KeepsShapes (heap heap' : List (Obj S)) : Prop := ∀ a sh, shapeAt heap a = some sh → shapeAt heap' a = some sh

theorem KeepsShapes.refl (heap : List (Obj S)) : KeepsShapes heap heap := fun _ _ h => h

theorem KeepsShapes.trans {heap heap' heap'' : List (Obj S)} (h : KeepsShapes heap heap') (h' : KeepsShapes heap' heap'') :
    KeepsShapes heap heap'' :=
  fun a sh ha => h' a sh (h a sh ha)

/-- Something new at the end of the memory. -/
theorem KeepsShapes.alloc (s : State S) (o : Obj S) : KeepsShapes s.heap (s.alloc o).2.heap := by
  intro a sh ha
  obtain ⟨o', ho', rfl⟩ := exists_of_shapeAt ha
  refine shapeAt_of_getElem? ?_
  show (s.heap ++ [o])[a]? = _
  rw [List.getElem?_append_left (List.getElem?_eq_some_iff.mp ho').1]
  exact ho'

/-- Another content of the same shape. -/
theorem KeepsShapes.set {heap : List (Obj S)} {b : Addr} {o o' : Obj S} (hb : heap[b]? = some o) (ho : o'.shape = o.shape) :
    KeepsShapes heap (heap.set b o') := by
  intro a sh ha
  obtain ⟨x, hx, rfl⟩ := exists_of_shapeAt ha
  by_cases hba : b = a
  · subst hba
    obtain rfl : x = o := Option.some.inj (hx.symm.trans hb)
    rw [← ho]
    exact shapeAt_of_getElem? (List.getElem?_set_self (List.getElem?_eq_some_iff.mp hb).1)
  · refine shapeAt_of_getElem? ?_
    rw [List.getElem?_set_ne hba]
    exact hx

/-- The library changes the states of objects. -/
theorem KeepsShapes.update {heap : List (Obj S)} {passed : List Addr} (h : ∀ a ∈ passed, kindAt heap a = some .object)
    (states : List S) : KeepsShapes heap (update heap passed states) := by
  intro a sh ha
  obtain ⟨o, ho, rfl⟩ := exists_of_shapeAt ha
  unfold shapeAt Process.update
  rw [List.getElem?_mapIdx, ho]
  simp only [Option.map_some, Option.some.injEq]
  split
  · rename_i hmem
    obtain ⟨o', ho', hkind⟩ := exists_of_kindAt (h a hmem)
    obtain rfl : o' = o := Option.some.inj (ho'.symm.trans ho)
    split
    · cases o' with
      | object state => rfl
      | _ => cases hkind
    · rfl
  · rfl

theorem KeepsShapes.produce (passed : List Addr) (s : State S) (p : Produced S) :
    KeepsShapes s.heap (produce passed s p).2.heap := by
  cases p with
  | null => exact KeepsShapes.refl _
  | existing i => exact KeepsShapes.refl _
  | fresh state => exact KeepsShapes.alloc s _

theorem KeepsShapes.calloc (elem : Elem) (callocs : Bool) (size : Int) (s : State S) :
    KeepsShapes s.heap (calloc elem callocs size s).2.heap := by
  unfold Process.calloc
  split
  · exact KeepsShapes.alloc s _
  · exact KeepsShapes.refl _

/-- What a handler does with the result adds to the memory at most. -/
theorem KeepsShapes.finish (passed : List Addr) (effect : Effect S) (s : State S) (resp : ChannelResponse) (ret : Ret) :
    KeepsShapes s.heap (ret.finish passed effect s resp).2.heap := by
  cases ret with
  | handle type => exact (KeepsShapes.produce passed s effect.object).trans (KeepsShapes.alloc _ _)
  | _ => exact KeepsShapes.refl _

/-- `librarylink_set<char>` changes one element. -/
theorem setChar_eq_set {r : MethodCallRequest} {s s' : State S} {resp resp' : ChannelResponse}
    (h : librarylinkSetChar r s resp = .ok (resp', s')) :
    ∃ (b : Addr) (data : List Int) (i : Nat) (n : Int), s.heap[b]? = some (.chars data) ∧
      s'.heap = s.heap.set b (.chars (data.set i n)) := by
  obtain ⟨pos, -, h⟩ := bind_eq_ok.mp h
  obtain ⟨value, -, h⟩ := bind_eq_ok.mp h
  obtain ⟨b, -, h⟩ := bind_eq_ok.mp h
  obtain ⟨data, hdata, h⟩ := bind_eq_ok.mp h
  obtain ⟨i, -, h⟩ := bind_eq_ok.mp h
  obtain ⟨-, rfl⟩ := Prod.mk.inj (Except.ok.inj h)
  rw [lookup_heap] at hdata ⊢
  exact ⟨b, data, i, _, charsAt_eq_ok.mp hdata, rfl⟩

/-- A branch keeps all shapes. -/
theorem KeepsShapes.run {lib : Library S} {env : Env} {r : MethodCallRequest} {s s' : State S} {resp resp' : ChannelResponse}
    {action : Action} (h : action.run lib env r s resp = .ok (resp', s')) : KeepsShapes s.heap s'.heap := by
  cases action with
  | library handler =>
    obtain ⟨s₁, passed, states, effect, hheap, -, hstates, rfl⟩ := handler_eq_ok h
    refine KeepsShapes.trans ?_ (KeepsShapes.finish passed effect _ resp handler.ret)
    show KeepsShapes s.heap (Process.update (runCallbacks env.callbacks s₁).heap passed effect.states)
    rw [runCallbacks_heap, hheap]
    exact KeepsShapes.update (object_of_mapM hstates) _
  | set elem =>
    cases elem with
    | char =>
      obtain ⟨b, data, i, n, hdata, hheap⟩ := setChar_eq_set h
      rw [hheap]
      exact KeepsShapes.set hdata (congrArg Shape.chars List.length_set)
    | ast =>
      obtain ⟨b, data, i, -, value, hdata, -, hheap, -⟩ := set_eq_ok h
      rw [hheap]
      exact KeepsShapes.set hdata (congrArg Shape.asts List.length_set)
  | get elem =>
    cases elem with
    | char =>
      rw [(getChar_eq_ok h).1]
      exact KeepsShapes.refl _
    | ast =>
      obtain ⟨b, data, value, s₁, -, -, hheap, -, rfl⟩ := get_eq_ok h
      rw [← hheap]
      exact KeepsShapes.alloc s₁ _
  | memAlloc elem =>
    obtain ⟨size, array, rfl, rfl⟩ := memAlloc_eq_ok h
    exact (KeepsShapes.calloc elem env.callocs size s).trans (KeepsShapes.alloc _ _)
  | strlen =>
    rw [(strlen_eq_ok h).1]
    exact KeepsShapes.refl _

/-- Serving a request keeps all shapes. -/
theorem KeepsShapes.serve {lib : Library S} {env : Env} {rq : Request} {s s' : State S} {resp : ChannelResponse}
    (h : serve lib env rq s = .ok (resp, s')) : KeepsShapes s.heap s'.heap := by
  rw [← assignId_heap rq s]
  rcases serve_cases h with ⟨-, -, rfl⟩ | ⟨r, action, -, -, hrun⟩
  · exact KeepsShapes.refl _
  · exact KeepsShapes.run hrun

/-- A step of the receiver keeps all shapes. -/
theorem IdStep.keepsShapes {s s' : State S} (h : IdStep s s') : KeepsShapes s.heap s'.heap := by
  cases h with
  | request lib env rq s s' resp hid h => exact KeepsShapes.serve h
  | callback methodName type args s =>
    rw [doCallback_heap]
    exact KeepsShapes.refl _

/-- A step of the receiver leaves the memory well typed. -/
theorem IdStep.wellTyped {s s' : State S} (h : IdStep s s') (hw : WellTyped s.heap) : WellTyped s'.heap := by
  cases h with
  | request lib env rq s s' resp hid h => exact hw.serve h
  | callback methodName type args s =>
    rw [doCallback_heap]
    exact hw

/-- A step of the receiver leaves the pointers under their keys and the variables as they are. -/
theorem IdStep.keepsCells {s s' : State S} (h : IdStep s s') (hi : Ids s none) (hlen : s'.drawn.length ≤ 2 ^ 64) :
    KeepsCells Set.univ s s' := by
  refine ⟨fun key _ => h.keeps.entry hlen hi key, ?_⟩
  intro a type value ha
  obtain ⟨o, ho, hshape⟩ := exists_of_shapeAt (h.keepsShapes a _ (shapeAt_of_getElem? ha))
  rw [ho]
  cases o with
  | cell type' value' =>
    obtain ⟨rfl, rfl⟩ := Shape.cell.inj hshape
    rfl
  | _ => cases hshape

/-! ## Arrays of a length -/

/-- The shape of an array of a length. -/
def Elem.shape : Elem → Nat → Shape
  | .char => .chars
  | .ast => .asts

/-- A pointer to a pointer to an array of a length is stored under a key. -/
def State.HasArray (s : State S) (key : String) (elem : Elem) (size : Nat) : Prop :=
  ∃ b, s.Points key elem.pointer (some b) ∧ shapeAt s.heap b = some (elem.shape size)

theorem State.HasArray.chars {s : State S} {key : String} {size : Nat} (h : s.HasArray key .char size) :
    ∃ data, s.CharArray key data ∧ data.length = size := by
  obtain ⟨b, hpoints, hshape⟩ := h
  obtain ⟨o, ho, hshape⟩ := exists_of_shapeAt hshape
  cases o with
  | chars data => exact ⟨data, ⟨b, hpoints, ho⟩, Shape.chars.inj hshape⟩
  | _ => cases hshape

theorem State.HasArray.asts {s : State S} {key : String} {size : Nat} (h : s.HasArray key .ast size) :
    ∃ data, s.AstArray key data ∧ data.length = size := by
  obtain ⟨b, hpoints, hshape⟩ := h
  obtain ⟨o, ho, hshape⟩ := exists_of_shapeAt hshape
  cases o with
  | asts data => exact ⟨data, ⟨b, hpoints, ho⟩, Shape.asts.inj hshape⟩
  | _ => cases hshape

/-- A step of the receiver leaves an array at its length. -/
theorem State.HasArray.step {s s' : State S} {key : String} {elem : Elem} {size : Nat} (h : s.HasArray key elem size)
    (hcells : KeepsCells Set.univ s s') (hshapes : KeepsShapes s.heap s'.heap) : s'.HasArray key elem size := by
  obtain ⟨b, hpoints, hshape⟩ := h
  exact ⟨b, hcells.points (Set.mem_univ key) hpoints, hshapes b _ hshape⟩

/-! ## Answers -/

/-- What a handler answers, and what it leaves under the assigned id. -/
def Ret.Answers (s' : State S) (resp : ChannelResponse) : Ret → Prop
  | .nothing => resp.result = none
  | .int => ∃ n, -2 ^ 31 ≤ n ∧ n < 2 ^ 31 ∧ resp.result = some (.returnValue n)
  | .bool => ∃ n, (n = 0 ∨ n = 1) ∧ resp.result = some (.returnValue n)
  | .handle type => resp.result = none ∧ ∃ value, s'.Points resp.assignedId type value

/-- A new variable, stored under a key. -/
theorem points_store_alloc (s : State S) (key : String) (type : CType) (value : Option Addr) :
    ((s.alloc (.cell type value)).2.store key (some (s.alloc (.cell type value)).1)).Points key type value := by
  refine ⟨(s.alloc (.cell type value)).1, store_entry _ _ _, ?_⟩
  simp [State.alloc]

/-- A handler answers as its result says. -/
theorem answers_of_handler {handler : Handler} {lib : Library S} {env : Env} {r : MethodCallRequest} {s s' : State S}
    {id : String} {resp : ChannelResponse} (h : handler.run lib env r s ⟨id, none⟩ = .ok (resp, s')) :
    resp.assignedId = id ∧ handler.ret.Answers s' resp := by
  obtain ⟨⟨locals, s₁⟩, -, h⟩ := bind_eq_ok.mp h
  obtain ⟨passed, -, h⟩ := bind_eq_ok.mp h
  obtain ⟨effect, -, h⟩ := bind_eq_ok.mp h
  have h := Except.ok.inj h
  cases hret : handler.ret with
  | nothing =>
    rw [hret] at h
    obtain ⟨rfl, -⟩ := Prod.mk.inj h
    exact ⟨rfl, rfl⟩
  | int =>
    rw [hret] at h
    obtain ⟨rfl, -⟩ := Prod.mk.inj h
    refine ⟨rfl, _, ?_, ?_, rfl⟩
    · exact Int.le_bmod (by decide)
    · exact Int.bmod_lt (by decide)
  | bool =>
    rw [hret] at h
    obtain ⟨rfl, -⟩ := Prod.mk.inj h
    refine ⟨rfl, _, ?_, rfl⟩
    split
    · exact .inl rfl
    · exact .inr rfl
  | handle type =>
    rw [hret] at h
    obtain ⟨rfl, rfl⟩ := Prod.mk.inj h
    exact ⟨rfl, rfl, _, points_store_alloc _ _ _ _⟩

/-- What a branch answers, and what it leaves under the assigned id. -/
def Action.Answers (r : MethodCallRequest) (s' : State S) (resp : ChannelResponse) : Action → Prop
  | .library h => h.ret.Answers s' resp
  | .set _ => resp.result = none
  | .get .char => ∃ n, resp.result = some (.returnValue n)
  | .get .ast => resp.result = none ∧ ∃ value, s'.Points resp.assignedId .ast value
  | .memAlloc elem =>
    resp.result = none ∧ ∀ size : Nat, (argumentValue r 0).intValue = size → s'.HasArray resp.assignedId elem size
  | .strlen => ∃ n, resp.result = some (.returnValue n)

/-- A zeroed array of a length, if there is memory for it. -/
theorem shapeAt_calloc (elem : Elem) (size : Nat) (s : State S) :
    ∃ b, (calloc elem true size s).1 = some b ∧ shapeAt (calloc elem true size s).2.heap b = some (elem.shape size) := by
  rw [calloc, if_pos ⟨rfl, Int.natCast_nonneg size⟩, Int.toNat_natCast]
  refine ⟨_, rfl, ?_⟩
  have hget : (s.alloc (elem.zeros size)).2.heap[(s.alloc (elem.zeros size)).1]? = some (elem.zeros size : Obj S) := by
    simp [State.alloc]
  rw [shapeAt_of_getElem? hget]
  cases elem <;> simp [Elem.zeros, Obj.shape, Elem.shape]

/-- An array that was allocated is behind the assigned id. -/
theorem answers_of_memAlloc {elem : Elem} {env : Env} {r : MethodCallRequest} {s s' : State S} {id : String}
    {resp : ChannelResponse} (henv : env.callocs = true) (h : librarylinkMemAlloc elem env r s ⟨id, none⟩ = .ok (resp, s')) :
    resp.assignedId = id ∧ (Action.memAlloc elem).Answers r s' resp := by
  obtain ⟨a, ha, h⟩ := bind_eq_ok.mp h
  obtain ⟨rfl, rfl⟩ := Prod.mk.inj (Except.ok.inj h)
  refine ⟨rfl, rfl, ?_⟩
  intro size hsize
  rw [(argument_eq_ok ha).2] at hsize
  rw [hsize, henv]
  obtain ⟨b, hb, hshape⟩ := shapeAt_calloc elem size s
  refine ⟨b, ?_, KeepsShapes.alloc _ _ b _ hshape⟩
  rw [← hb]
  exact points_store_alloc _ _ _ _

/-- A branch answers with a result of its kind. -/
theorem answers_of_run {lib : Library S} {env : Env} {r : MethodCallRequest} {s s' : State S} {id : String}
    {resp : ChannelResponse} {action : Action} (henv : env.callocs = true)
    (h : action.run lib env r s ⟨id, none⟩ = .ok (resp, s')) : resp.assignedId = id ∧ action.Answers r s' resp := by
  rcases action with handler | (_ | _) | (_ | _) | elem | _
  · exact answers_of_handler h
  · obtain ⟨pos, -, h⟩ := bind_eq_ok.mp h
    obtain ⟨value, -, h⟩ := bind_eq_ok.mp h
    obtain ⟨b, -, h⟩ := bind_eq_ok.mp h
    obtain ⟨data, -, h⟩ := bind_eq_ok.mp h
    obtain ⟨i, -, h⟩ := bind_eq_ok.mp h
    obtain ⟨rfl, -⟩ := Prod.mk.inj (Except.ok.inj h)
    exact ⟨rfl, rfl⟩
  · obtain ⟨pos, -, h⟩ := bind_eq_ok.mp h
    obtain ⟨argument, -, h⟩ := bind_eq_ok.mp h
    obtain ⟨value, -, h⟩ := bind_eq_ok.mp h
    obtain ⟨b, -, h⟩ := bind_eq_ok.mp h
    obtain ⟨data, -, h⟩ := bind_eq_ok.mp h
    obtain ⟨i, -, h⟩ := bind_eq_ok.mp h
    obtain ⟨rfl, -⟩ := Prod.mk.inj (Except.ok.inj h)
    exact ⟨rfl, rfl⟩
  · obtain ⟨pos, -, h⟩ := bind_eq_ok.mp h
    obtain ⟨b, -, h⟩ := bind_eq_ok.mp h
    obtain ⟨data, -, h⟩ := bind_eq_ok.mp h
    obtain ⟨i, -, h⟩ := bind_eq_ok.mp h
    obtain ⟨rfl, -⟩ := Prod.mk.inj (Except.ok.inj h)
    exact ⟨rfl, _, rfl⟩
  · obtain ⟨pos, -, h⟩ := bind_eq_ok.mp h
    obtain ⟨b, -, h⟩ := bind_eq_ok.mp h
    obtain ⟨data, -, h⟩ := bind_eq_ok.mp h
    obtain ⟨i, -, h⟩ := bind_eq_ok.mp h
    obtain ⟨rfl, rfl⟩ := Prod.mk.inj (Except.ok.inj h)
    exact ⟨rfl, rfl, _, points_store_alloc _ _ _ _⟩
  · exact answers_of_memAlloc henv h
  · obtain ⟨b, -, h⟩ := bind_eq_ok.mp h
    obtain ⟨data, -, h⟩ := bind_eq_ok.mp h
    obtain ⟨n, -, h⟩ := bind_eq_ok.mp h
    obtain ⟨rfl, -⟩ := Prod.mk.inj (Except.ok.inj h)
    exact ⟨rfl, _, rfl⟩

/-- A request that finds what it reads is answered, with a result of its kind, if its library function returns. -/
theorem exists_serve {lib : Library S} {env : Env} {r : MethodCallRequest} {s : State S} {action : Action}
    (hw : WellTyped s.heap) (henv : env.callocs = true) (hdispatch : dispatch r = some action) (hready : action.Ready r s)
    (hreturns : action.Returns lib r s) :
    ∃ resp s', serve lib env ⟨some r, ""⟩ s = .ok (resp, s') ∧ resp.assignedId = s.drawId.1 ∧ action.Answers r s' resp := by
  have hw' : WellTyped s.drawId.2.heap := hw
  have hready' : action.Ready r s.drawId.2 := (ready_congr rfl rfl action).mpr hready
  have hreturns' : action.Returns lib r s.drawId.2 := (returns_congr rfl rfl action).mpr hreturns
  obtain ⟨⟨resp, s'⟩, hrun⟩ : ∃ out, action.run lib env r s.drawId.2 ⟨s.drawId.1, none⟩ = .ok out :=
    (run_succeeds_iff hw').mpr ⟨hready', hreturns'⟩
  obtain ⟨hid, hanswers⟩ := answers_of_run henv hrun
  refine ⟨resp, s', ?_, hid, hanswers⟩
  show processRequest lib env r s.drawId.2 _ = _
  rw [processRequest, hdispatch]
  exact hrun

/-- A call that was answered has the id that was drawn and a result of the kind of its branch. -/
theorem answers_of_serve {lib : Library S} {env : Env} {r : MethodCallRequest} {s s' : State S} {resp : ChannelResponse}
    (henv : env.callocs = true) (h : serve lib env ⟨some r, ""⟩ s = .ok (resp, s')) :
    ∃ action, dispatch r = some action ∧ resp.assignedId = s.drawId.1 ∧ action.Answers r s' resp := by
  rcases serve_cases h with ⟨hnone, -⟩ | ⟨r', action, hr, hdispatch, hrun⟩
  · cases hnone
  · obtain rfl : r = r' := Option.some.inj hr
    exact ⟨action, hdispatch, answers_of_run henv hrun⟩

/-- The id of the response is assigned before the callbacks are made. -/
theorem assignId_prefix_of_serve {lib : Library S} {env : Env} {rq : Request} {s s' : State S} {resp : ChannelResponse}
    (h : serve lib env rq s = .ok (resp, s')) : (assignId rq s).2.drawn <+: s'.drawn := by
  rcases serve_cases h with ⟨-, -, rfl⟩ | ⟨r, action, -, -, hrun⟩
  · exact List.prefix_rfl
  · obtain ⟨s₁, s₂, h₁, h₂, h₃⟩ := run_table hrun
    have hprefix : (assignId rq s).2.drawn <+: s₂.drawn := by
      rw [← h₁.drawn, h₂.drawn]
      exact (Keeps.runCallbacks none _ s₁).drawn
    rcases h₃ with rfl | ⟨a, rfl⟩ <;> exact hprefix

/-- The id that is drawn for a request without one. -/
theorem drawId_prefix_of_serve {lib : Library S} {env : Env} {rq : Request} {s s' : State S} {resp : ChannelResponse}
    (hid : rq.assignedId = "") (h : serve lib env rq s = .ok (resp, s')) : s.drawId.2.drawn <+: s'.drawn := by
  rw [← assignId_eq_drawId hid]
  exact assignId_prefix_of_serve h

/-- Ids that were drawn stay. -/
theorem drawn_prefix_of_serve {lib : Library S} {env : Env} {rq : Request} {s s' : State S} {resp : ChannelResponse}
    (h : serve lib env rq s = .ok (resp, s')) : s.drawn <+: s'.drawn := by
  refine List.IsPrefix.trans ?_ (assignId_prefix_of_serve h)
  unfold assignId
  split
  · exact List.prefix_rfl
  · exact List.prefix_append _ _

/-- While an element is read the library does not run. -/
theorem serve_get {lib : Library S} {env : Env} {r : MethodCallRequest} {s : State S} {elem : Elem}
    (hdispatch : dispatch r = some (.get elem)) : serve lib env ⟨some r, ""⟩ s = serve lib {} ⟨some r, ""⟩ s := by
  unfold serve
  simp only [processRequest, hdispatch]
  cases elem <;> rfl

end LibraryLink.Cpp.Process
