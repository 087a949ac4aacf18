import LibraryLink.Lemmas.Renaming

/-!
# No client can observe the order in which others are served

Clients whose requests use ids of their own objects only get the same responses in whatever order the requests of different
clients are served, up to one renaming of the ids. This holds as long as the counter of the ids does not wrap: after 2^64 requests
an id is given to a second object, of whichever client comes then.
-/

namespace LibraryLink.Cpp.Process

variable {S C : Type}

/-- The ids that a request uses were assigned to earlier requests of its client. -/
def Own (c : C) (r : MethodCallRequest) (out : List (C × ChannelResponse)) : Prop :=
  ∀ action, dispatch r = some action → ∀ key ∈ action.keys r, ∃ resp, (c, resp) ∈ out ∧ resp.assignedId = key

/-- A schedule, served from a state on after some responses: each request has a handler that finds what it reads (arguments,
variables of the types that it takes them for, positions in range, a zero where a length is asked for), and uses ids of earlier
requests of its client only. -/
inductive Proper (lib : Library S) : State S → List (C × ChannelResponse) → List (C × MethodCallRequest) → Prop
  | nil (s : State S) (out : List (C × ChannelResponse)) : Proper lib s out []
  | cons (s s' : State S) (out : List (C × ChannelResponse)) (c : C) (r : MethodCallRequest) (resp : ChannelResponse)
      (schedule : List (C × MethodCallRequest)) : Served r s → Own c r out → serve lib {} (plain r) s = .ok (resp, s') →
      Proper lib s' (out ++ [(c, resp)]) schedule → Proper lib s out ((c, r) :: schedule)

variable [DecidableEq C]

/-- Both schedules are served, the second one with the ids renamed, and each client gets the same responses, renamed. -/
def SameUpTo (lib : Library S) (ρ : Equiv.Perm String) (schedule₁ schedule₂ : List (C × MethodCallRequest)) : Prop :=
  ∃ out₁ s₁ out₂ s₂, serveAll lib schedule₁ {} = .ok (out₁, s₁) ∧ serveAll lib (renameAll ρ schedule₂) {} = .ok (out₂, s₂) ∧
    ∀ c, (ofClient c out₁).map (ChannelResponse.rename ρ) = ofClient c out₂

/-- A proper schedule is served, and uses ids of requests of its clients. -/
theorem Proper.serves {lib : Library S} {order served : List C} {s : State S} {out : List (C × ChannelResponse)}
    {schedule : List (C × MethodCallRequest)} {f : C → Addr → Addr} {t : C → State S} (h : Proper lib s out schedule)
    (htogether : Together order served s f t) (horder : order = served ++ schedule.map Prod.fst) (hlen : order.length ≤ 2 ^ 64)
    (hout : ∀ c resp, (c, resp) ∈ out → ∃ k, Named order c resp.assignedId k) :
    (∃ out' s', serveAll lib schedule s = .ok (out', s')) ∧ ∀ c, ∀ r ∈ ofClient c schedule, KeysNamed order c r := by
  induction h generalizing served f t with
  | nil s out => exact ⟨⟨[], s, rfl⟩, fun _ => nofun⟩
  | cons s s' out c r resp schedule hserved hown hserve hproper ih =>
    have hkeys : KeysNamed order c r := by
      intro action hdispatch key hkey
      obtain ⟨resp', hmem, rfl⟩ := hown action hdispatch key hkey
      exact hout c resp' hmem
    obtain ⟨g, hg⟩ := exists_alone order c
    obtain ⟨x₀, -, ⟨-, k, hnamed, -⟩, f', htogether'⟩ := (htogether.step (horder.trans rfl) hlen (hg r hkeys) lib).exists_right hserve
    obtain ⟨⟨out', s'', hrest⟩, hall⟩ := ih htogether' (by simp [horder]) fun d resp' hmem => by
      rcases List.mem_append.mp hmem with hmem | hmem
      · exact hout d resp' hmem
      · obtain ⟨rfl, rfl⟩ := Prod.mk.inj (List.mem_singleton.mp hmem)
        exact ⟨k, hnamed⟩
    refine ⟨⟨_, _, serveAll_cons_eq_ok.mpr ⟨_, out', hserve, hrest, rfl⟩⟩, fun d r' hr' => ?_⟩
    by_cases hd : c = d
    · subst hd
      rw [ofClient_cons_self] at hr'
      rcases List.mem_cons.mp hr' with rfl | hr'
      · exact hkeys
      · exact hall c r' hr'
    · rw [ofClient_cons_ne hd] at hr'
      exact hall d r' hr'

/-- For any two schedules of the same requests of each client, the first of which is proper and has at most 2^64 requests: there
is one renaming of the ids with which each client gets the same responses. -/
theorem same_upTo_renaming (lib : Library S) {schedule₁ schedule₂ : List (C × MethodCallRequest)}
    (hproper : Proper lib {} [] schedule₁) (hsame : ∀ c, ofClient c schedule₁ = ofClient c schedule₂)
    (hlen : schedule₁.length ≤ 2 ^ 64) : ∃ ρ : Equiv.Perm String, SameUpTo lib ρ schedule₁ schedule₂ := by
  have hcount : ∀ c, (schedule₁.map Prod.fst).count c = (schedule₂.map Prod.fst).count c := by
    intro c
    rw [count_map_fst, count_map_fst, hsame]
  have hlen₁ : (schedule₁.map Prod.fst).length ≤ 2 ^ 64 := by
    rw [List.length_map]
    exact hlen
  have hlen₂ : (schedule₂.map Prod.fst).length ≤ 2 ^ 64 := by
    rw [← (List.perm_iff_count.mpr hcount).length_eq]
    exact hlen₁
  obtain ⟨ρ, hρ⟩ := exists_renaming hcount
  obtain ⟨⟨out₁, s₁, hok₁⟩, hkeys⟩ := hproper.serves (Together.start _) rfl hlen₁ fun _ _ => nofun
  -- What each client would send, and get, if it were alone.
  choose alone halone using exists_alone (schedule₁.map Prod.fst)
  have hplays₁ : PlaysAll (schedule₁.map Prod.fst) schedule₁ fun c => (ofClient c schedule₁).map (MethodCallRequest.rename (alone c)) := by
    intro c
    rw [List.forall₂_map_right_iff, List.forall₂_same]
    exact fun r hr => halone c r (hkeys c r hr)
  have hplays₂ := hplays₁.rename hsame hρ
  have hruns := (Together.start _).run rfl hlen₁ hplays₁ hok₁
  obtain ⟨out₂, s₂, hok₂⟩ := (Together.start (schedule₂.map Prod.fst)).exists_run (map_fst_renameAll ρ schedule₂).symm hlen₂ hplays₂
    fun c => by
      obtain ⟨out₀, t', hok₀, -⟩ := hruns c
      exact ⟨out₀, t', hok₀⟩
  refine ⟨ρ, out₁, s₁, out₂, s₂, hok₁, hok₂, fun c => ?_⟩
  obtain ⟨out₀, t', hok₀, hanswers₁⟩ := hruns c
  obtain ⟨out₀', t'', hok₀', hanswers₂⟩ :=
    (Together.start (schedule₂.map Prod.fst)).run (map_fst_renameAll ρ schedule₂).symm hlen₂ hplays₂ hok₂ c
  obtain ⟨rfl, -⟩ := Prod.mk.inj (Except.ok.inj (hok₀.symm.trans hok₀'))
  exact rename_responses hρ hanswers₁ hanswers₂

/-- A request for an array of some characters; its object's id is of no use. -/
def allocRequest (id : String) (size : Int) : MethodCallRequest := ⟨"mem_alloc<char>", id, "Char[]", [⟨.inplace, .int size⟩]⟩

omit [DecidableEq C] in
/-- A request for an array uses no ids. -/
theorem own_allocRequest (c : C) (id : String) (size : Int) (out : List (C × ChannelResponse)) : Own c (allocRequest id size) out := by
  intro action hdispatch
  obtain rfl : action = .memAlloc .char := (Option.some.inj hdispatch).symm
  exact nofun

/-- A library whose functions do nothing. -/
def idle : Library Unit := fun _ _ states => some ⟨states, 0, .null⟩

/-- A request for the length of the array `0`. -/
def strlenRequest : MethodCallRequest := ⟨"strlen", "0", "", []⟩

/-- Two clients get an array each, and the first one asks for the length of its array. -/
theorem proper_arrays :
    Proper idle {} [] [(false, allocRequest "" 1), (true, allocRequest "" 1), (false, strlenRequest)] := by
  refine .cons _ _ _ _ _ _ _ ⟨.memAlloc .char, rfl, Nat.zero_lt_one⟩ (own_allocRequest _ _ _ _) rfl ?_
  refine .cons _ _ _ _ _ _ _ ⟨.memAlloc .char, rfl, Nat.zero_lt_one⟩ (own_allocRequest _ _ _ _) rfl ?_
  refine .cons _ _ _ _ _ _ _ ⟨.strlen, rfl, [0], ⟨0, ⟨1, rfl, rfl⟩, rfl⟩, List.mem_cons_self⟩ ?_ rfl (.nil _ _)
  intro action hdispatch
  obtain rfl : action = .strlen := (Option.some.inj hdispatch).symm
  exact List.forall_mem_singleton.mpr ⟨_, List.mem_cons_self, rfl⟩

/-- The rule where the second client comes first. -/
theorem same_upTo_renaming_arrays :
    ∃ ρ : Equiv.Perm String, SameUpTo idle ρ [(false, allocRequest "" 1), (true, allocRequest "" 1), (false, strlenRequest)]
      [(true, allocRequest "" 1), (false, allocRequest "" 1), (false, strlenRequest)] :=
  same_upTo_renaming idle proper_arrays (by decide) (by decide)

/-! ## The bound -/

/-- A response to a client has the number of its request in the schedule for an id, up to the wrapping of the counter. -/
theorem assignedId_of_serveAll {lib : Library S} (before : List (C × MethodCallRequest)) {c : C} {r : MethodCallRequest}
    {after : List (C × MethodCallRequest)} {s s' : State S} {out : List (C × ChannelResponse)}
    (h : serveAll lib (before ++ (c, r) :: after) s = .ok (out, s')) :
    ((ofClient c out)[(before.map Prod.fst).count c]?).map ChannelResponse.assignedId =
      some (toString (s.assignedIdCounter + UInt64.ofNat before.length).toNat) := by
  induction before generalizing s out with
  | nil =>
    obtain ⟨x, out', hserve, -, rfl⟩ := serveAll_cons_eq_ok.mp h
    rw [ofClient_cons_self]
    show some x.1.assignedId = some (toString (s.assignedIdCounter + 0).toNat)
    rw [assignedId_of_serve rfl hserve, UInt64.add_zero]
    rfl
  | cons first before ih =>
    obtain ⟨d, rd⟩ := first
    obtain ⟨x, out', hserve, hrest, rfl⟩ := serveAll_cons_eq_ok.mp h
    have hplace : x.2.assignedIdCounter + UInt64.ofNat before.length = s.assignedIdCounter + UInt64.ofNat (before.length + 1) := by
      rw [(drawn_of_serve rfl hserve).2, UInt64.ofNat_add, UInt64.add_comm (UInt64.ofNat before.length), ← UInt64.add_assoc]
      rfl
    rw [List.length_cons, ← hplace, List.map_cons]
    by_cases hd : d = c
    · subst hd
      rw [ofClient_cons_self, List.count_cons_self, List.getElem?_cons_succ, ih hrest]
    · rw [ofClient_cons_ne hd, List.count_cons_of_ne hd, ih hrest]

/-- A renaming takes the id of a client's response to the id of the response to the same request in the other schedule. -/
theorem renamed_id {lib : Library S} {ρ : Equiv.Perm String} (before₁ before₂ : List (C × MethodCallRequest))
    {after₁ after₂ : List (C × MethodCallRequest)} {c : C} {r₁ r₂ : MethodCallRequest}
    (h : SameUpTo lib ρ (before₁ ++ (c, r₁) :: after₁) (before₂ ++ (c, r₂) :: after₂))
    (hcount : (before₁.map Prod.fst).count c = (before₂.map Prod.fst).count c) :
    ρ (toString (UInt64.ofNat before₁.length).toNat) = toString (UInt64.ofNat before₂.length).toNat := by
  obtain ⟨out₁, s₁, out₂, s₂, hok₁, hok₂, hsame⟩ := h
  have hrenamed : renameAll ρ (before₂ ++ (c, r₂) :: after₂) = renameAll ρ before₂ ++ (c, r₂.rename ρ) :: renameAll ρ after₂ := by
    simp [renameAll]
  rw [hrenamed] at hok₂
  have h₁ := assignedId_of_serveAll before₁ hok₁
  have h₂ := assignedId_of_serveAll (renameAll ρ before₂) hok₂
  have hlength : (renameAll ρ before₂).length = before₂.length := List.length_map _
  rw [map_fst_renameAll, ← hcount, ← hsame c, List.getElem?_map, Option.map_map, hlength, UInt64.zero_add] at h₂
  rw [UInt64.zero_add] at h₁
  obtain ⟨resp, hresp, hid⟩ := Option.map_eq_some_iff.mp h₁
  rw [hresp] at h₂
  have hrename : ρ resp.assignedId = toString (UInt64.ofNat before₂.length).toNat := Option.some.inj h₂
  rw [← hid]
  exact hrename

/-- The first client can ask for the length of its array, `0`, which holds a zero. -/
structure Asks (s : State Unit) (out : List (Bool × ChannelResponse)) : Prop where
  array : s.CharArray "0" [0]
  own : ∃ resp, (false, resp) ∈ out ∧ resp.assignedId = "0"

/-- It asks, and can ask again: nothing is allocated and no entry is changed. -/
theorem Asks.cons {s : State Unit} {out : List (Bool × ChannelResponse)} (h : Asks s out) {schedule : List (Bool × MethodCallRequest)}
    (hrest : ∀ s' out', Asks s' out' → Proper idle s' out' schedule) : Proper idle s out ((false, strlenRequest) :: schedule) := by
  have hserved : Served strlenRequest s := ⟨.strlen, rfl, [0], h.array, List.mem_cons_self⟩
  have hown : Own false strlenRequest out := by
    intro action hdispatch
    obtain rfl : action = .strlen := (Option.some.inj hdispatch).symm
    exact List.forall_mem_singleton.mpr h.own
  have harray : s.drawId.2.CharArray "0" [0] := h.array
  obtain ⟨⟨resp, s'⟩, hrun⟩ : ∃ out, librarylinkStrlen strlenRequest s.drawId.2 { assignedId := s.drawId.1 } = .ok out :=
    strlen_succeeds_iff.mpr ⟨[0], harray, List.mem_cons_self⟩
  have hserve : serve idle {} (plain strlenRequest) s = .ok (resp, s') := hrun
  obtain ⟨hheap, htable⟩ := strlen_eq_ok hrun
  obtain ⟨b, ⟨a, ha, hcell⟩, hdata⟩ := harray
  obtain ⟨first, hmem, hid⟩ := h.own
  refine .cons s s' out false strlenRequest resp schedule hserved hown hserve (hrest s' _ ⟨?_, ?_⟩)
  · exact ⟨b, ⟨a, (htable.entry "0").trans ha, hheap ▸ hcell⟩, hheap ▸ hdata⟩
  · exact ⟨first, List.mem_append_left _ hmem, hid⟩

/-- It asks any number of times. -/
theorem Asks.replicate {s : State Unit} {out : List (Bool × ChannelResponse)} (n : Nat) (h : Asks s out)
    {schedule : List (Bool × MethodCallRequest)} (hrest : ∀ s' out', Asks s' out' → Proper idle s' out' schedule) :
    Proper idle s out (List.replicate n (false, strlenRequest) ++ schedule) := by
  induction n generalizing s out with
  | zero => exact hrest s out h
  | succ n ih => exact h.cons fun s' out' h' => ih h'

/-- With one request more no renaming will do: the first client gets an array and asks for its length 2^64 - 1 times. If the second
client gets its array in between, the last response to the first client has the id of its first once more, otherwise it has not. -/
theorem not_same_upTo_renaming :
    ∃ schedule₁ schedule₂ : List (Bool × MethodCallRequest), schedule₁.length = 2 ^ 64 + 1 ∧
      Proper idle {} [] schedule₁ ∧ Proper idle {} [] schedule₂ ∧ (∀ c, ofClient c schedule₁ = ofClient c schedule₂) ∧
      ∀ ρ : Equiv.Perm String, ¬SameUpTo idle ρ schedule₁ schedule₂ := by
  obtain ⟨n, hn⟩ : ∃ n, n + 2 = 2 ^ 64 := ⟨2 ^ 64 - 2, by norm_num⟩
  let lengths : List (Bool × MethodCallRequest) := List.replicate n (false, strlenRequest)
  refine ⟨(false, allocRequest "" 1) :: (true, allocRequest "" 1) :: lengths ++ [(false, strlenRequest)],
    (false, allocRequest "" 1) :: lengths ++ [(false, strlenRequest), (true, allocRequest "" 1)], ?_, ?_, ?_, ?_, ?_⟩
  · simp [lengths, ← hn]
  · refine .cons _ _ _ _ _ _ _ ⟨.memAlloc .char, rfl, Nat.zero_lt_one⟩ (own_allocRequest _ _ _ _) rfl ?_
    refine .cons _ _ _ _ _ _ _ ⟨.memAlloc .char, rfl, Nat.zero_lt_one⟩ (own_allocRequest _ _ _ _) rfl ?_
    refine Asks.replicate n ⟨⟨0, ⟨1, rfl, rfl⟩, rfl⟩, _, List.mem_cons_self, rfl⟩ fun s out h => ?_
    exact h.cons fun s' out' _ => .nil s' out'
  · refine .cons _ _ _ _ _ _ _ ⟨.memAlloc .char, rfl, Nat.zero_lt_one⟩ (own_allocRequest _ _ _ _) rfl ?_
    refine Asks.replicate n ⟨⟨0, ⟨1, rfl, rfl⟩, rfl⟩, _, List.mem_cons_self, rfl⟩ fun s out h => ?_
    refine h.cons fun s' out' _ => ?_
    exact .cons s' _ out' _ _ _ _ ⟨.memAlloc .char, rfl, Nat.zero_lt_one⟩ (own_allocRequest _ _ _ _) rfl (.nil _ _)
  · intro c
    cases c
    · simp [ofClient, lengths]
    · simp [ofClient, lengths]
  · intro ρ h
    have hfirst : ρ "0" = "0" := renamed_id [] [] h rfl
    have hlast := renamed_id ((false, allocRequest "" 1) :: (true, allocRequest "" 1) :: lengths)
      ((false, allocRequest "" 1) :: lengths) h (by simp)
    simp only [lengths, List.length_cons, List.length_replicate, hn] at hlast
    have hround : ρ "0" = toString (UInt64.ofNat (n + 1)).toNat := hlast
    obtain rfl : n = 2 ^ 64 - 2 := by omega
    rw [hfirst] at hround
    exact absurd hround (by decide)

end LibraryLink.Cpp.Process
