import LibraryLink.LinkCache

/-!
# What the writer of `LinkCache.cfg` wrote, its reader does not read

`LogReader` writes the later call before the earlier one and no line breaks. So the file with no hit is read as it was meant; one
hit is read the other way round; and with more hits the names run together, and the constructor of `DynamicCacheManager` throws.
-/

namespace LibraryLink.Kotlin

variable {ρ N A : Type}

/-! ## What a manager allows -/

/-- A manager allows the pairs of its set. -/
theorem DynamicCacheManager.allows_iff (m : DynamicCacheManager A) (previous next : String) :
    m.Allows previous next ↔ (previous, next) ∈ m.allowedMethodCallSequences := by
  constructor
  · intro h
    by_contra hnot
    have hadd := h { methodName := previous } { methodName := next } rfl rfl
    simp [addToSequence, hnot] at hadd
  · intro hmem r r' hr hr'
    simp [addToSequence, hr, hr', hmem, maxSize]

/-- A manager made from a file starts with the request: it predicts nothing. -/
theorem DynamicCacheManager.startsWithRequest [DecidableEq A] :
    (DynamicCacheManager.cacheManager : CacheManager (DynamicCacheManager A) A).StartsWithRequest := by
  intro r m
  exact Or.inl rfl

/-! ## The text of the hits -/

/-- A method name: it has no spaces and no line breaks. -/
def Plain (name : String) : Prop := ∀ c ∈ name.toList, c ≠ ' ' ∧ c ≠ '\n' ∧ c ≠ '\r'

/-- What is written for the hits. -/
def hitText (hits : List (String × String)) : List Char :=
  hits.flatMap fun p => p.2.toList ++ ' ' :: p.1.toList

/-- The hits whose names are method names. -/
def PlainHits (hits : List (String × String)) : Prop := ∀ p ∈ hits, Plain p.1 ∧ Plain p.2

/-- What is written has no line breaks. -/
theorem PlainHits.no_breaks {hits : List (String × String)} (h : PlainHits hits) : ∀ c ∈ hitText hits, c ≠ '\n' ∧ c ≠ '\r' := by
  intro c hc
  obtain ⟨p, hp, hc⟩ := List.mem_flatMap.mp hc
  obtain ⟨hprevious, hnext⟩ := h p hp
  rcases List.mem_append.mp hc with hc | hc
  · exact (hnext c hc).2
  · rcases List.mem_cons.mp hc with rfl | hc
    · decide
    · exact (hprevious c hc).2

theorem normalizeBreaks_of_no_breaks {text : List Char} (h : ∀ c ∈ text, c ≠ '\n' ∧ c ≠ '\r') : normalizeBreaks text = text := by
  induction text with
  | nil => rfl
  | cons c text ih =>
    have hc := (h c List.mem_cons_self).2
    have hrest := ih fun d hd => h d (List.mem_cons_of_mem c hd)
    unfold normalizeBreaks
    split
    · rename_i heq
      exact absurd (List.cons.inj heq).1 hc
    · rename_i heq
      exact absurd (List.cons.inj heq).1 hc
    · rename_i heq
      obtain ⟨rfl, rfl⟩ := List.cons.inj heq
      rw [hrest]
    · rename_i heq
      cases heq

/-- A text without line breaks is one line, or none where it is empty. -/
theorem forEachLine_of_no_breaks (content : String) (h : ∀ c ∈ content.toList, c ≠ '\n' ∧ c ≠ '\r') :
    forEachLine content = if content.toList = [] then [] else [content] := by
  have hsplit : (content.toList).splitOn '\n' = [content.toList] := List.splitOn_eq_singleton fun hmem => (h _ hmem).1 rfl
  unfold forEachLine
  rw [normalizeBreaks_of_no_breaks h, hsplit]
  by_cases hempty : content.toList = []
  · simp [hempty]
  · simp [hempty]

/-- One hit is read the other way round. -/
theorem split_one {content : String} {previous next : String} (h : Plain previous ∧ Plain next)
    (htext : content.toList = hitText [(previous, next)]) : split content = [next, previous] := by
  have hnext : ' ' ∉ next.toList := fun hmem => (h.2 _ hmem).1 rfl
  have hprevious : ' ' ∉ previous.toList := fun hmem => (h.1 _ hmem).1 rfl
  have hlist : hitText [(previous, next)] = next.toList ++ ' ' :: previous.toList := by
    simp [hitText]
  unfold split
  rw [htext, hlist, List.splitOn_append_cons_self_of_not_mem hnext, List.splitOn_eq_singleton hprevious]
  simp

/-- Two hits or more are at least three pieces. -/
theorem readPair_more {content : String} {p q : String × String} {hits : List (String × String)} (h : PlainHits (p :: q :: hits))
    (htext : content.toList = hitText (p :: q :: hits)) : DynamicCacheManager.readPair content = none := by
  obtain ⟨hp, hq⟩ : (Plain p.1 ∧ Plain p.2) ∧ Plain q.1 ∧ Plain q.2 :=
    ⟨h p List.mem_cons_self, h q (List.mem_cons_of_mem p List.mem_cons_self)⟩
  have hfirst : ' ' ∉ p.2.toList := fun hmem => (hp.2 _ hmem).1 rfl
  have hsecond : ' ' ∉ p.1.toList ++ q.2.toList := by
    intro hmem
    rcases List.mem_append.mp hmem with hmem | hmem
    · exact (hp.1 _ hmem).1 rfl
    · exact (hq.2 _ hmem).1 rfl
  have hlist : hitText (p :: q :: hits) =
      p.2.toList ++ ' ' :: ((p.1.toList ++ q.2.toList) ++ ' ' :: (q.1.toList ++ hitText hits)) := by
    simp [hitText]
  have hrest := List.splitOn_ne_nil ' ' (q.1.toList ++ hitText hits)
  obtain ⟨piece, pieces, hpieces⟩ := List.exists_cons_of_ne_nil hrest
  have hsplit : split content =
      String.ofList p.2.toList :: String.ofList (p.1.toList ++ q.2.toList) :: String.ofList piece :: pieces.map String.ofList := by
    unfold split
    rw [htext, hlist, List.splitOn_append_cons_self_of_not_mem hfirst, List.splitOn_append_cons_self_of_not_mem hsecond, hpieces]
    rfl
  unfold DynamicCacheManager.readPair
  rw [hsplit]

/-- What the constructor makes of the text of some hits: nothing of none, the pair turned round of one, and an exception of
more. -/
def readBack : List (String × String) → Option (DynamicCacheManager A)
  | [] => some {}
  | [(previous, next)] => some { allowedMethodCallSequences := [(next, previous)] }
  | _ :: _ :: _ => none

theorem ofFile_hitText {content : String} {hits : List (String × String)} (h : PlainHits hits)
    (htext : content.toList = hitText hits) :
    (DynamicCacheManager.ofFile content : Option (DynamicCacheManager A)) = readBack hits := by
  have hlines := forEachLine_of_no_breaks content (by rw [htext]; exact h.no_breaks)
  unfold DynamicCacheManager.ofFile
  rw [hlines]
  rcases hits with _ | ⟨⟨previous, next⟩, _ | ⟨q, hits⟩⟩
  · have hempty : content.toList = [] := htext
    rw [if_pos hempty]
    rfl
  · have hne : content.toList ≠ [] := by
      rw [htext]
      simp [hitText]
    rw [if_neg hne]
    simp [DynamicCacheManager.readPair, split_one (h _ List.mem_cons_self) htext, readBack]
  · have hne : content.toList ≠ [] := by
      rw [htext]
      simp [hitText]
    rw [if_neg hne]
    simp [readPair_more h htext, readBack]

/-! ## Writer and reader agree -/

/-- The manager made from the file allows the pairs that `LogReader` reported a hit for, and no others. -/
def Agrees (A : Type) (s : LogReader.State ρ) : Prop :=
  ∃ m : DynamicCacheManager A, DynamicCacheManager.ofFile s.written = some m ∧
    ∀ previous next, m.Allows previous next ↔ (previous, next) ∈ s.hits

/-- Writer and reader agree where there is no hit, or one of two calls of the same method. -/
theorem agrees_iff_hits {s : LogReader.State ρ} (h : PlainHits s.hits) (htext : s.written.toList = hitText s.hits) :
    Agrees A s ↔ s.hits = [] ∨ ∃ name, s.hits = [(name, name)] := by
  unfold Agrees
  rw [ofFile_hitText h htext]
  rcases s.hits with _ | ⟨⟨previous, next⟩, _ | ⟨q, hits⟩⟩
  · simp [readBack, DynamicCacheManager.allows_iff]
  · simp only [readBack, Option.some.injEq, exists_eq_left', DynamicCacheManager.allows_iff, List.mem_singleton, Prod.mk.injEq,
      List.cons_ne_nil, false_or, List.cons.injEq, and_true]
    constructor
    · intro hsame
      exact ((hsame previous next).mpr ⟨rfl, rfl⟩).1.symm
    · rintro rfl a b
      exact Iff.rfl
  · simp [readBack]

/-! ## Which hits there are -/

namespace LogReader

variable [DecidableEq N] {library : Library ρ N} {readValue : String → Option String}

/-- The calls of the log that are among the library's call edges, in order. -/
def knownCalls (library : Library ρ N) (readValue : String → Option String) (log : List String) : List (ρ × String) :=
  (log.filter fun line => !isDelete line).filterMap fun line =>
    (readValue line).bind fun name => (findEdge library name).map (·, name)

/-- An edge and the edge linked to it. -/
def ends (library : Library ρ N) (edge : ρ) : List ρ := edge :: (library.edge edge).linkedEdge.toList

/-- The edges among some that end where a call of a method starts: the method of each, which may not be known, with that of the
call. -/
def meeting (library : Library ρ N) (name : String) (src : N) (previous : List ρ) : List (Option (String × String)) :=
  (previous.filter fun p => (library.edge p).dst = src).map fun p => (realMethod library p).map (·, name)

/-- Where a call begins at the end of the call before it, or of the edge linked to that. The calls are given with their methods,
and the edges that were left before the first. -/
def meetings (library : Library ρ N) : List ρ → List (ρ × String) → List (Option (String × String))
  | _, [] => []
  | previous, (edge, name) :: calls =>
    meeting library name (library.edge edge).src previous ++ meetings library (ends library edge) calls

/-- The elements before the first that is not known. -/
def beforeNone {α : Type} : List (Option α) → List α
  | some a :: l => a :: beforeNone l
  | _ => []

theorem beforeNone_append_of_mem {α : Type} {l : List (Option α)} (m : List (Option α)) (h : none ∈ l) :
    beforeNone (l ++ m) = beforeNone l := by
  induction l with
  | nil => cases h
  | cons o l ih =>
    cases o with
    | none => rfl
    | some a =>
      have hmem : none ∈ l := by simpa using h
      rw [List.cons_append, beforeNone, beforeNone, ih hmem]

theorem beforeNone_append_of_not_mem {α : Type} {l : List (Option α)} (m : List (Option α)) (h : none ∉ l) :
    beforeNone (l ++ m) = beforeNone l ++ beforeNone m := by
  induction l with
  | nil => rfl
  | cons o l ih =>
    cases o with
    | none => exact absurd List.mem_cons_self h
    | some a =>
      have hmem : none ∉ l := fun hmem => h (List.mem_cons_of_mem _ hmem)
      rw [List.cons_append, beforeNone, beforeNone, ih hmem, List.cons_append]

/-- From one state to the other some meetings were gone through, up to the first that is not known. -/
structure After (l : List (Option (String × String))) (s s' : State ρ) : Prop where
  hits : s'.hits = s.hits ++ beforeNone l
  failed : s'.failed = true ↔ none ∈ l
  written : s'.written.toList = s.written.toList ++ hitText (beforeNone l)

theorem After.refl {s : State ρ} (h : s.failed = false) : After [] s s :=
  ⟨(List.append_nil _).symm, by simp [h], (List.append_nil _).symm⟩

theorem After.trans {l m : List (Option (String × String))} {s s' s'' : State ρ} (h : After l s s') (hs : s'.failed = false)
    (h' : After m s' s'') : After (l ++ m) s s'' := by
  have hnone : none ∉ l := fun hmem => by simp [h.failed.mpr hmem] at hs
  refine ⟨?_, ?_, ?_⟩
  · rw [beforeNone_append_of_not_mem m hnone, h'.hits, h.hits, List.append_assoc]
  · rw [h'.failed, List.mem_append, or_iff_right hnone]
  · rw [beforeNone_append_of_not_mem m hnone, h'.written, h.written, List.append_assoc, hitText, hitText, hitText,
      List.flatMap_append]

theorem After.append {l : List (Option (String × String))} {s s' : State ρ} (h : After l s s') (hs : s'.failed = true)
    (m : List (Option (String × String))) : After (l ++ m) s s' := by
  have hnone : none ∈ l := h.failed.mp hs
  have hmem : none ∈ l ++ m := List.mem_append_left m hnone
  refine ⟨?_, ?_, ?_⟩
  · rw [beforeNone_append_of_mem m hnone, h.hits]
  · rw [hs]
    exact ⟨fun _ => hmem, fun _ => rfl⟩
  · rw [beforeNone_append_of_mem m hnone, h.written]

/-- The body of the loop over `previousEdges` goes through what meets at one edge. -/
theorem after_compare (library : Library ρ N) (name : String) (src : N) (previousEdge : ρ) {s : State ρ} (hs : s.failed = false) :
    After (meeting library name src [previousEdge]) s (compare library name src s previousEdge) := by
  unfold compare meeting
  rw [hs]
  by_cases hdst : (library.edge previousEdge).dst = src
  · cases hreal : realMethod library previousEdge with
    | none => exact ⟨by simp [hdst, hreal, beforeNone], by simp [hdst, hreal], by simp [hdst, hreal, beforeNone, hitText]⟩
    | some realName =>
      exact ⟨by simp [hdst, hreal, beforeNone], by simp [hdst, hreal], by simp [hdst, hreal, beforeNone, hitText]⟩
  · simpa [hdst] using After.refl hs

/-- After an exception nothing happens. -/
theorem foldl_compare_of_failed (name : String) (src : N) (previous : List ρ) {s : State ρ} (hs : s.failed = true) :
    previous.foldl (compare library name src) s = s := by
  induction previous with
  | nil => rfl
  | cons p previous ih =>
    have hp : compare library name src s p = s := by
      unfold compare
      rw [if_pos hs]
    rw [List.foldl_cons, hp, ih]

/-- The loop over `previousEdges` goes through what meets there. -/
theorem after_foldl_compare (library : Library ρ N) (name : String) (src : N) (previous : List ρ) {s : State ρ}
    (hs : s.failed = false) :
    After (meeting library name src previous) s (previous.foldl (compare library name src) s) := by
  induction previous generalizing s with
  | nil => exact After.refl hs
  | cons p previous ih =>
    have hmeeting : meeting library name src (p :: previous) =
        meeting library name src [p] ++ meeting library name src previous := by
      unfold meeting
      rw [← List.map_append, ← List.filter_append]
      rfl
    have hp := after_compare library name src p hs
    rw [List.foldl_cons, hmeeting]
    cases hfailed : (compare library name src s p).failed with
    | false => exact hp.trans hfailed (ih hfailed)
    | true =>
      rw [foldl_compare_of_failed name src previous hfailed]
      exact hp.append hfailed _

/-- After an exception no line is read. -/
theorem foldl_readLine_of_failed (log : List String) {s : State ρ} (hs : s.failed = true) :
    log.foldl (readLine library readValue) s = s := by
  induction log with
  | nil => rfl
  | cons line log ih =>
    have hline : readLine library readValue s line = s := by
      unfold readLine
      rw [if_pos hs]
    rw [List.foldl_cons, hline, ih]

/-- The loop over the lines of method calls and deletions goes through the meetings of the known calls. -/
theorem after_foldl_readLine (library : Library ρ N) (log : List String) (s : State ρ) (hs : s.failed = false)
    (hread : ∀ line ∈ log, isDelete line = true ∨ ∃ name, readValue line = some name) :
    After (meetings library s.previousEdges (knownCalls library readValue log)) s
      (log.foldl (readLine library readValue) s) := by
  induction log generalizing s with
  | nil => exact After.refl hs
  | cons line log ih =>
    obtain ⟨hline, hlog⟩ := List.forall_mem_cons.mp hread
    rw [List.foldl_cons]
    by_cases hdelete : isDelete line = true
    · have hsame : readLine library readValue s line = s := by
        simp [readLine, hs, hdelete]
      have hknown : knownCalls library readValue (line :: log) = knownCalls library readValue log := by
        simp [knownCalls, hdelete]
      rw [hsame, hknown]
      exact ih s hs hlog
    · obtain ⟨name, hname⟩ := hline.resolve_left hdelete
      cases hfind : findEdge library name with
      | none =>
        have hsame : readLine library readValue s line = s := by
          simp [readLine, hs, hdelete, hname, hfind]
        have hknown : knownCalls library readValue (line :: log) = knownCalls library readValue log := by
          simp [knownCalls, hdelete, hname, hfind]
        rw [hsame, hknown]
        exact ih s hs hlog
      | some edge =>
        have hknown : knownCalls library readValue (line :: log) = (edge, name) :: knownCalls library readValue log := by
          simp [knownCalls, hdelete, hname, hfind]
        have hloop := after_foldl_compare library name (library.edge edge).src s.previousEdges hs
        have hstep : readLine library readValue s line =
            if (s.previousEdges.foldl (compare library name (library.edge edge).src) s).failed then
              s.previousEdges.foldl (compare library name (library.edge edge).src) s
            else { s.previousEdges.foldl (compare library name (library.edge edge).src) s with
              previousEdges := ends library edge } := by
          simp [readLine, hs, hdelete, hname, hfind, ends]
        rw [hknown, hstep, meetings]
        generalize s.previousEdges.foldl (compare library name (library.edge edge).src) s = s₁ at hloop
        by_cases hfailed : s₁.failed = true
        · rw [if_pos hfailed, foldl_readLine_of_failed log hfailed]
          exact hloop.append hfailed _
        · rw [if_neg hfailed]
          have hfailed' : s₁.failed = false := Bool.eq_false_iff.mpr hfailed
          have hnext := ih { s₁ with previousEdges := ends library edge } hfailed' hlog
          exact hloop.trans hfailed' ⟨hnext.hits, hnext.failed, hnext.written⟩

/-- In a sequence of calls no call begins where the one before it, or the edge linked to that, ends; or this happens once, and the
two calls are of one method. Only what comes before an edge of unknown method counts. -/
def MeetsOnceAtMost (library : Library ρ N) (calls : List (ρ × String)) : Prop :=
  beforeNone (meetings library [] calls) = [] ∨ ∃ name, beforeNone (meetings library [] calls) = [(name, name)]

theorem mem_of_mem_beforeNone {α : Type} {l : List (Option α)} {a : α} (h : a ∈ beforeNone l) : some a ∈ l := by
  induction l with
  | nil => cases h
  | cons o l ih =>
    cases o with
    | none => cases h
    | some b =>
      rcases List.mem_cons.mp h with rfl | h
      · exact List.mem_cons_self
      · exact List.mem_cons_of_mem _ (ih h)

omit [DecidableEq N] in
/-- A method that is known is the method of some edge. -/
theorem realMethod_eq_some {p : ρ} {name : String} (h : realMethod library p = some name) :
    ∃ e, (library.edge e).methodName = some name := by
  unfold realMethod at h
  split at h
  · rename_i heq
    exact ⟨p, by rw [heq]; exact h⟩
  · rename_i edge _
    exact ⟨edge, h⟩
  · cases h

omit [DecidableEq N] in
/-- The method of a known call is the method of its edge. -/
theorem methodName_of_mem_knownCalls {log : List String} {c : ρ × String} (h : c ∈ knownCalls library readValue log) :
    (library.edge c.1).methodName = some c.2 := by
  obtain ⟨line, -, hline⟩ := List.mem_filterMap.mp h
  obtain ⟨name, -, hname⟩ := Option.bind_eq_some_iff.mp hline
  obtain ⟨edge, hedge, rfl⟩ := Option.map_eq_some_iff.mp hname
  simpa using List.find?_some hedge

/-- The names of what meets are names of edges. -/
theorem plain_meetings (hplain : ∀ e name, (library.edge e).methodName = some name → Plain name) (previous : List ρ)
    {calls : List (ρ × String)} (hcalls : ∀ c ∈ calls, (library.edge c.1).methodName = some c.2) {p : String × String}
    (hp : some p ∈ meetings library previous calls) : Plain p.1 ∧ Plain p.2 := by
  induction calls generalizing previous with
  | nil => cases hp
  | cons c calls ih =>
    obtain ⟨hc, hcalls⟩ := List.forall_mem_cons.mp hcalls
    rcases List.mem_append.mp hp with hp | hp
    · obtain ⟨e, -, he⟩ := List.mem_map.mp hp
      obtain ⟨real, hreal, rfl⟩ := Option.map_eq_some_iff.mp he
      obtain ⟨e', he'⟩ := realMethod_eq_some hreal
      exact ⟨hplain e' real he', hplain c.1 c.2 hc⟩
    · exact ih _ hcalls hp

/-- For every library whose method names have no spaces and no line breaks, and every log of method calls and deletions: the
manager made from the file allows exactly the pairs that were reported as hits if and only if the known calls of the log meet once
at most, and then two calls of one method. -/
theorem agrees_iff (A : Type) (library : Library ρ N) (readValue : String → Option String) (log : List String)
    (hplain : ∀ e name, (library.edge e).methodName = some name → Plain name)
    (hread : ∀ line ∈ log, isDelete line = true ∨ ∃ name, readValue line = some name) :
    Agrees A (main library readValue log) ↔ MeetsOnceAtMost library (knownCalls library readValue log) := by
  have hafter := after_foldl_readLine library log {} rfl hread
  have hhits : (main library readValue log).hits = beforeNone (meetings library [] (knownCalls library readValue log)) := hafter.hits
  have htext : (main library readValue log).written.toList = hitText (main library readValue log).hits := by
    rw [hhits]
    exact hafter.written
  have hnames : PlainHits (main library readValue log).hits := by
    intro p hp
    rw [hhits] at hp
    exact plain_meetings hplain [] (fun c hc => methodName_of_mem_knownCalls hc) (mem_of_mem_beforeNone hp)
  rw [agrees_iff_hits hnames htext, hhits]
  rfl

/-- The edges `open`, `read` and `close` of a file, one after the other. -/
def fileEdges : Library (Fin 3) Nat where
  edge
    | 0 => .call "open" 0 1 none
    | 1 => .call "read" 1 2 none
    | 2 => .call "close" 2 3 none
  edges := [0, 1, 2]

/-- What is read from a line that is a method name. -/
def readName (line : String) : Option String := some line

theorem plain_fileEdges : ∀ e name, (fileEdges.edge e).methodName = some name → Plain name := by
  intro e name h
  have hall : ∀ e, ((fileEdges.edge e).methodName.all fun name => name.toList.all fun c => c != ' ' && c != '\n' && c != '\r') := by
    decide
  intro c hc
  have hname := hall e
  rw [h, Option.all_some, List.all_eq_true] at hname
  simpa [and_assoc] using hname c hc

/-- The rule at a log with a deletion and two calls that do not meet. -/
theorem agrees_iff_fileEdges : Agrees Unit (main fileEdges readName ["open", "\x7b\"delete\":\"var1\"\x7d", "close"]) :=
  (agrees_iff Unit fileEdges readName _ plain_fileEdges fun line _ => Or.inr ⟨line, rfl⟩).mpr (Or.inl (by decide))

/-- One hit of two methods: the manager allows the pair the other way round. Two hits: the constructor throws. -/
theorem not_agrees :
    ¬Agrees Unit (main fileEdges readName ["open", "read"]) ∧
      (main fileEdges readName ["open", "read"]).hits = [("open", "read")] ∧
      DynamicCacheManager.ofFile (main fileEdges readName ["open", "read"]).written =
        some ({ allowedMethodCallSequences := [("read", "open")] } : DynamicCacheManager Unit) ∧
      DynamicCacheManager.ofFile (main fileEdges readName ["open", "read", "close"]).written =
        (none : Option (DynamicCacheManager Unit)) := by
  have hfile : DynamicCacheManager.ofFile (main fileEdges readName ["open", "read"]).written =
      some ({ allowedMethodCallSequences := [("read", "open")] } : DynamicCacheManager Unit) := rfl
  have hhits : (main fileEdges readName ["open", "read"]).hits = [("open", "read")] := by decide
  refine ⟨?_, hhits, hfile, rfl⟩
  rintro ⟨m, hm, hall⟩
  rw [hfile] at hm
  have hallowed : m.Allows "open" "read" := (hall "open" "read").mpr (by rw [hhits]; exact List.mem_cons_self)
  rw [DynamicCacheManager.allows_iff, ← Option.some.inj hm] at hallowed
  exact absurd hallowed (by decide)

end LogReader

end LibraryLink.Kotlin
