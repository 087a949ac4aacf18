import LibraryLink.General.Runs
import Mathlib.Algebra.BigOperators.Group.List.Basic
import Mathlib.Algebra.Order.Ring.Nat
import Mathlib.Data.List.Induction

/-!
# Two sides of a connection, each behind buffers

Each side carries out a list of operations on a buffered writer and a buffered reader. What leaves the writer goes through write
calls into one direction of the connection, which holds a bounded number of bytes; the reader takes bytes from the other. Only
amounts are modelled. A write call blocks while its direction is full, a read call while its direction is empty.

Nothing is lost (`Carried`) and every run ends (`terminates`), so a run can only fail to complete where both sides block.
-/

namespace Duplex

open Relation

/-! ## Sides -/

/-- What a side does with its buffered streams. -/
inductive Op where
  | write (n : Nat)
  | flush
  | read (n : Nat)
  deriving DecidableEq, Repr

/-- How a side buffers: from the bytes its writer holds and the bytes written, those it holds afterwards and those it hands on;
the size of its reader; and whether a read fails that finds nothing more after a part of what it asked for. -/
structure Buffering where
  write : Nat → Nat → Nat × Nat
  conserves : ∀ b n, (write b n).1 + (write b n).2 = b + n
  readSize : Nat
  strict : Bool

/-- A side: the operations carried out and those to come, the bytes its writer holds, those of the write calls under way, those
read ahead, and those that the read under way has got. -/
structure Side where
  done : List Op := []
  ops : List Op
  buffered : Nat := 0
  sending : Nat := 0
  ahead : Nat := 0
  got : Nat := 0
  failed : Bool := false
  deriving DecidableEq, Repr

/-- An operation is through. -/
def Side.next (s : Side) (op : Op) (ops : List Op) : Side := { s with done := s.done ++ [op], ops }

/-- A step of a side, with the bytes in the direction it reads from and in the direction it writes to, which holds at most
`capacity`. -/
inductive Side.Step (β : Buffering) (capacity : Nat) : Side → Nat → Nat → Side → Nat → Nat → Prop
  | send (s : Side) (i o m : Nat) : s.failed = false → 0 < m → m ≤ s.sending → o + m ≤ capacity →
      Step β capacity s i o { s with sending := s.sending - m } i (o + m)
  | write (s : Side) (i o n : Nat) (ops : List Op) : s.failed = false → s.sending = 0 → s.ops = .write n :: ops →
      Step β capacity s i o
        { s.next (.write n) ops with buffered := (β.write s.buffered n).1, sending := (β.write s.buffered n).2 } i o
  | flush (s : Side) (i o : Nat) (ops : List Op) : s.failed = false → s.sending = 0 → s.ops = .flush :: ops →
      Step β capacity s i o { s.next .flush ops with buffered := 0, sending := s.buffered } i o
  | fill (s : Side) (i o n m : Nat) (ops : List Op) : s.failed = false → s.sending = 0 → s.ops = .read n :: ops →
      s.ahead = 0 → s.got < n → 0 < m → m ≤ i → m ≤ max β.readSize (n - s.got) →
      Step β capacity s i o { s with ahead := m } (i - m) o
  | take (s : Side) (i o n : Nat) (ops : List Op) : s.failed = false → s.sending = 0 → s.ops = .read n :: ops →
      0 < s.ahead → s.got < n →
      Step β capacity s i o
        { s with ahead := s.ahead - min s.ahead (n - s.got), got := s.got + min s.ahead (n - s.got) } i o
  | complete (s : Side) (i o n : Nat) (ops : List Op) : s.failed = false → s.sending = 0 → s.ops = .read n :: ops →
      s.got = n → Step β capacity s i o { s.next (.read n) ops with got := 0 } i o
  | fail (s : Side) (i o n : Nat) (ops : List Op) : s.failed = false → s.sending = 0 → s.ops = .read n :: ops →
      s.ahead = 0 → 0 < s.got → s.got < n → β.strict = true → Step β capacity s i o { s with failed := true } i o

/-- A side is in a write call and its direction is full, or it is in a read call, has nothing read ahead, and its direction is
empty. -/
def Side.Blocked (β : Buffering) (capacity : Nat) (s : Side) (i o : Nat) : Prop :=
  s.failed = false ∧
    ((0 < s.sending ∧ capacity ≤ o) ∨
      (s.sending = 0 ∧ s.ahead = 0 ∧ i = 0 ∧ (β.strict = true → s.got = 0) ∧ ∃ n ops, s.ops = .read n :: ops ∧ s.got < n))

/-- A side has neither failed nor carried out all its operations. -/
def Side.Running (s : Side) : Prop := s.failed = false ∧ (0 < s.sending ∨ s.ops ≠ [])

/-- A side has no step. -/
def Side.Still (β : Buffering) (capacity : Nat) (s : Side) (i o : Nat) : Prop :=
  ∀ s' i' o', ¬Side.Step β capacity s i o s' i' o'

/-! ## The connection -/

/-- The two sides' buffering and the capacities of the two directions. -/
structure Link where
  left : Buffering
  right : Buffering
  rightward : Nat
  leftward : Nat

/-- The two sides and the bytes in each direction. -/
structure Conn where
  left : Side
  right : Side
  toRight : Nat := 0
  toLeft : Nat := 0
  deriving DecidableEq, Repr

/-- One side takes a step. -/
inductive Step (l : Link) : Conn → Conn → Prop
  | left (c : Conn) (s : Side) (i o : Nat) :
      Side.Step l.left l.rightward c.left c.toLeft c.toRight s i o → Step l c { left := s, right := c.right, toRight := o, toLeft := i }
  | right (c : Conn) (s : Side) (i o : Nat) :
      Side.Step l.right l.leftward c.right c.toRight c.toLeft s i o → Step l c { left := c.left, right := s, toRight := i, toLeft := o }

/-- Both sides block. -/
def BothBlocked (l : Link) (c : Conn) : Prop :=
  c.left.Blocked l.left l.rightward c.toLeft c.toRight ∧ c.right.Blocked l.right l.leftward c.toRight c.toLeft

/-- Both sides at the beginning of their operations. -/
def start (p q : List Op) : Conn := { left := { ops := p }, right := { ops := q } }

/-! ## Amounts -/

/-- The bytes that an operation writes. -/
def Op.sent : Op → Nat
  | .write n => n
  | _ => 0

/-- The bytes that an operation reads. -/
def Op.taken : Op → Nat
  | .read n => n
  | _ => 0

/-- The bytes that operations write. -/
def sent (ops : List Op) : Nat := (ops.map Op.sent).sum

/-- The bytes that operations read. -/
def taken (ops : List Op) : Nat := (ops.map Op.taken).sum

@[simp] theorem sent_nil : sent [] = 0 := rfl

@[simp] theorem sent_cons (op : Op) (ops : List Op) : sent (op :: ops) = op.sent + sent ops := by
  simp [sent]

@[simp] theorem sent_append (ops ops' : List Op) : sent (ops ++ ops') = sent ops + sent ops' := by
  simp [sent]

@[simp] theorem taken_nil : taken [] = 0 := rfl

@[simp] theorem taken_cons (op : Op) (ops : List Op) : taken (op :: ops) = op.taken + taken ops := by
  simp [taken]

@[simp] theorem taken_append (ops ops' : List Op) : taken (ops ++ ops') = taken ops + taken ops' := by
  simp [taken]

/-- What an operation does to the bytes that a writer holds and those it has handed on. -/
def Buffering.perform (β : Buffering) (w : Nat × Nat) : Op → Nat × Nat
  | .write n => ((β.write w.1 n).1, w.2 + (β.write w.1 n).2)
  | .flush => (0, w.2 + w.1)
  | .read _ => w

/-- The bytes that a writer holds and those it has handed on after some operations. -/
def Buffering.after (β : Buffering) (ops : List Op) : Nat × Nat := ops.foldl β.perform (0, 0)

/-- The bytes that a writer has handed on after some operations. -/
def Buffering.handed (β : Buffering) (ops : List Op) : Nat := (β.after ops).2

theorem Buffering.after_concat (β : Buffering) (ops : List Op) (op : Op) :
    β.after (ops ++ [op]) = β.perform (β.after ops) op := by
  simp [Buffering.after]

/-- What is written is held or handed on. -/
theorem Buffering.after_total (β : Buffering) (ops : List Op) : (β.after ops).1 + β.handed ops = sent ops := by
  induction ops using List.reverseRecOn with
  | nil => rfl
  | append_singleton ops op ih =>
    unfold Buffering.handed at ih ⊢
    rw [Buffering.after_concat, sent_append, sent_cons, sent_nil, ← ih]
    cases op with
    | write n =>
      have := β.conserves (β.after ops).1 n
      simp only [Buffering.perform, Op.sent]
      omega
    | flush =>
      simp only [Buffering.perform, Op.sent]
      omega
    | read n =>
      simp only [Buffering.perform, Op.sent]
      omega

/-- No operation takes back what was handed on. -/
theorem Buffering.le_foldl_perform (β : Buffering) (ops : List Op) (w : Nat × Nat) : w.2 ≤ (ops.foldl β.perform w).2 := by
  induction ops generalizing w with
  | nil => exact Nat.le_refl _
  | cons op ops ih =>
    refine Nat.le_trans ?_ (ih _)
    cases op with
    | write n => exact Nat.le_add_right _ _
    | flush => exact Nat.le_add_right _ _
    | read n => exact Nat.le_refl _

/-- Reading hands nothing on. -/
theorem Buffering.foldl_perform_reads (β : Buffering) {ops : List Op} (h : ∀ op ∈ ops, ∃ n, op = .read n) (w : Nat × Nat) :
    ops.foldl β.perform w = w := by
  induction ops with
  | nil => rfl
  | cons op ops ih =>
    obtain ⟨n, rfl⟩ := h op List.mem_cons_self
    exact ih fun op' hop' => h op' (List.mem_cons_of_mem _ hop')

theorem Buffering.after_append (β : Buffering) (ops ops' : List Op) :
    β.after (ops ++ ops') = ops'.foldl β.perform (β.after ops) :=
  List.foldl_append

/-- More operations hand on more. -/
theorem Buffering.handed_le_append (β : Buffering) (ops ops' : List Op) : β.handed ops ≤ β.handed (ops ++ ops') := by
  unfold Buffering.handed
  rw [Buffering.after_append]
  exact β.le_foldl_perform ops' _

/-! ## The invariant -/

/-- A read gets no more than it asks for, and between reads nothing is got. -/
def Side.Fits (s : Side) : Prop :=
  match s.ops with
  | .read n :: _ => s.got ≤ n
  | _ => s.got = 0

theorem Side.fits_of_got {s : Side} (h : s.got = 0) : s.Fits := by
  unfold Side.Fits
  split
  · rw [h]
    exact Nat.zero_le _
  · exact h

/-- A side carries out its program. -/
structure Side.Inv (β : Buffering) (program : List Op) (s : Side) : Prop where
  program : s.done ++ s.ops = program
  buffered : (β.after s.done).1 = s.buffered
  fits : s.Fits

/-- What a program writes is held, handed on, or still to be written. -/
theorem Side.Inv.total {β : Buffering} {program : List Op} {s : Side} (h : s.Inv β program) :
    s.buffered + β.handed s.done + sent s.ops = sent program := by
  rw [← h.program, sent_append, ← h.buffered, β.after_total s.done]

/-- What a program reads is taken or still to be read. -/
theorem Side.Inv.taken {β : Buffering} {program : List Op} {s : Side} (h : s.Inv β program) :
    Duplex.taken s.done + Duplex.taken s.ops = Duplex.taken program := by
  rw [← h.program, taken_append]

/-- What one side has handed on is on its way, read ahead, got, or taken by the other. -/
def Carried (β : Buffering) (s : Side) (o : Nat) (t : Side) : Prop :=
  β.handed s.done = s.sending + o + t.ahead + t.got + taken t.done

/-- Both sides carry out their programs, and nothing is lost between them. -/
structure Inv (l : Link) (p q : List Op) (c : Conn) : Prop where
  left : c.left.Inv l.left p
  right : c.right.Inv l.right q
  rightward : Carried l.left c.left c.toRight c.right
  leftward : Carried l.right c.right c.toLeft c.left
  toRight : c.toRight ≤ l.rightward
  toLeft : c.toLeft ≤ l.leftward

theorem Inv.start (l : Link) (p q : List Op) : Inv l p q (start p q) :=
  ⟨⟨rfl, rfl, Side.fits_of_got rfl⟩, ⟨rfl, rfl, Side.fits_of_got rfl⟩, rfl, rfl, Nat.zero_le _, Nat.zero_le _⟩

variable {β γ : Buffering} {capacity : Nat} {s s' t : Side} {i i' o o' : Nat} {p q : List Op} {l : Link} {c c' : Conn}

/-- A side goes on with its program. -/
theorem Side.Inv.step (h : s.Inv β p) (hs : Side.Step β capacity s i o s' i' o') : s'.Inv β p := by
  obtain ⟨hprogram, hbuffered, hfits⟩ := h
  cases hs with
  | send m => exact ⟨hprogram, hbuffered, hfits⟩
  | write n ops _ _ hops =>
    unfold Side.Fits at hfits
    rw [hops] at hprogram hfits
    refine ⟨by simpa [Side.next] using hprogram, ?_, Side.fits_of_got hfits⟩
    simp [Side.next, Buffering.after_concat, Buffering.perform, hbuffered]
  | flush ops _ _ hops =>
    unfold Side.Fits at hfits
    rw [hops] at hprogram hfits
    refine ⟨by simpa [Side.next] using hprogram, ?_, Side.fits_of_got hfits⟩
    simp [Side.next, Buffering.after_concat, Buffering.perform]
  | fill n m ops => exact ⟨hprogram, hbuffered, hfits⟩
  | take n ops _ _ hops _ hgot =>
    refine ⟨hprogram, hbuffered, ?_⟩
    unfold Side.Fits
    rw [hops]
    show s.got + min s.ahead (n - s.got) ≤ n
    omega
  | complete n ops _ _ hops =>
    rw [hops] at hprogram
    refine ⟨by simpa [Side.next] using hprogram, ?_, Side.fits_of_got rfl⟩
    simp [Side.next, Buffering.after_concat, Buffering.perform, hbuffered]
  | fail n ops => exact ⟨hprogram, hbuffered, hfits⟩

/-- What a side hands on goes into its direction. -/
theorem Carried.sender (h : Carried β s o t) (hi : s.Inv β p) (hs : Side.Step β capacity s i o s' i' o') : Carried β s' o' t := by
  unfold Carried Buffering.handed at *
  cases hs with
  | send m =>
    simp only
    omega
  | write n ops _ hsending =>
    simp only [Side.next, Buffering.after_concat, Buffering.perform, hi.buffered]
    omega
  | flush ops _ hsending =>
    simp only [Side.next, Buffering.after_concat, Buffering.perform, hi.buffered]
    omega
  | fill n m ops => exact h
  | take n ops => exact h
  | complete n ops =>
    simp only [Side.next, Buffering.after_concat, Buffering.perform]
    exact h
  | fail n ops => exact h

/-- What a side takes it takes from the other's direction. -/
theorem Carried.receiver (h : Carried β t i s) (hs : Side.Step γ capacity s i o s' i' o') : Carried β t i' s' := by
  unfold Carried at *
  cases hs with
  | send m => exact h
  | write n ops =>
    simp only [Side.next, taken_append, taken_cons, taken_nil, Op.taken]
    omega
  | flush ops =>
    simp only [Side.next, taken_append, taken_cons, taken_nil, Op.taken]
    omega
  | fill n m ops =>
    simp only
    omega
  | take n ops =>
    simp only
    omega
  | complete n ops =>
    simp only [Side.next, taken_append, taken_cons, taken_nil, Op.taken]
    omega
  | fail n ops => exact h

/-- No direction holds more than it may. -/
theorem Side.Step.le_capacity (hs : Side.Step β capacity s i o s' i' o') (h : o ≤ capacity) : i' ≤ i ∧ o' ≤ capacity := by
  cases hs <;> omega

/-- A step keeps the invariant. -/
theorem Inv.step (h : Inv l p q c) (hs : Step l c c') : Inv l p q c' := by
  cases hs with
  | left s i o hs =>
    obtain ⟨hi, ho⟩ := hs.le_capacity h.toRight
    exact ⟨h.left.step hs, h.right, h.rightward.sender h.left hs, h.leftward.receiver hs, ho, Nat.le_trans hi h.toLeft⟩
  | right s i o hs =>
    obtain ⟨hi, ho⟩ := hs.le_capacity h.toLeft
    exact ⟨h.left, h.right.step hs, h.rightward.receiver hs, h.leftward.sender h.right hs, Nat.le_trans hi h.toRight, ho⟩

/-- A run keeps the invariant. -/
theorem Inv.run (h : ReflTransGen (Step l) (Duplex.start p q) c) : Inv l p q c :=
  Runs.invariant (I := Inv l p q) (fun _ _ h hs => h.step hs) h (Inv.start l p q)

/-! ## Blocking -/

/-- A side that is running and not blocked has a step. -/
theorem Side.exists_step (hfits : s.Fits) (hrun : s.Running) (hblocked : ¬s.Blocked β capacity i o) :
    ∃ s' i' o', Side.Step β capacity s i o s' i' o' := by
  obtain ⟨hfailed, hrun⟩ := hrun
  by_cases hsending : s.sending = 0
  · have hops : s.ops ≠ [] := hrun.resolve_left (by omega)
    unfold Side.Fits at hfits
    unfold Side.Blocked at hblocked
    cases h : s.ops with
    | nil => exact absurd h hops
    | cons op ops =>
      cases op with
      | write n => exact ⟨_, _, _, .write s i o n ops hfailed hsending h⟩
      | flush => exact ⟨_, _, _, .flush s i o ops hfailed hsending h⟩
      | read n =>
        rw [h] at hfits
        rcases Nat.lt_or_eq_of_le hfits with hgot | hgot
        · by_cases hahead : s.ahead = 0
          · by_cases hi : i = 0
            · -- Nothing is there: a strict reader that has got a part fails, any other is blocked.
              by_cases hpart : β.strict = true ∧ 0 < s.got
              · exact ⟨_, _, _, .fail s i o n ops hfailed hsending h hahead hpart.2 hgot hpart.1⟩
              · refine absurd ⟨hfailed, Or.inr ⟨hsending, hahead, hi, fun hstrict => ?_, n, ops, h, hgot⟩⟩ hblocked
                have := not_and.mp hpart hstrict
                omega
            · exact ⟨_, _, _, .fill s i o n 1 ops hfailed hsending h hahead hgot (by omega) (by omega) (by omega)⟩
          · exact ⟨_, _, _, .take s i o n ops hfailed hsending h (by omega) hgot⟩
        · exact ⟨_, _, _, .complete s i o n ops hfailed hsending h hgot⟩
  · have hroom : o < capacity := by
      by_contra hfull
      exact hblocked ⟨hfailed, Or.inl ⟨by omega, by omega⟩⟩
    exact ⟨_, _, _, .send s i o 1 hfailed (by omega) (by omega) (by omega)⟩

/-- A blocked side is running and has no step. -/
theorem Side.Blocked.still (h : s.Blocked β capacity i o) : s.Running ∧ s.Still β capacity i o := by
  obtain ⟨hfailed, ⟨hsending, hfull⟩ | ⟨hsending, hahead, hi, hstrict, n, ops, hops, hgot⟩⟩ := h
  · refine ⟨⟨hfailed, Or.inl hsending⟩, fun s' i' o' hs => ?_⟩
    cases hs <;> omega
  · refine ⟨⟨hfailed, Or.inr (hops ▸ List.cons_ne_nil _ _)⟩, fun s' i' o' hs => ?_⟩
    cases hs with
    | send m => omega
    | write n' ops' _ _ hops' => cases hops.symm.trans hops'
    | flush ops' _ _ hops' => cases hops.symm.trans hops'
    | fill n' m ops' => omega
    | take n' ops' => omega
    | complete n' ops' _ _ hops' =>
      cases hops.symm.trans hops'
      omega
    | fail n' ops' _ _ _ _ hpart _ hstr =>
      have := hstrict hstr
      omega

/-- To block is to be running without a step. -/
theorem Side.blocked_iff (hfits : s.Fits) : s.Blocked β capacity i o ↔ s.Running ∧ s.Still β capacity i o := by
  constructor
  · exact Side.Blocked.still
  · rintro ⟨hrun, hstill⟩
    by_contra hblocked
    obtain ⟨s', i', o', hs⟩ := Side.exists_step hfits hrun hblocked
    exact hstill s' i' o' hs

/-! ## Runs end -/

/-- A bound on the steps a side has left. -/
def Side.weight (s : Side) : Nat :=
  4 * (s.buffered + s.sending + sent s.ops) + 2 * s.ahead + s.ops.length + (if s.failed then 0 else 1)

/-- A bound on the steps that are left. -/
def Conn.weight (c : Conn) : Nat := c.left.weight + c.right.weight + 3 * c.toRight + 3 * c.toLeft

theorem Side.Step.weight_lt (hs : Side.Step β capacity s i o s' i' o') :
    s'.weight + 3 * i' + 3 * o' < s.weight + 3 * i + 3 * o := by
  unfold Side.weight
  cases hs with
  | send m =>
    simp only
    omega
  | write n ops hfailed hsending hops =>
    have := β.conserves s.buffered n
    simp only [Side.next, hops, sent_cons, Op.sent, List.length_cons, hfailed, Bool.false_eq_true, if_false]
    omega
  | flush ops hfailed hsending hops =>
    simp only [Side.next, hops, sent_cons, Op.sent, List.length_cons, hfailed, Bool.false_eq_true, if_false]
    omega
  | fill n m ops =>
    simp only
    omega
  | take n ops =>
    simp only
    omega
  | complete n ops hfailed _ hops =>
    simp only [Side.next, hops, sent_cons, Op.sent, List.length_cons, hfailed, Bool.false_eq_true, if_false]
    omega
  | fail n ops hfailed =>
    simp [hfailed]

theorem Step.weight_lt (hs : Step l c c') : c'.weight < c.weight := by
  unfold Conn.weight
  cases hs with
  | left s i o hs =>
    have := hs.weight_lt
    simp only
    omega
  | right s i o hs =>
    have := hs.weight_lt
    simp only
    omega

/-- There is no infinite run. -/
theorem terminates (l : Link) : WellFounded fun c' c => Step l c c' :=
  Subrelation.wf Step.weight_lt (measure Conn.weight).wf

/-! ## A schedule that reads nothing ahead

The right side goes on until it blocks; only then does the left side put one more byte into its direction. The left side does
not read. -/

/-- A step of this schedule. -/
inductive Lazy (l : Link) : Conn → Conn → Prop
  | right (c : Conn) (s : Side) (i o : Nat) :
      Side.Step l.right l.leftward c.right c.toRight c.toLeft s i o → Lazy l c { left := c.left, right := s, toRight := i, toLeft := o }
  | write (c : Conn) (n : Nat) (ops : List Op) : c.left.failed = false → c.left.sending = 0 → c.left.ops = .write n :: ops →
      Lazy l c { c with left := { c.left.next (.write n) ops with
        buffered := (l.left.write c.left.buffered n).1, sending := (l.left.write c.left.buffered n).2 } }
  | flush (c : Conn) (ops : List Op) : c.left.failed = false → c.left.sending = 0 → c.left.ops = .flush :: ops →
      Lazy l c { c with left := { c.left.next .flush ops with buffered := 0, sending := c.left.buffered } }
  | send (c : Conn) : c.left.failed = false → c.right.Blocked l.right l.leftward c.toRight c.toLeft → 0 < c.left.sending →
      c.toRight < l.rightward →
      Lazy l c { c with left := { c.left with sending := c.left.sending - 1 }, toRight := c.toRight + 1 }

/-- The schedule takes steps of the connection. -/
theorem Lazy.step (h : Lazy l c c') : Step l c c' := by
  cases h with
  | right s i o hs => exact .right c s i o hs
  | write n ops hfailed hsending hops => exact .left c _ _ _ (.write c.left _ _ n ops hfailed hsending hops)
  | flush ops hfailed hsending hops => exact .left c _ _ _ (.flush c.left _ _ ops hfailed hsending hops)
  | send hfailed _ hsending hroom => exact .left c _ _ _ (.send c.left _ _ 1 hfailed (Nat.lt_succ_self 0) hsending hroom)

/-- In this schedule: neither side has failed; the left one has read nothing; what the right one is sending is of an operation
before which everything found room; and a byte is on its way to the right side only if that waits for it or is blocked by what
it sends. -/
structure Lazily (l : Link) (c : Conn) : Prop where
  failed : c.left.failed = false ∧ c.right.failed = false
  idle : c.left.ahead = 0 ∧ c.left.got = 0 ∧ taken c.left.done = 0
  begun : 0 < c.right.sending → c.right.got = 0 ∧ ∃ d op, c.right.done = d ++ [op] ∧ l.right.handed d ≤ l.leftward
  needed : (0 < c.right.sending ∧ l.leftward ≤ c.toLeft ∧ c.right.ahead = 0) ∨ c.toRight + c.right.ahead = 0 ∨
    (c.toRight + c.right.ahead = 1 ∧ c.right.sending = 0 ∧ ∃ n ops, c.right.ops = .read n :: ops ∧ c.right.got < n)

theorem Lazily.start (l : Link) (p q : List Op) : Lazily l (start p q) :=
  ⟨⟨rfl, rfl⟩, ⟨rfl, rfl, rfl⟩, fun h => absurd h (Nat.lt_irrefl 0), Or.inr (Or.inl rfl)⟩

/-- A side that has sent everything, and the other has read nothing: what it has handed on is in its direction. -/
theorem Lazily.handed (h : Lazily l c) (hinv : Inv l p q c) (hsending : c.right.sending = 0) :
    l.right.handed c.right.done ≤ l.leftward := by
  have hcarried := hinv.leftward
  have hle := hinv.toLeft
  obtain ⟨hahead, hgot, htaken⟩ := h.idle
  unfold Carried at hcarried
  omega

/-- No byte is on its way to a right side that is about to do something else than read. -/
theorem Lazily.nothing_ahead (h : Lazily l c) (hsending : c.right.sending = 0) (hread : ∀ n ops, c.right.ops ≠ .read n :: ops) :
    c.toRight + c.right.ahead = 0 := by
  rcases h.needed with ⟨hpos, -⟩ | hnone | ⟨-, -, n, ops, hops, -⟩
  · omega
  · exact hnone
  · exact absurd hops (hread n ops)

/-- Where the right side goes on to an operation that is not a read, it has got nothing of one, what it has handed on before is in its
direction, and no byte is on its way to it. -/
theorem Lazily.goes_on (h : Lazily l c) (hinv : Inv l p q c) (hsending : c.right.sending = 0) {op : Op} {ops : List Op}
    (hops : c.right.ops = op :: ops) (hread : ∀ n, op ≠ .read n) :
    c.right.got = 0 ∧ l.right.handed c.right.done ≤ l.leftward ∧ c.toRight + c.right.ahead = 0 := by
  have hfits := hinv.right.fits
  unfold Side.Fits at hfits
  rw [hops] at hfits
  refine ⟨?_, h.handed hinv hsending, h.nothing_ahead hsending fun n ops' hops' => ?_⟩
  · cases op with
    | read n => exact absurd rfl (hread n)
    | _ => exact hfits
  · exact hread n (List.cons.inj (hops.symm.trans hops')).1

/-- A step of the schedule keeps it. -/
theorem Lazily.step (hstrict : l.right.strict = false) (h : Lazily l c) (hinv : Inv l p q c) (hs : Lazy l c c') :
    Lazily l c' := by
  have ⟨hfailed, hidle, hbegun, hneeded⟩ := h
  cases hs with
  | right s i o hs =>
    cases hs with
    | send m _ hm hle hroom =>
      refine ⟨hfailed, hidle, fun _ => hbegun (by omega), ?_⟩
      rcases hneeded with ⟨-, hfull, -⟩ | hnone | ⟨-, hsending, -⟩
      · omega
      · exact Or.inr (Or.inl hnone)
      · omega
    | write n ops _ hsending hops =>
      obtain ⟨hgot, hhanded, hnothing⟩ := h.goes_on hinv hsending hops fun n' => Op.noConfusion
      exact ⟨hfailed, hidle, fun _ => ⟨hgot, _, _, rfl, hhanded⟩, Or.inr (Or.inl hnothing)⟩
    | flush ops _ hsending hops =>
      obtain ⟨hgot, hhanded, hnothing⟩ := h.goes_on hinv hsending hops fun n' => Op.noConfusion
      exact ⟨hfailed, hidle, fun _ => ⟨hgot, _, _, rfl, hhanded⟩, Or.inr (Or.inl hnothing)⟩
    | fill n m ops _ hsending hops hahead hgot hm hle =>
      refine ⟨hfailed, hidle, fun hpos => absurd hsending (Nat.ne_of_gt hpos), ?_⟩
      rcases hneeded with ⟨hpos, -⟩ | hnone | ⟨hone, -⟩
      · omega
      · omega
      · refine Or.inr (Or.inr ⟨?_, hsending, n, ops, hops, hgot⟩)
        show c.toRight - m + m = 1
        omega
    | take n ops _ hsending hops hahead hgot =>
      refine ⟨hfailed, hidle, fun hpos => absurd hsending (Nat.ne_of_gt hpos), ?_⟩
      rcases hneeded with ⟨hpos, -⟩ | hnone | ⟨hone, -⟩
      · omega
      · omega
      · refine Or.inr (Or.inl ?_)
        show c.toRight + (c.right.ahead - min c.right.ahead (n - c.right.got)) = 0
        omega
    | complete n ops _ hsending hops hgot =>
      refine ⟨hfailed, hidle, fun hpos => absurd hsending (Nat.ne_of_gt hpos), ?_⟩
      rcases hneeded with ⟨hpos, -⟩ | hnone | ⟨-, -, n', ops', hops', hgot'⟩
      · omega
      · exact Or.inr (Or.inl hnone)
      · cases hops.symm.trans hops'
        omega
    | fail n ops _ _ _ _ _ _ htrue => cases hstrict.symm.trans htrue
  | write n ops _ hsending hops =>
    refine ⟨hfailed, ⟨hidle.1, hidle.2.1, ?_⟩, hbegun, hneeded⟩
    simp [Side.next, hidle.2.2, Op.taken]
  | flush ops _ hsending hops =>
    refine ⟨hfailed, ⟨hidle.1, hidle.2.1, ?_⟩, hbegun, hneeded⟩
    simp [Side.next, hidle.2.2, Op.taken]
  | send _ hblocked hsending hroom =>
    refine ⟨hfailed, hidle, hbegun, ?_⟩
    obtain ⟨-, ⟨hpos, hfull⟩ | ⟨hzero, hahead, hi, -, n, ops, hops, hgot⟩⟩ := hblocked
    · rcases hneeded with ⟨-, -, hahead⟩ | hnone | ⟨-, hzero, -⟩
      · exact Or.inl ⟨hpos, hfull, hahead⟩
      · exact Or.inl ⟨hpos, hfull, (Nat.add_eq_zero_iff.mp hnone).2⟩
      · omega
    · refine Or.inr (Or.inr ⟨?_, hzero, n, ops, hops, hgot⟩)
      show c.toRight + 1 + c.right.ahead = 1
      omega

/-- The schedule comes to an end, in a state that the connection reaches. -/
theorem exists_lazily (l : Link) (hstrict : l.right.strict = false) (p q : List Op) :
    ∃ c, ReflTransGen (Step l) (Duplex.start p q) c ∧ Inv l p q c ∧ Lazily l c ∧ Runs.Final (Lazy l) c := by
  obtain ⟨c, hrun, hfinal⟩ := Runs.exists_final (Subrelation.wf Lazy.step (terminates l)) (Duplex.start p q)
  have hboth : Inv l p q c ∧ Lazily l c :=
    Runs.invariant (I := fun c => Inv l p q c ∧ Lazily l c)
      (fun _ _ h hs => ⟨h.1.step hs.step, h.2.step hstrict h.1 hs⟩) hrun ⟨Inv.start l p q, Lazily.start l p q⟩
  exact ⟨c, ReflTransGen.mono (fun _ _ => Lazy.step) _ _ hrun, hboth.1, hboth.2, hfinal⟩

end Duplex
