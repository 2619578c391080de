import KotlinTracer.Lib.Interleave
import Mathlib.Data.Finset.Card

set_option relaxedAutoImplicit false
set_option autoImplicit false

/-!
# Reader–writer locks

A lock that any number of threads may hold together for reading, or one thread alone for writing. It
counts its holders; which threads they are follows from the positions of the threads in their
programs.

## Main definitions

* `SharedMutex` — the lock, with its four operations.
* `SharedMutex.Mode`, `SharedMutex.Compatible` — the ways to hold it, and which of them go together.
* `SharedMutex.Transition` — what a step of a thread can do to the lock.
* `SharedMutex.Guards` — the threads of a system take and release the lock as their positions say.

## Main results

* `SharedMutex.Guards.counted` — the lock counts the threads that hold it.
* `SharedMutex.Guards.compatible` — whatever the interleaving, the ways in which two threads hold
  the lock go together.
-/

/-- A reader–writer lock: the number of threads that hold it shared, and whether a thread holds it
exclusively. -/
structure SharedMutex where
  readers : ℕ := 0
  writer : Bool := false
deriving DecidableEq

namespace SharedMutex

/-- The ways to hold the lock. -/
inductive Mode
  | shared
  | exclusive
deriving DecidableEq

/-- Two threads may hold the lock in these ways at the same time. -/
def Compatible : Option Mode → Option Mode → Prop
  | some .exclusive, some _ | some _, some .exclusive => False
  | _, _ => True

/-- Two threads that hold the lock both hold it shared. -/
lemma Compatible.eq_shared {a b : Mode} (h : Compatible (some a) (some b)) :
    a = .shared ∧ b = .shared := by
  cases a with
  | exclusive => cases h
  | shared =>
    cases b with
    | exclusive => cases h
    | shared => exact ⟨rfl, rfl⟩

/-- Take the lock shared; `none` while a thread holds it exclusively. -/
def lockShared (m : SharedMutex) : Option SharedMutex :=
  if m.writer then none else some { m with readers := m.readers + 1 }

/-- Release the lock held shared. -/
def unlockShared (m : SharedMutex) : SharedMutex :=
  { m with readers := m.readers - 1 }

/-- Take the lock exclusively; `none` while a thread holds it. -/
def lock (m : SharedMutex) : Option SharedMutex :=
  if m.writer ∨ m.readers ≠ 0 then none else some { m with writer := true }

/-- Release the lock held exclusively. -/
def unlock (m : SharedMutex) : SharedMutex :=
  { m with writer := false }

/-- What a step of a thread can do to the lock and to how the thread holds it. -/
inductive Transition : Option Mode → SharedMutex → Option Mode → SharedMutex → Prop
  | keep (h : Option Mode) (m : SharedMutex) : Transition h m h m
  | lockShared {m m' : SharedMutex} (hm : m.lockShared = some m') :
      Transition none m (some .shared) m'
  | unlockShared (m : SharedMutex) : Transition (some .shared) m none m.unlockShared
  | lock {m m' : SharedMutex} (hm : m.lock = some m') : Transition none m (some .exclusive) m'
  | unlock (m : SharedMutex) : Transition (some .exclusive) m none m.unlock

variable {m m' : SharedMutex}

lemma lockShared_eq_some_iff :
    m.lockShared = some m' ↔ m.writer = false ∧ m' = { m with readers := m.readers + 1 } := by
  unfold lockShared
  cases m.writer <;> simp [eq_comm]

lemma lock_eq_some_iff :
    m.lock = some m' ↔ m.writer = false ∧ m.readers = 0 ∧ m' = { m with writer := true } := by
  unfold lock
  split_ifs with h
  · simp only [false_iff]
    rintro ⟨hwriter, hreaders, -⟩
    rcases h with h | h
    · rw [hwriter] at h
      cases h
    · exact h hreaders
  · simp only [not_or, Bool.not_eq_true, not_not] at h
    simp [h, eq_comm]

/-! ## Holders -/

section Holders

variable {π : Type*} {holds : π → Option Mode} {threads : ℕ → π}

/-- `n` threads hold the lock in the given way. -/
def Holders (holds : π → Option Mode) (threads : ℕ → π) (mode : Mode) (n : ℕ) : Prop :=
  ∃ S : Finset ℕ, (∀ t, t ∈ S ↔ holds (threads t) = some mode) ∧ S.card = n

/-- The lock counts the threads that hold it, and nobody reads beside a writer. -/
structure Counted (holds : π → Option Mode) (threads : ℕ → π) (m : SharedMutex) : Prop where
  readers : Holders holds threads .shared m.readers
  writers : Holders holds threads .exclusive m.writer.toNat
  alone : m.writer = true → m.readers = 0

variable {mode : Mode} {n t : ℕ} {p : π}

/-- Some thread holds the lock only if the number of holders is positive. -/
lemma Holders.pos (h : Holders holds threads mode n) (ht : holds (threads t) = some mode) :
    0 < n := by
  obtain ⟨S, hS, rfl⟩ := h
  exact Finset.card_pos.mpr ⟨t, (hS t).mpr ht⟩

/-- One holder is the only one. -/
lemma Holders.unique (h : Holders holds threads mode 1) {u : ℕ}
    (ht : holds (threads t) = some mode) (hu : holds (threads u) = some mode) : t = u := by
  obtain ⟨S, hS, hcard⟩ := h
  obtain ⟨x, rfl⟩ := Finset.card_eq_one.mp hcard
  rw [Finset.mem_singleton.mp ((hS t).mpr ht), Finset.mem_singleton.mp ((hS u).mpr hu)]

/-- A step of a thread that does not change whether it holds the lock in the given way. -/
lemma Holders.keep (h : Holders holds threads mode n)
    (hp : holds p = some mode ↔ holds (threads t) = some mode) :
    Holders holds (Function.update threads t p) mode n := by
  obtain ⟨S, hS, hcard⟩ := h
  refine ⟨S, fun u => ?_, hcard⟩
  by_cases hu : u = t
  · subst hu
    rw [Function.update_self, hp]
    exact hS u
  · rw [Function.update_of_ne hu]
    exact hS u

/-- A thread takes the lock. -/
lemma Holders.add (h : Holders holds threads mode n) (hp : holds p = some mode)
    (ht : holds (threads t) ≠ some mode) :
    Holders holds (Function.update threads t p) mode (n + 1) := by
  obtain ⟨S, hS, rfl⟩ := h
  refine ⟨insert t S, fun u => ?_, Finset.card_insert_of_notMem (mt (hS t).mp ht)⟩
  by_cases hu : u = t
  · subst hu
    simp [hp]
  · rw [Finset.mem_insert, or_iff_right hu, Function.update_of_ne hu]
    exact hS u

/-- A thread releases the lock. -/
lemma Holders.remove (h : Holders holds threads mode n) (hp : holds p ≠ some mode)
    (ht : holds (threads t) = some mode) :
    Holders holds (Function.update threads t p) mode (n - 1) := by
  obtain ⟨S, hS, rfl⟩ := h
  refine ⟨S.erase t, fun u => ?_, Finset.card_erase_of_mem ((hS t).mpr ht)⟩
  by_cases hu : u = t
  · subst hu
    simp [hp]
  · rw [Finset.mem_erase, and_iff_right hu, Function.update_of_ne hu]
    exact hS u

/-- A step of a thread keeps the count.

**Proof sketch.** The count of a mode changes by the thread that takes or releases the lock in this
mode, and for the other mode the thread does not count before or after. -/
lemma Counted.step (h : Counted holds threads m)
    (hstep : Transition (holds (threads t)) m (holds p) m') :
    Counted holds (Function.update threads t p) m' := by
  generalize hbefore : holds (threads t) = before at hstep
  generalize hafter : holds p = after at hstep
  cases hstep with
  | keep =>
    refine ⟨h.readers.keep ?_, h.writers.keep ?_, h.alone⟩
    all_goals rw [hbefore, hafter]
  | lockShared hm =>
    obtain ⟨hwriter, rfl⟩ := lockShared_eq_some_iff.mp hm
    refine ⟨h.readers.add hafter (by simp [hbefore]), h.writers.keep ?_, fun htrue => ?_⟩
    · simp [hbefore, hafter]
    · rw [hwriter] at htrue
      cases htrue
  | unlockShared =>
    refine ⟨h.readers.remove (by simp [hafter]) hbefore, h.writers.keep ?_, fun htrue => ?_⟩
    · simp [hbefore, hafter]
    · rw [unlockShared, h.alone htrue]
  | lock hm =>
    obtain ⟨hwriter, hreaders, rfl⟩ := lock_eq_some_iff.mp hm
    have hadd := h.writers.add (t := t) hafter (by simp [hbefore])
    rw [hwriter] at hadd
    exact ⟨h.readers.keep (by simp [hbefore, hafter]), hadd, fun _ => hreaders⟩
  | unlock =>
    have hwriter : m.writer.toNat = 1 := by
      have hpos := h.writers.pos hbefore
      have hle := Bool.toNat_le m.writer
      omega
    have hremove := h.writers.remove (p := p) (by simp [hafter]) hbefore
    rw [hwriter] at hremove
    exact ⟨h.readers.keep (by simp [hbefore, hafter]), hremove, fun htrue => nomatch htrue⟩

/-- A thread that holds the lock exclusively makes the lock say so. -/
lemma Counted.writer_eq_true (h : Counted holds threads m)
    (ht : holds (threads t) = some .exclusive) : m.writer = true := by
  have hpos := h.writers.pos ht
  cases hwriter : m.writer with
  | true => rfl
  | false =>
    rw [hwriter] at hpos
    exact absurd hpos (Nat.lt_irrefl 0)

/-- Beside a thread that holds the lock shared, no thread holds it exclusively. -/
lemma Counted.writer_eq_false (h : Counted holds threads m)
    (ht : holds (threads t) = some .shared) : m.writer = false := by
  have hpos := h.readers.pos ht
  cases hwriter : m.writer with
  | false => rfl
  | true =>
    rw [h.alone hwriter] at hpos
    exact absurd hpos (Nat.lt_irrefl 0)

/-- Beside a thread that holds the lock exclusively, no thread holds it. -/
lemma Counted.eq_none (h : Counted holds threads m) {u : ℕ}
    (ht : holds (threads t) = some .exclusive) (hu : u ≠ t) : holds (threads u) = none := by
  have hwriter := h.writer_eq_true ht
  cases hholds : holds (threads u) with
  | none => rfl
  | some mode =>
    cases mode with
    | shared =>
      rw [h.writer_eq_false hholds] at hwriter
      cases hwriter
    | exclusive =>
      have hone := h.writers
      rw [hwriter] at hone
      exact absurd (hone.unique hholds ht) hu

/-- The ways in which two threads hold the lock go together. -/
lemma Counted.compatible (h : Counted holds threads m) {u : ℕ} (hu : u ≠ t) :
    Compatible (holds (threads t)) (holds (threads u)) := by
  cases ht : holds (threads t) with
  | none => trivial
  | some mode =>
    cases mode with
    | exclusive =>
      rw [h.eq_none ht hu]
      trivial
    | shared =>
      cases hholds : holds (threads u) with
      | none => trivial
      | some mode =>
        cases mode with
        | shared => trivial
        | exclusive =>
          rw [h.eq_none hholds hu.symm] at ht
          cases ht

end Holders

/-! ## Systems that use the lock -/

section Systems

variable {σ π α ω : Type*}

/-- The threads of a system take and release the lock as their positions say. -/
structure Guards (T : ThreadSystem σ π α ω) (mutex : σ → SharedMutex) (holds : π → Option Mode) :
    Prop where
  init : mutex T.init = {}
  start : holds T.start = none
  step : ∀ {s p a s' p' o}, T.step s p a = some (s', p', o) →
    Transition (holds p) (mutex s) (holds p') (mutex s')

variable {T : ThreadSystem σ π α ω} {mutex : σ → SharedMutex} {holds : π → Option Mode}
  {l : List ((ℕ × α) × List ω)} {c : ThreadSystem.Conf σ π}

/-- **The lock counts its holders**, in every interleaving of any number of threads. -/
theorem Guards.counted (h : Guards T mutex holds) (hrun : T.machine.Run l c) :
    Counted holds c.threads (mutex c.shared) := by
  refine LogMachine.Run.state_invariant
    (I := fun c : ThreadSystem.Conf σ π => Counted holds c.threads (mutex c.shared)) ?_ ?_ hrun
  · have hstart : ∀ mode, Holders holds (fun _ => T.start) mode 0 :=
      fun mode => ⟨∅, fun t => by simp [h.start], rfl⟩
    change Counted holds (fun _ => T.start) (mutex T.init)
    rw [h.init]
    exact ⟨hstart _, hstart _, fun _ => rfl⟩
  · intro c e o c' hc hstep
    simp only [ThreadSystem.machine, Option.map_eq_some_iff, Prod.exists, Prod.mk.injEq] at hstep
    obtain ⟨s, p, o', hsection, rfl, -⟩ := hstep
    exact hc.step (h.step hsection)

/-- **Exclusion.** Whatever the interleaving, the ways in which two threads hold the lock go
together. -/
theorem Guards.compatible (h : Guards T mutex holds) (hrun : T.machine.Run l c) {t u : ℕ}
    (hu : u ≠ t) : Compatible (holds (c.threads t)) (holds (c.threads u)) :=
  (h.counted hrun).compatible hu

end Systems

end SharedMutex
