import Mathlib.Logic.Function.Basic
import KotlinTracer.Lib.Run

set_option relaxedAutoImplicit false
set_option autoImplicit false

/-!
# Threads that share a state

Any number of threads execute atomic sections on a shared state, in any order. A thread is known by
its number and has a position in its program, which only its own sections change; a section reads
and writes the shared state.

Properties of all interleavings are proved by an *outline*: an invariant of the shared state and an
assertion for every position, such that a section that starts with its assertion establishes the
next one, and keeps the assertions of the positions of all other threads.

## Main definitions

* `ThreadSystem` — the sections of a thread, on the shared state.
* `ThreadSystem.machine` — the machine that interleaves the sections of all threads.
* `ThreadSystem.Undisturbed` — a condition on a step, about the position of its thread and about the
  positions of all other threads.
* `ThreadSystem.Outline` — a proof outline.

## Main results

* `ThreadSystem.Outline.throughout` — an outline holds at every point of the runs all whose steps
  leave the other threads undisturbed, and `ThreadSystem.Outline.of_run` when every step does.
* `ThreadSystem.exists_output` — a thread whose position has a decreasing measure produces an output
  within as many of its own steps.
-/

/-- The sections of threads on a shared state: what a thread at a position does by an action, the
state and the position after it and its outputs; `none` if it cannot do the action there. -/
structure ThreadSystem (σ π α ω : Type*) where
  init : σ
  start : π
  step : σ → π → α → Option (σ × π × List ω)

/-- The shared state and the positions of the threads. -/
structure ThreadSystem.Conf (σ π : Type*) where
  shared : σ
  threads : ℕ → π

namespace ThreadSystem

variable {σ π α ω : Type*} (T : ThreadSystem σ π α ω)

/-- The interleavings of the sections: an event is an action of one of the threads. -/
def machine : LogMachine (Conf σ π) (ℕ × α) ω where
  init := ⟨T.init, fun _ => T.start⟩
  step := fun c e => (T.step c.shared (c.threads e.1) e.2).map fun r =>
    (⟨r.1, Function.update c.threads e.1 r.2.1⟩, r.2.2)

/-- A step is a section of one thread, and leaves the positions of the others alone. -/
lemma of_machine_step {T : ThreadSystem σ π α ω} {c c' : Conf σ π} {e : ℕ × α} {o : List ω}
    (h : T.machine.step c e = some (c', o)) :
    T.step c.shared (c.threads e.1) e.2 = some (c'.shared, c'.threads e.1, o) ∧
      ∀ t, t ≠ e.1 → c'.threads t = c.threads t := by
  simp only [machine, Option.map_eq_some_iff, Prod.exists, Prod.mk.injEq] at h
  obtain ⟨s, p, o', hstep, rfl, rfl⟩ := h
  refine ⟨?_, fun t ht => Function.update_of_ne ht _ _⟩
  rw [hstep]
  simp only [Function.update_self]

/-- A step meets `G`, which is about the shared state and the position and the action of its thread,
and does not disturb the others: `K` holds of these and the position of every other thread. -/
def Undisturbed (G : σ → π → α → Prop) (K : σ → π → α → π → Prop)
    (_ : List ((ℕ × α) × List ω)) (c : Conf σ π) (e : ℕ × α) : Prop :=
  G c.shared (c.threads e.1) e.2 ∧
    ∀ t, t ≠ e.1 → K c.shared (c.threads e.1) e.2 (c.threads t)

/-- A proof outline: the invariant `I` of the shared state, the assertion `A` of every position, and
the property `Q` of all outputs, provided that a step meets `G` and disturbs other threads only
where `K` allows it. -/
structure Outline (I : σ → Prop) (A : σ → π → Prop) (G : σ → π → α → Prop)
    (K : σ → π → α → π → Prop) (Q : ω → Prop) : Prop where
  init : I T.init
  start : A T.init T.start
  own : ∀ {s p a s' p' o}, I s → A s p → G s p a → T.step s p a = some (s', p', o) →
    I s' ∧ A s' p' ∧ ∀ x ∈ o, Q x
  other : ∀ {s p a s' p' o q}, I s → A s p → A s q → K s p a q →
    T.step s p a = some (s', p', o) → A s' q

variable {T} {I : σ → Prop} {A : σ → π → Prop} {G : σ → π → α → Prop}
  {K : σ → π → α → π → Prop} {Q : ω → Prop} {l : List ((ℕ × α) × List ω)} {c c' : Conf σ π}
  {o : List ω}

/-- What an outline says about a log and the state after it. -/
structure Holds (I : σ → Prop) (A : σ → π → Prop) (Q : ω → Prop) (l : List ((ℕ × α) × List ω))
    (c : Conf σ π) : Prop where
  invariant : I c.shared
  assertion : ∀ t, A c.shared (c.threads t)
  outputs : ∀ e ∈ l, ∀ x ∈ e.2, Q x

/-- One step under an outline. -/
lemma Outline.step (h : T.Outline I A G K Q) (hc : Holds I A Q l c) {e : ℕ × α}
    (hK : Undisturbed G K l c e) (hstep : T.machine.step c e = some (c', o)) :
    Holds I A Q (l ++ [(e, o)]) c' := by
  obtain ⟨hsection, hothers⟩ := of_machine_step hstep
  obtain ⟨hI, hA, hQ⟩ := h.own hc.invariant (hc.assertion e.1) hK.1 hsection
  refine ⟨hI, ?_, ?_⟩
  · intro t
    by_cases ht : t = e.1
    · rw [ht]
      exact hA
    · rw [hothers t ht]
      exact h.other hc.invariant (hc.assertion e.1) (hc.assertion t) (hK.2 t ht) hsection
  · intro e' he'
    rcases List.mem_append.mp he' with he' | he'
    · exact hc.outputs e' he'
    · rw [List.mem_singleton.mp he']
      exact hQ

/-- What an outline says holds at the start. -/
lemma Outline.holds_init (h : T.Outline I A G K Q) :
    Holds I A Q ([] : List ((ℕ × α) × List ω)) T.machine.init :=
  ⟨h.init, fun _ => h.start, fun _ he => absurd he List.not_mem_nil⟩

/-- **Outlines.** What an outline says holds at every point of a run in which no step disturbs
another thread. -/
theorem Outline.throughout (h : T.Outline I A G K Q)
    (hsteps : T.machine.EveryStep (Undisturbed G K) l) :
    T.machine.Throughout T.machine.init (Holds I A Q) l :=
  LogMachine.EveryStepFrom.throughout h.holds_init
    (fun _ _ _ _ _ _ hc hK hstep => h.step hc hK hstep) hsteps

/-- An outline whose steps never disturb another thread holds at the end of every run. -/
theorem Outline.of_run (h : T.Outline I A (fun _ _ _ => True) (fun _ _ _ _ => True) Q)
    (hrun : T.machine.Run l c) :
    Holds I A Q l c :=
  LogMachine.RunFrom.invariant (I := Holds I A Q) h.holds_init
    (fun _ _ _ _ _ _ hc hstep => h.step hc ⟨trivial, fun _ _ => trivial⟩ hstep) hrun

/-- A thread that has made no step is at the start. -/
lemma threads_eq_start (hrun : T.machine.Run l c) {t : ℕ} (ht : ∀ e ∈ l, e.1.1 ≠ t) :
    c.threads t = T.start := by
  refine LogMachine.RunFrom.invariant
    (I := fun l c => (∀ e ∈ l, e.1.1 ≠ t) → c.threads t = T.start) (fun _ => rfl) ?_ hrun ht
  intro l c e o c' _ ih hstep hl
  obtain ⟨-, hothers⟩ := of_machine_step hstep
  rw [hothers t (Ne.symm (hl (e, o) (List.mem_append_right _ (List.mem_singleton_self _))))]
  exact ih fun e' he' => hl e' (List.mem_append_left _ he')

/-- To see that the steps of a run leave the other threads undisturbed, it is enough to look at the
threads that make steps, when threads at the start cannot be disturbed. -/
lemma everyStep_undisturbed (ts : List ℕ) (hts : ∀ e ∈ l, e.1.1 ∈ ts)
    (hstart : ∀ s p a, K s p a T.start)
    (h : T.machine.EveryStep (fun _ c e => G c.shared (c.threads e.1) e.2 ∧
      ∀ t ∈ ts, t ≠ e.1 → K c.shared (c.threads e.1) e.2 (c.threads t)) l) :
    T.machine.EveryStep (Undisturbed G K) l := by
  intro l₁ e o l₂ c hl hrun
  obtain ⟨hG, hK⟩ := h l₁ e o l₂ c hl hrun
  refine ⟨hG, fun t ht => ?_⟩
  by_cases hmem : t ∈ ts
  · exact hK t hmem ht
  · have hidle : c.threads t = T.start := by
      refine threads_eq_start hrun fun e' he' heq => hmem ?_
      rw [← heq]
      exact hts e' (hl ▸ List.mem_append_left _ he')
    rw [hidle]
    exact hstart _ _ _

/-- To see that the steps of a concrete run leave the other threads undisturbed, execute it. -/
lemma everyStep_undisturbed_of_check {g : σ → π → α → Bool} {k : σ → π → α → π → Bool}
    (ts : List ℕ) (hrun : T.machine.Run l c) (hts : ∀ e ∈ l.map Prod.fst, e.1 ∈ ts)
    (hstart : ∀ s p a, k s p a T.start = true)
    (hcheck : T.machine.check (fun _ c e => g c.shared (c.threads e.1) e.2 &&
      ts.all fun t => decide (t = e.1) || k c.shared (c.threads e.1) e.2 (c.threads t))
      [] T.machine.init (l.map Prod.fst) = true) :
    T.machine.EveryStep
      (Undisturbed (fun s p a => g s p a = true) fun s p a q => k s p a q = true) l := by
  refine everyStep_undisturbed ts (fun e he => hts e.1 (List.mem_map_of_mem he)) hstart ?_
  intro l₁ e o l₂ c hl hrun₁
  have hstep := LogMachine.everyStep_of_check hrun hcheck l₁ e o l₂ c hl hrun₁
  simp only [Bool.and_eq_true, List.all_eq_true] at hstep
  refine ⟨hstep.1, fun t ht hne => ?_⟩
  simpa [hne] using hstep.2 t ht

/-- **Bounded sections.** If every step of a thread at an active position that produces no output
keeps the position active and decreases `μ`, then a thread at an active position produces an output
by its `μ`-th step at the latest, whatever the other threads do in between.

**Proof sketch.** Induction on the run: the steps of the other threads do not change the position.
-/
theorem exists_output (active : π → Prop) (μ : π → ℕ) (hpos : ∀ p, active p → 0 < μ p)
    (hμ : ∀ s p a s' p', active p → T.step s p a = some (s', p', []) → active p' ∧ μ p' < μ p)
    {t : ℕ} (hactive : active (c.threads t)) (hrun : T.machine.RunFrom c l c')
    (hcount : μ (c.threads t) ≤ l.countP fun e => e.1.1 = t) :
    ∃ a o c₁ c₂, ((t, a), o) ∈ l ∧ active (c₁.threads t) ∧
      T.machine.step c₁ (t, a) = some (c₂, o) ∧ o ≠ [] := by
  induction l generalizing c with
  | nil => exact absurd (hpos _ hactive) (Nat.not_lt.mpr hcount)
  | cons x l ih =>
    obtain ⟨⟨t', a⟩, o⟩ := x
    obtain ⟨c₁, hstep, hrest⟩ := T.machine.runFrom_cons.mp hrun
    obtain ⟨hsection, hothers⟩ := of_machine_step hstep
    by_cases hout : t' = t ∧ o ≠ []
    · obtain ⟨rfl, ho⟩ := hout
      exact ⟨a, o, c, c₁, List.mem_cons_self, hactive, hstep, ho⟩
    · -- the thread is still active, with enough steps left
      have hgoOn : active (c₁.threads t) ∧
          μ (c₁.threads t) ≤ l.countP fun e => e.1.1 = t := by
        rw [List.countP_cons] at hcount
        by_cases ht : t' = t
        · subst ht
          obtain rfl : o = [] := by simpa using hout
          obtain ⟨hact, hlt⟩ := hμ _ _ _ _ _ hactive hsection
          simp only [decide_true, if_true] at hcount
          refine ⟨hact, ?_⟩
          change μ (c₁.threads t') < _ at hlt
          omega
        · rw [hothers t (Ne.symm ht)]
          simp only [ht, decide_false, Bool.false_eq_true, if_false, Nat.add_zero] at hcount
          exact ⟨hactive, hcount⟩
      obtain ⟨a', o', c₂, c₃, hmem, hrest'⟩ := ih hgoOn.1 hrest hgoOn.2
      exact ⟨a', o', c₂, c₃, List.mem_cons_of_mem _ hmem, hrest'⟩

end ThreadSystem
