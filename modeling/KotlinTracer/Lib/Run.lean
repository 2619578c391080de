import Mathlib.Data.List.Induction

set_option relaxedAutoImplicit false
set_option autoImplicit false

/-!
# Runs of partial machines and their logs

A machine with a partial step function: `step s e` is the state after the event `e` together
with the outputs the step produced, or `none` when the step has undefined behaviour. A run is
recorded by its *log*, the list of its events in order, each with the outputs of its step, so
that a property of the history of a run is a property of its log.

## Main definitions

* `LogMachine` — an initial state and a partial step function with outputs.
* `LogMachine.exec` — the state and the log after a list of events.
* `LogMachine.RunFrom`, `LogMachine.Run` — `l` is the log of a run from a state, from the
  initial state.
* `LogMachine.Reaches` — executing the events from the initial state ends in a state.
* `LogMachine.EveryStepFrom`, `LogMachine.EveryStep` — a property of the log, the state and the
  event holds before every step of a run.
* `LogMachine.Throughout` — a property of the log and the state holds at every point of a run.
* `List.AtEvery`, `List.Somewhere` — a property of a position of a list holds at every position, at
  some position.

## Main results

* `LogMachine.runFrom_append`, `LogMachine.runFrom_concat` — a run splits at every point of its
  log.
* `LogMachine.RunFrom.invariant`, `LogMachine.Reaches.invariant` — what holds at the start and is
  preserved by every step holds at the end of every run; the invariant may speak about the log, or
  about the events so far.
* `LogMachine.EveryStepFrom.throughout` — the same for runs all whose steps meet a condition, and
  `LogMachine.throughout_iff_everyStepFrom` when the other steps break the invariant.
* `LogMachine.Run.exists_simulating` — a machine whose steps are matched by runs of another machine
  has runs that are matched by runs of that machine.
-/

/-! ## Positions of a list -/

/-- `P` holds at every position of the list: of the elements before it and the element there. -/
def List.AtEvery {α : Type*} (P : List α → α → Prop) (l : List α) : Prop :=
  ∀ l₁ a l₂, l = l₁ ++ a :: l₂ → P l₁ a

namespace List

variable {α : Type*} {P Q : List α → α → Prop}

@[simp] lemma atEvery_nil : AtEvery P [] := by
  intro l₁ a l₂ h
  simp at h

/-- The positions of a list and one more element. -/
lemma atEvery_concat {l : List α} {a : α} : AtEvery P (l ++ [a]) ↔ AtEvery P l ∧ P l a := by
  constructor
  · intro h
    refine ⟨fun l₁ b l₂ hl => h l₁ b (l₂ ++ [a]) ?_, h l a [] rfl⟩
    rw [hl]; simp
  · rintro ⟨hl, ha⟩ l₁ b l₂ heq
    rcases l₂.eq_nil_or_concat with rfl | ⟨l₂, c, rfl⟩
    · obtain ⟨rfl, h⟩ := append_inj_left' heq rfl, append_inj_right' heq rfl
      simp only [cons.injEq, and_true] at h
      rw [← h]; exact ha
    · rw [concat_eq_append, ← cons_append, ← append_assoc] at heq
      exact hl l₁ b l₂ (append_inj_left' heq rfl)

/-- By indices. -/
lemma atEvery_iff {l : List α} :
    AtEvery P l ↔ ∀ i : Fin l.length, P (l.take i) (l.get i) := by
  constructor
  · intro h i
    exact h (l.take i) (l.get i) (l.drop (i + 1)) (by simp)
  · rintro h l₁ a l₂ rfl
    have hi := h ⟨l₁.length, by simp⟩
    simpa using hi

instance [∀ l a, Decidable (P l a)] (l : List α) : Decidable (AtEvery P l) :=
  decidable_of_iff _ atEvery_iff.symm

/-- The positions of two lists, one after the other. -/
lemma atEvery_append {l₁ l₂ : List α} :
    AtEvery P (l₁ ++ l₂) ↔ AtEvery P l₁ ∧ AtEvery (fun l a => P (l₁ ++ l) a) l₂ := by
  induction l₂ using List.reverseRecOn with
  | nil => simp
  | append_singleton l₂ a ih =>
    rw [← append_assoc, atEvery_concat, atEvery_concat, ih, and_assoc]

/-- `P` holds at some position of the list. -/
def Somewhere (P : List α → α → Prop) (l : List α) : Prop :=
  ∃ l₁ a l₂, l = l₁ ++ a :: l₂ ∧ P l₁ a

@[simp] lemma not_somewhere_nil : ¬ Somewhere P [] := by
  rintro ⟨l₁, a, l₂, h, -⟩
  simp at h

/-- The positions of a list and one more element. -/
lemma somewhere_concat {l : List α} {a : α} :
    Somewhere P (l ++ [a]) ↔ Somewhere P l ∨ P l a := by
  have hdual : ∀ l, Somewhere P l ↔ ¬ AtEvery (fun l a => ¬ P l a) l := by
    intro l
    simp only [Somewhere, AtEvery, not_forall, not_not, exists_prop]
  rw [hdual, hdual, atEvery_concat, not_and_or, not_not]

end List

/-! ## Machines -/

/-- A machine with states `σ`, events `ε` and outputs `ω`, whose step is partial. -/
structure LogMachine (σ ε ω : Type*) where
  /-- The initial state. -/
  init : σ
  /-- The state after an event and the outputs of the step; `none` is undefined behaviour. -/
  step : σ → ε → Option (σ × List ω)

namespace LogMachine

variable {σ ε ω : Type*} (M : LogMachine σ ε ω)

/-- Execute a list of events from `s`, logging each event with the outputs of its step. -/
def exec : σ → List ε → Option (σ × List (ε × List ω))
  | s, [] => some (s, [])
  | s, e :: es =>
    (M.step s e).bind fun p => (exec p.1 es).map fun q => (q.1, (e, p.2) :: q.2)

/-- `l` is the log of a run from `s₀` to `s`. -/
def RunFrom (s₀ : σ) (l : List (ε × List ω)) (s : σ) : Prop :=
  M.exec s₀ (l.map Prod.fst) = some (s, l)

/-- `l` is the log of a run from the initial state to `s`. -/
def Run (l : List (ε × List ω)) (s : σ) : Prop := M.RunFrom M.init l s

/-- Executing a nonempty list of events is one step followed by the rest. -/
lemma exec_cons_eq_some {s s'' : σ} {e : ε} {es : List ε} {l : List (ε × List ω)} :
    M.exec s (e :: es) = some (s'', l) ↔
      ∃ s' o l', M.step s e = some (s', o) ∧ M.exec s' es = some (s'', l') ∧
        l = (e, o) :: l' := by
  simp only [exec, Option.bind_eq_some_iff, Option.map_eq_some_iff, Prod.mk.injEq]
  constructor
  · rintro ⟨⟨s', o⟩, hstep, ⟨t, l'⟩, hexec, rfl, rfl⟩
    exact ⟨s', o, l', hstep, hexec, rfl⟩
  · rintro ⟨s', o, l', hstep, hexec, rfl⟩
    exact ⟨(s', o), hstep, (s'', l'), hexec, rfl, rfl⟩

/-- The events of the log are the events that were executed. -/
lemma map_fst_of_exec {s s' : σ} {es : List ε} {l : List (ε × List ω)}
    (h : M.exec s es = some (s', l)) : l.map Prod.fst = es := by
  induction es generalizing s l with
  | nil =>
    simp only [exec, Option.some.injEq, Prod.mk.injEq] at h
    rw [← h.2]; rfl
  | cons e es ih =>
    obtain ⟨s₁, o, l', _, hl', rfl⟩ := M.exec_cons_eq_some.mp h
    rw [List.map_cons, ih hl']

/-- Executing events logs a run. -/
lemma runFrom_of_exec {s s' : σ} {es : List ε} {l : List (ε × List ω)}
    (h : M.exec s es = some (s', l)) : M.RunFrom s l s' := by
  rw [RunFrom, M.map_fst_of_exec h]; exact h

/-- The empty log is the log of the run that does nothing. -/
@[simp] lemma runFrom_nil {s₀ s : σ} : M.RunFrom s₀ [] s ↔ s = s₀ := by
  simp [RunFrom, exec, eq_comm]

/-- A run whose log starts with `(e, o)` starts with that step. -/
lemma runFrom_cons {s₀ s : σ} {e : ε} {o : List ω} {l : List (ε × List ω)} :
    M.RunFrom s₀ ((e, o) :: l) s ↔ ∃ s', M.step s₀ e = some (s', o) ∧ M.RunFrom s' l s := by
  rw [RunFrom, List.map_cons, exec_cons_eq_some]
  constructor
  · rintro ⟨s', o', l', hstep, hexec, heq⟩
    simp only [List.cons.injEq, Prod.mk.injEq, true_and] at heq
    obtain ⟨rfl, rfl⟩ := heq
    exact ⟨s', hstep, hexec⟩
  · rintro ⟨s', hstep, hrun⟩
    exact ⟨s', o, l, hstep, hrun, rfl⟩

/-- A run splits at every point of its log. -/
lemma runFrom_append {s₀ s : σ} {l₁ l₂ : List (ε × List ω)} :
    M.RunFrom s₀ (l₁ ++ l₂) s ↔ ∃ s', M.RunFrom s₀ l₁ s' ∧ M.RunFrom s' l₂ s := by
  induction l₁ generalizing s₀ with
  | nil => simp
  | cons p l₁ ih =>
    obtain ⟨e, o⟩ := p
    simp only [List.cons_append, runFrom_cons, ih]
    constructor
    · rintro ⟨t, hstep, t', h₁, h₂⟩
      exact ⟨t', ⟨t, hstep, h₁⟩, h₂⟩
    · rintro ⟨t', ⟨t, hstep, h₁⟩, h₂⟩
      exact ⟨t, hstep, t', h₁, h₂⟩

/-- A run is extended by one step at its end. -/
lemma runFrom_concat {s₀ s' : σ} {l : List (ε × List ω)} {e : ε} {o : List ω} :
    M.RunFrom s₀ (l ++ [(e, o)]) s' ↔
      ∃ s, M.RunFrom s₀ l s ∧ M.step s e = some (s', o) := by
  rw [runFrom_append]
  refine exists_congr fun s => and_congr_right fun _ => ?_
  rw [runFrom_cons]
  simp

/-- A run splits around each step of its log. -/
lemma Run.split {M : LogMachine σ ε ω} {l₁ l₂ : List (ε × List ω)} {e : ε} {o : List ω} {s : σ}
    (h : M.Run (l₁ ++ (e, o) :: l₂) s) :
    ∃ s₁ s₂, M.Run l₁ s₁ ∧ M.step s₁ e = some (s₂, o) ∧ M.RunFrom s₂ l₂ s := by
  obtain ⟨s₁, h₁, h₂⟩ := M.runFrom_append.mp h
  obtain ⟨s₂, hstep, h₂⟩ := M.runFrom_cons.mp h₂
  exact ⟨s₁, s₂, h₁, hstep, h₂⟩

/-- A log determines the state its run ends in. -/
lemma RunFrom.unique {M : LogMachine σ ε ω} {s₀ s s' : σ} {l : List (ε × List ω)}
    (h : M.RunFrom s₀ l s) (h' : M.RunFrom s₀ l s') : s = s' := by
  rw [RunFrom] at h h'
  rw [h] at h'
  simpa using h'

/-- **Invariants of runs.** A property of logs and states that holds of the empty log and is
preserved by every step of a run holds at the end of every run.

**Proof sketch.** Induction on the log from its end: a run with a nonempty log is a run followed
by one step (`runFrom_concat`). -/
theorem RunFrom.invariant {M : LogMachine σ ε ω} {s₀ : σ} {I : List (ε × List ω) → σ → Prop}
    (hnil : I [] s₀)
    (hstep : ∀ l s e o s', M.RunFrom s₀ l s → I l s → M.step s e = some (s', o) →
      I (l ++ [(e, o)]) s')
    {l : List (ε × List ω)} {s : σ} (h : M.RunFrom s₀ l s) : I l s := by
  induction l using List.reverseRecOn generalizing s with
  | nil =>
    rw [runFrom_nil] at h
    rw [h]; exact hnil
  | append_singleton l p ih =>
    obtain ⟨e, o⟩ := p
    obtain ⟨t, hl, hs⟩ := M.runFrom_concat.mp h
    exact hstep l t e o s hl (ih hl) hs

/-- A property of states that holds initially and is preserved by every step holds in every
state a run reaches. -/
theorem Run.state_invariant {M : LogMachine σ ε ω} {I : σ → Prop} (hinit : I M.init)
    (hstep : ∀ s e o s', I s → M.step s e = some (s', o) → I s')
    {l : List (ε × List ω)} {s : σ} (h : M.Run l s) : I s :=
  RunFrom.invariant (I := fun _ s => I s) hinit
    (fun _ s e o s' _ hI hs => hstep s e o s' hI hs) h

/-! ## States reached by events -/

/-- Executing the events `es` from the initial state ends in `s`. -/
def Reaches (es : List ε) (s : σ) : Prop := ∃ l, M.Run l s ∧ l.map Prod.fst = es

/-- A state is reached by one more event from a state reached before. -/
lemma reaches_concat {es : List ε} {e : ε} {s' : σ} :
    M.Reaches (es ++ [e]) s' ↔ ∃ s o, M.Reaches es s ∧ M.step s e = some (s', o) := by
  constructor
  · rintro ⟨l, hl, hes⟩
    obtain ⟨l₁, x, rfl, hl₁, hx⟩ := List.map_eq_append_iff.mp hes
    obtain ⟨⟨a, o⟩, rfl, rfl⟩ := List.map_eq_singleton_iff.mp hx
    obtain ⟨s, hs, hstep⟩ := M.runFrom_concat.mp hl
    exact ⟨s, o, ⟨l₁, hs, hl₁⟩, hstep⟩
  · rintro ⟨s, o, ⟨l, hl, hes⟩, hstep⟩
    exact ⟨l ++ [(e, o)], M.runFrom_concat.mpr ⟨s, hl, hstep⟩, by simp [hes]⟩

/-- The events determine the state. -/
lemma Reaches.unique {M : LogMachine σ ε ω} {es : List ε} {s s' : σ} (h : M.Reaches es s)
    (h' : M.Reaches es s') : s = s' := by
  obtain ⟨l, hl, rfl⟩ := h
  obtain ⟨l', hl', heq⟩ := h'
  rw [Run, RunFrom] at hl hl'
  rw [heq, hl] at hl'
  simpa using congrArg (Option.map Prod.fst) hl'

/-- **Invariants of reached states**, which may speak about the events that led there. -/
theorem Reaches.invariant {M : LogMachine σ ε ω} {I : List ε → σ → Prop} (hnil : I [] M.init)
    (hstep : ∀ es s e o s', M.Reaches es s → I es s → M.step s e = some (s', o) →
      I (es ++ [e]) s')
    {es : List ε} {s : σ} (h : M.Reaches es s) : I es s := by
  obtain ⟨l, hl, rfl⟩ := h
  refine RunFrom.invariant (I := fun l s => I (l.map Prod.fst) s) hnil ?_ hl
  intro l s e o s' hrun hI hs
  rw [List.map_append]
  exact hstep _ s e o s' ⟨l, hrun, rfl⟩ hI hs

/-- Every initial part of the events reaches a state. -/
lemma Reaches.of_append {M : LogMachine σ ε ω} {es₁ es₂ : List ε} {s : σ}
    (h : M.Reaches (es₁ ++ es₂) s) : ∃ s₁, M.Reaches es₁ s₁ := by
  obtain ⟨l, hl, hes⟩ := h
  obtain ⟨l₁, l₂, rfl, hl₁, _⟩ := List.map_eq_append_iff.mp hes
  obtain ⟨s₁, hs₁, _⟩ := M.runFrom_append.mp hl
  exact ⟨s₁, l₁, hs₁, hl₁⟩

/-- Executing events on concrete data gives a state that they reach. -/
lemma exists_run_of_map_exec {M : LogMachine σ ε ω} {es : List ε} {β : Type*}
    {f : σ × List (ε × List ω) → β} {b : β} (h : (M.exec M.init es).map f = some b) :
    ∃ l s, M.Run l s ∧ l.map Prod.fst = es ∧ f (s, l) = b := by
  obtain ⟨⟨s, l⟩, hexec, hb⟩ := Option.map_eq_some_iff.mp h
  exact ⟨l, s, M.runFrom_of_exec hexec, M.map_fst_of_exec hexec, hb⟩

/-- What executing events on concrete data gives is what their run gives. -/
lemma RunFrom.of_map_exec {M : LogMachine σ ε ω} {s₀ s : σ} {l : List (ε × List ω)}
    (hrun : M.RunFrom s₀ l s) {β : Type*} {f : σ × List (ε × List ω) → β} {b : β}
    (h : (M.exec s₀ (l.map Prod.fst)).map f = some b) : f (s, l) = b := by
  rw [RunFrom] at hrun
  rw [hrun] at h
  exact Option.some.inj h

/-- Executing events on concrete data, with the last step of the run. -/
lemma exists_last_of_map_exec {M : LogMachine σ ε ω} {es : List ε} {e : ε} {β : Type*}
    {f : σ × List (ε × List ω) → β} {b : β} (h : (M.exec M.init (es ++ [e])).map f = some b) :
    ∃ l s o s', M.Run l s ∧ l.map Prod.fst = es ∧ M.step s e = some (s', o) ∧
      f (s', l ++ [(e, o)]) = b := by
  obtain ⟨l, s', hrun, hes, hb⟩ := exists_run_of_map_exec h
  obtain ⟨l₁, x, rfl, hl₁, hx⟩ := List.map_eq_append_iff.mp hes
  obtain ⟨⟨e', o⟩, rfl, rfl⟩ := List.map_eq_singleton_iff.mp hx
  obtain ⟨s, hs, hstep⟩ := M.runFrom_concat.mp hrun
  exact ⟨l₁, s, o, s', hs, hl₁, hstep, hb⟩

/-! ## Simulations -/

section Simulation

variable {M} {σ' ε' ω' β : Type*} {N : LogMachine σ' ε' ω'} {R : σ → σ' → Prop}
  {f : ε × List ω → List β} {g : ε' × List ω' → List β}

/-- **Simulations.** If every step of `M` from a state that a run reaches is matched by a run of
`N`, of any length, in which the same is observed, then so is every run of `M`. -/
theorem Run.exists_simulating (hinit : R M.init N.init)
    (hstep : ∀ l s e o s' a, M.Run l s → R s a → M.step s e = some (s', o) →
      ∃ l' a', N.RunFrom a l' a' ∧ R s' a' ∧ l'.flatMap g = f (e, o))
    {l : List (ε × List ω)} {s : σ} (h : M.Run l s) :
    ∃ l' a, N.Run l' a ∧ R s a ∧ l'.flatMap g = l.flatMap f := by
  refine RunFrom.invariant
    (I := fun l s => ∃ l' a, N.Run l' a ∧ R s a ∧ l'.flatMap g = l.flatMap f)
    ⟨[], N.init, N.runFrom_nil.mpr rfl, hinit, rfl⟩ ?_ h
  rintro l s e o s' hrun ⟨l₁, a, hl₁, hR, hobserved⟩ hs
  obtain ⟨l₂, a', hl₂, hR', hstep'⟩ := hstep l s e o s' a hrun hR hs
  refine ⟨l₁ ++ l₂, a', N.runFrom_append.mpr ⟨a, hl₁, hl₂⟩, hR', ?_⟩
  rw [List.flatMap_append, List.flatMap_append, hobserved, hstep', List.flatMap_singleton]

end Simulation

/-! ## Conditions on the steps of a run -/

/-- `P` holds before every step of the run from `s₀` with log `l`: of the log so far, of the state,
and of the event that is executed there. -/
def EveryStepFrom (s₀ : σ) (P : List (ε × List ω) → σ → ε → Prop) (l : List (ε × List ω)) : Prop :=
  ∀ l₁ e o l₂ s, l = l₁ ++ (e, o) :: l₂ → M.RunFrom s₀ l₁ s → P l₁ s e

/-- `P` holds before every step of the run with log `l`. -/
def EveryStep (P : List (ε × List ω) → σ → ε → Prop) (l : List (ε × List ω)) : Prop :=
  M.EveryStepFrom M.init P l

/-- `I` holds at every point of the run from `s₀` with log `l`: of the log so far and the state. -/
def Throughout (s₀ : σ) (I : List (ε × List ω) → σ → Prop) (l : List (ε × List ω)) : Prop :=
  ∀ l₁ l₂ s, l = l₁ ++ l₂ → M.RunFrom s₀ l₁ s → I l₁ s

variable {s₀ : σ} {P : List (ε × List ω) → σ → ε → Prop} {I : List (ε × List ω) → σ → Prop}

@[simp] lemma everyStepFrom_nil : M.EveryStepFrom s₀ P [] := by
  intro l₁ e o l₂ s h
  simp at h

/-- The steps of a run and one more step. -/
lemma everyStepFrom_concat {l : List (ε × List ω)} {s : σ} (hrun : M.RunFrom s₀ l s) {e : ε}
    {o : List ω} :
    M.EveryStepFrom s₀ P (l ++ [(e, o)]) ↔ M.EveryStepFrom s₀ P l ∧ P l s e := by
  have hsplit : ∀ l, M.EveryStepFrom s₀ P l ↔
      List.AtEvery (fun l₁ x => ∀ s, M.RunFrom s₀ l₁ s → P l₁ s x.1) l :=
    fun l => ⟨fun h l₁ x l₂ hl s => h l₁ x.1 x.2 l₂ s hl,
      fun h l₁ e o l₂ s hl => h l₁ (e, o) l₂ hl s⟩
  rw [hsplit, hsplit, List.atEvery_concat]
  refine and_congr_right fun _ => ⟨fun h => h s hrun, fun h s' hs' => ?_⟩
  rw [← RunFrom.unique hrun hs']
  exact h

/-- The steps of an initial part of a run. -/
lemma EveryStepFrom.of_append {M : LogMachine σ ε ω} {l₁ l₂ : List (ε × List ω)}
    (h : M.EveryStepFrom s₀ P (l₁ ++ l₂)) : M.EveryStepFrom s₀ P l₁ := by
  intro m e o m' s hm
  exact h m e o (m' ++ l₂) s (by rw [hm]; simp)

/-- The points of an initial part of a run. -/
lemma Throughout.of_append {M : LogMachine σ ε ω} {l₁ l₂ : List (ε × List ω)}
    (h : M.Throughout s₀ I (l₁ ++ l₂)) : M.Throughout s₀ I l₁ := by
  intro m m' s hm
  exact h m (m' ++ l₂) s (by rw [hm]; simp)

/-- The last point of a run. -/
lemma Throughout.last {M : LogMachine σ ε ω} {l : List (ε × List ω)} {s : σ}
    (h : M.Throughout s₀ I l) (hrun : M.RunFrom s₀ l s) : I l s :=
  h l [] s (List.append_nil l).symm hrun

/-- **Invariants of the runs whose steps meet a condition.** What holds at the start and is
preserved by every step that meets `P` holds at every point of a run all whose steps meet `P`. -/
theorem EveryStepFrom.throughout {M : LogMachine σ ε ω} (hnil : I [] s₀)
    (hstep : ∀ l s e o s', M.RunFrom s₀ l s → I l s → P l s e → M.step s e = some (s', o) →
      I (l ++ [(e, o)]) s')
    {l : List (ε × List ω)} (h : M.EveryStepFrom s₀ P l) : M.Throughout s₀ I l := by
  intro l₁ l₂ s hl hrun
  subst hl
  refine RunFrom.invariant (I := fun l s => M.EveryStepFrom s₀ P l → I l s) (fun _ => hnil) ?_ hrun
    h.of_append
  intro l s e o s' hrun ih hs hP
  obtain ⟨hl, he⟩ := (M.everyStepFrom_concat hrun).mp hP
  exact hstep l s e o s' hrun (ih hl) he hs

/-- **Invariants that hold exactly under a condition.** If the steps that meet `P` preserve `I` and
the others break it, then `I` holds at every point of a run exactly if all its steps meet `P`. -/
theorem throughout_iff_everyStepFrom {M : LogMachine σ ε ω} (hnil : I [] s₀)
    (hkeep : ∀ l s e o s', M.RunFrom s₀ l s → I l s → P l s e → M.step s e = some (s', o) →
      I (l ++ [(e, o)]) s')
    (hbreak : ∀ l s e o s', M.RunFrom s₀ l s → ¬ P l s e → M.step s e = some (s', o) →
      ¬ I (l ++ [(e, o)]) s')
    {l : List (ε × List ω)} {s : σ} (hrun : M.RunFrom s₀ l s) :
    M.Throughout s₀ I l ↔ M.EveryStepFrom s₀ P l := by
  refine ⟨?_, fun h => h.throughout hnil hkeep⟩
  rintro h l₁ e o l₂ s₁ rfl hrun₁
  by_contra he
  obtain ⟨t, hrun₁', hrest⟩ := M.runFrom_append.mp hrun
  obtain ⟨s₂, hstep, -⟩ := M.runFrom_cons.mp hrest
  obtain rfl := hrun₁.unique hrun₁'
  have hrun₂ := M.runFrom_concat.mpr ⟨s₁, hrun₁, hstep⟩
  exact hbreak l₁ s₁ e o s₂ hrun₁ he hstep (h (l₁ ++ [(e, o)]) l₂ s₂ (by simp) hrun₂)

/-- The steps of a run from the initial state and one more step. -/
lemma everyStep_concat {l : List (ε × List ω)} {s : σ} (hrun : M.Run l s) {e : ε} {o : List ω} :
    M.EveryStep P (l ++ [(e, o)]) ↔ M.EveryStep P l ∧ P l s e :=
  M.everyStepFrom_concat hrun

/-- Check a condition while executing events. -/
def check (q : List (ε × List ω) → σ → ε → Bool) : List (ε × List ω) → σ → List ε → Bool
  | _, _, [] => true
  | l, s, e :: es =>
    q l s e && match M.step s e with
      | none => true
      | some (s', o) => check q (l ++ [(e, o)]) s' es

/-- A condition that was checked while executing from `s₀` holds at every step.

**Proof sketch.** Induction on the part of the log that is still to be executed, for every part
`l₁` that has been executed. -/
lemma everyStepFrom_of_check {M : LogMachine σ ε ω} {q : List (ε × List ω) → σ → ε → Bool}
    {l : List (ε × List ω)} {s : σ} (hrun : M.RunFrom s₀ l s)
    (h : M.check q [] s₀ (l.map Prod.fst) = true) :
    M.EveryStepFrom s₀ (fun l s e => q l s e = true) l := by
  have hfrom : ∀ l₁ l₂ s₁, M.RunFrom s₀ l₁ s₁ → M.RunFrom s₁ l₂ s →
      M.check q l₁ s₁ (l₂.map Prod.fst) = true →
      M.EveryStepFrom s₀ (fun l s e => q l s e = true) l₁ →
      M.EveryStepFrom s₀ (fun l s e => q l s e = true) (l₁ ++ l₂) := by
    intro l₁ l₂
    induction l₂ generalizing l₁ with
    | nil =>
      intro s₁ _ _ _ h₁
      simpa using h₁
    | cons x l₂ ih =>
      obtain ⟨e, o⟩ := x
      intro s₁ hs₁ hl₂ hcheck h₁
      obtain ⟨s₂, hstep, hl₂⟩ := M.runFrom_cons.mp hl₂
      rw [List.map_cons, check, Bool.and_eq_true, hstep] at hcheck
      have hconcat := (M.everyStepFrom_concat hs₁ (o := o)).mpr ⟨h₁, hcheck.1⟩
      have hrest := ih (l₁ ++ [(e, o)]) s₂ (M.runFrom_concat.mpr ⟨s₁, hs₁, hstep⟩) hl₂ hcheck.2
        hconcat
      simpa using hrest
  have hall := hfrom [] l s₀ (M.runFrom_nil.mpr rfl) hrun h M.everyStepFrom_nil
  simpa using hall

/-- A condition that was checked while executing from the initial state holds at every step. -/
lemma everyStep_of_check {M : LogMachine σ ε ω} {q : List (ε × List ω) → σ → ε → Bool}
    {l : List (ε × List ω)} {s : σ} (hrun : M.Run l s)
    (h : M.check q [] M.init (l.map Prod.fst) = true) :
    M.EveryStep (fun l s e => q l s e = true) l :=
  everyStepFrom_of_check hrun h

end LogMachine
