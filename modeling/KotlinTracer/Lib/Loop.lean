import Mathlib.Data.Nat.Notation
import Mathlib.Logic.Relation

set_option relaxedAutoImplicit false
set_option autoImplicit false

/-!
# Loops

A loop of an imperative program is given by its body, a partial function on the state of the loop:
`body s` is the state to go on with (`ForInStep.yield`), or the state with which the loop is left
(`ForInStep.done`), or `none` when the iteration has undefined behaviour. Both a `while` loop and a
`do … while` loop with breaks are of this form.

## Main definitions

* `Loop.run` — the loop with at most `n` iterations.
* `Loop.Visits` — the states in which an iteration of the loop starts.
* `Loop.TableAt` — a table of rows, one after the other, with an end mark behind the last one.

## Main results

* `Loop.exists_visits_of_run` — a loop that ends is left by an iteration that it visits.
* `Loop.exists_run_of_measure` — a loop whose iterations are defined, keep an invariant and decrease
  a measure ends.
* `Loop.exists_run_of_table` — a loop over the rows of a table ends at the end mark, with what its
  iterations establish of the rows.
-/

namespace Loop

variable {σ : Type*}

/-- The state in which the loop is left, after at most `n` iterations; `none` when an iteration is
undefined or when the loop is not left after `n` iterations. -/
def run (body : σ → Option (ForInStep σ)) : ℕ → σ → Option σ
  | 0, _ => none
  | n + 1, s =>
    match body s with
    | none => none
    | some (.done s') => some s'
    | some (.yield s') => run body n s'

/-- An iteration that starts in `a` goes on in `b`. -/
def Next (body : σ → Option (ForInStep σ)) (a b : σ) : Prop :=
  body a = some (.yield b)

/-- The loop that starts in `s` starts an iteration in `a`. -/
def Visits (body : σ → Option (ForInStep σ)) : σ → σ → Prop :=
  Relation.ReflTransGen (Next body)

section

variable {body : σ → Option (ForInStep σ)} {s a b r : σ} {n : ℕ}

lemma run_of_done (h : body s = some (.done r)) : run body (n + 1) s = some r := by
  rw [run, h]

lemma run_of_yield (h : body s = some (.yield b)) : run body (n + 1) s = run body n b := by
  rw [run, h]

lemma run_of_undefined (h : body s = none) : run body n s = none := by
  cases n with
  | zero => rfl
  | succ n => rw [run, h]

/-- The loop starts an iteration in its initial state. -/
lemma Visits.refl (body : σ → Option (ForInStep σ)) (s : σ) : Visits body s s :=
  Relation.ReflTransGen.refl

/-- After a visited state comes the state with which its iteration goes on. -/
lemma Visits.tail (h : Visits body s a) (hab : body a = some (.yield b)) : Visits body s b :=
  Relation.ReflTransGen.tail h hab

/-- What holds at the start and is kept by every iteration holds whenever an iteration starts. -/
lemma Visits.invariant {I : σ → Prop} (hstep : ∀ a b, I a → body a = some (.yield b) → I b)
    (hs : I s) (h : Visits body s a) : I a := by
  induction h with
  | refl => exact hs
  | tail _ hab ih => exact hstep _ _ ih hab

/-- The iteration that leaves the loop is one that it visits. -/
lemma exists_visits_of_run (h : run body n s = some r) :
    ∃ a, Visits body s a ∧ body a = some (.done r) := by
  induction n generalizing s with
  | zero => cases h
  | succ n ih =>
    rw [run] at h
    cases hbody : body s with
    | none => rw [hbody] at h; cases h
    | some step =>
      rw [hbody] at h
      cases step with
      | done s' =>
        obtain rfl : s' = r := Option.some.inj h
        exact ⟨s, Visits.refl body s, hbody⟩
      | yield s' =>
        obtain ⟨a, hvisits, hdone⟩ := ih h
        exact ⟨a, Relation.ReflTransGen.head hbody hvisits, hdone⟩

/-- A loop ends within `n` iterations if every iteration is defined and, unless it leaves the loop,
keeps `I` and decreases `μ`, which is below `n` at the start. -/
theorem exists_run_of_measure {I : σ → Prop} {μ : σ → ℕ}
    (hstep : ∀ a, I a → (∃ r, body a = some (.done r)) ∨
      ∃ b, body a = some (.yield b) ∧ I b ∧ μ b < μ a)
    (hs : I s) (hn : μ s < n) : ∃ r, run body n s = some r := by
  induction n generalizing s with
  | zero => exact absurd hn (Nat.not_lt_zero _)
  | succ n ih =>
    obtain ⟨r, hdone⟩ | ⟨b, hyield, hb, hlt⟩ := hstep s hs
    · exact ⟨r, run_of_done hdone⟩
    · rw [run_of_yield hyield]
      exact ih hb (by omega)

end

/-! ## Tables -/

section Tables

variable {α ρ : Type*} {rowAt : α → ρ → Prop} {endAt : α → Prop} {next : α → α}

/-- The rows lie one after the other from the position on, and the end mark behind the last one. -/
def TableAt (rowAt : α → ρ → Prop) (endAt : α → Prop) (next : α → α) : α → List ρ → Prop
  | p, [] => endAt p
  | p, row :: rows => rowAt p row ∧ TableAt rowAt endAt next (next p) rows

section

variable {body : α × σ → Option (ForInStep (α × σ))} {I : List ρ → σ → Prop} {p : α} {s : σ}
  {rows : List ρ} {n : ℕ}

/-- The loop over a table from a state with the rows before it on. -/
lemma exists_run_of_tableAt
    (hrow : ∀ p row rows s, rowAt p row → I rows s →
      ∃ s', body (p, s) = some (.yield (next p, s')) ∧ I (rows ++ [row]) s')
    (hend : ∀ p s, endAt p → body (p, s) = some (.done (p, s)))
    (before : List ρ) (htable : TableAt rowAt endAt next p rows)
    (hs : I before s) (hn : rows.length < n) :
    ∃ q s', run body n (p, s) = some (q, s') ∧ I (before ++ rows) s' := by
  induction rows generalizing before p s n with
  | nil =>
    obtain ⟨m, rfl⟩ := Nat.exists_eq_add_of_lt hn
    refine ⟨p, s, run_of_done (hend p s htable), ?_⟩
    rwa [List.append_nil]
  | cons row rows ih =>
    obtain ⟨m, rfl⟩ := Nat.exists_eq_add_of_lt hn
    obtain ⟨s', hyield, hs'⟩ := hrow p row before s htable.1 hs
    rw [run_of_yield hyield]
    obtain ⟨q, r, hrun, hr⟩ :=
      ih _ htable.2 hs' (n := (row :: rows).length + m) (by rw [List.length_cons]; omega)
    refine ⟨q, r, hrun, ?_⟩
    rwa [List.append_assoc] at hr

/-- A loop that moves from row to row and is left at the end mark ends once it may take one more
iteration than there are rows, and what its iterations establish row by row, it establishes of the
whole table. -/
theorem exists_run_of_table
    (hrow : ∀ p row rows s, rowAt p row → I rows s →
      ∃ s', body (p, s) = some (.yield (next p, s')) ∧ I (rows ++ [row]) s')
    (hend : ∀ p s, endAt p → body (p, s) = some (.done (p, s)))
    (htable : TableAt rowAt endAt next p rows) (hs : I [] s) (hn : rows.length < n) :
    ∃ q s', run body n (p, s) = some (q, s') ∧ I rows s' :=
  exists_run_of_tableAt hrow hend [] htable hs hn

end

end Tables

end Loop
