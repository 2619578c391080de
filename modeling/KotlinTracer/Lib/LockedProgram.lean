import KotlinTracer.Lib.CellProgram
import KotlinTracer.Lib.SharedMutex

set_option relaxedAutoImplicit false
set_option autoImplicit false

/-!
# Programs under a reader–writer lock

Threads call programs on shared cells; every call takes the lock of the cells, shared or
exclusively, and holds it until it ends. A call that cannot take the lock does not begin. An
exclusive call has the cells for itself. Calls that hold the lock shared may run at the same time,
and are atomic as long as they do not conflict among themselves.

## Main definitions

* `LockedProgram.system` — the threads that call programs under the lock.
* `LockedProgram.SharedApart` — a step of a call that holds the lock shared does not conflict with
  what the other calls that hold it shared have done.

## Main results

* `LockedProgram.guards` — a thread holds the lock exactly during its calls.
* `LockedProgram.exists_serial` — the calls of a run whose shared calls do not conflict can be
  executed one after the other.
* `LockedProgram.exists_run_of_serial` — the calls executed one after the other are the steps of a
  machine on the states that the cells represent.
-/

namespace LockedProgram

open CellProgram SharedMutex

variable {κ : Type} {V : κ → Type} {ρ ω : Type}

/-- The lock and the cells. -/
structure Memory (V : κ → Type) where
  mutex : SharedMutex := {}
  cells : ∀ k, V k

/-- How a thread holds the lock. -/
@[simp] def holds (mode : ρ → Mode) : Position V ρ ω → Option Mode
  | .idle => none
  | .running r _ _ => some (mode r)

/-- Take or release the lock, when a call begins or ends; `none` while it cannot be taken. -/
def change : Option Mode → Option Mode → SharedMutex → Option SharedMutex
  | none, some .shared, m => m.lockShared
  | none, some .exclusive, m => m.lock
  | some .shared, none, m => some m.unlockShared
  | some .exclusive, none, m => some m.unlock
  | _, _, m => some m

/-- A change of the lock that keeps the way to hold it, if it is held before and after. -/
lemma transition_of_change {h h' : Option Mode} {m m' : SharedMutex}
    (hsame : ∀ a b, h = some a → h' = some b → a = b) (hchange : change h h' m = some m') :
    Transition h m h' m' := by
  cases h with
  | none =>
    cases h' with
    | none =>
      cases hchange
      exact .keep none m
    | some mode =>
      cases mode with
      | shared => exact .lockShared hchange
      | exclusive => exact .lock hchange
  | some mode =>
    cases h' with
    | none =>
      cases mode with
      | shared =>
        cases hchange
        exact .unlockShared m
      | exclusive =>
        cases hchange
        exact .unlock m
    | some mode' =>
      obtain rfl := hsame mode mode' rfl rfl
      cases mode <;> cases hchange <;> exact .keep _ m

variable [DecidableEq κ] (program : ρ → CellProgram V (List ω)) (mode : ρ → Mode)

/-- One step of a thread: a step of its program, and with the beginning and the end of a call the
change of the lock. -/
def step (s : Memory V) (p : Position V ρ ω) (act : Action ρ) :
    Option (Memory V × Position V ρ ω × List (ρ × List ω)) :=
  (CellProgram.step program s.cells p act).bind fun r =>
    (change (holds mode p) (holds mode r.2.1) s.mutex).map fun mutex =>
      (⟨mutex, r.1⟩, r.2.1, r.2.2)

/-- The threads that call programs under the lock, on cells that are `init` at first. -/
def system (init : ∀ k, V k) :
    ThreadSystem (Memory V) (Position V ρ ω) (Action ρ) (ρ × List ω) where
  init := ⟨{}, init⟩
  start := .idle
  step := step program mode

variable {program mode}

/-- A step of a thread is a step of its program with a change of the lock. -/
lemma of_step {s s' : Memory V} {p p' : Position V ρ ω} {act : Action ρ} {o : List (ρ × List ω)}
    (h : step program mode s p act = some (s', p', o)) :
    CellProgram.step program s.cells p act = some (s'.cells, p', o) ∧
      change (holds mode p) (holds mode p') s.mutex = some s'.mutex := by
  obtain ⟨⟨cells, q, o'⟩, hstep, h⟩ := Option.bind_eq_some_iff.mp h
  obtain ⟨mutex, hmutex, h⟩ := Option.map_eq_some_iff.mp h
  cases h
  exact ⟨hstep, hmutex⟩

/-- A thread does not go from one call to another in one step. -/
lemma holds_of_step {s s' : ∀ k, V k} {p p' : Position V ρ ω} {act : Action ρ}
    {o : List (ρ × List ω)} (h : CellProgram.step program s p act = some (s', p', o))
    {a b : Mode} (ha : holds mode p = some a) (hb : holds mode p' = some b) : a = b := by
  cases p with
  | idle => cases ha
  | running r F rest =>
    rcases step_running h with rfl | ⟨F', rest', rfl⟩
    · cases hb
    · exact Option.some.inj (ha.symm.trans hb)

/-- **A thread holds the lock exactly during its calls.** -/
lemma guards (init : ∀ k, V k) :
    Guards (system program mode init) Memory.mutex (holds mode) where
  init := rfl
  start := rfl
  step h := by
    obtain ⟨hstep, hchange⟩ := of_step h
    exact transition_of_change (fun a b => holds_of_step hstep) hchange

variable {init : ∀ k, V k} {l : List ((ℕ × Action ρ) × List (ρ × List ω))}
  {c : ThreadSystem.Conf (Memory V) (Position V ρ ω)}

/-- Without the lock, a run is a run of the threads that call the programs. -/
lemma run_cells (hrun : (system program mode init).machine.Run l c) :
    (CellProgram.system program init).machine.Run l ⟨c.shared.cells, c.threads⟩ := by
  refine LogMachine.RunFrom.invariant
    (I := fun l (c : ThreadSystem.Conf (Memory V) (Position V ρ ω)) =>
      (CellProgram.system program init).machine.Run l ⟨c.shared.cells, c.threads⟩)
    ((LogMachine.runFrom_nil _).mpr rfl) ?_ hrun
  intro l c e o c' _ ih hstep
  simp only [ThreadSystem.machine, Option.map_eq_some_iff, Prod.exists, Prod.mk.injEq] at hstep
  obtain ⟨s, p, o', hsection, rfl, rfl⟩ := hstep
  refine (LogMachine.runFrom_concat _).mpr ⟨_, ih, ?_⟩
  obtain ⟨hcells, -⟩ := of_step hsection
  simp only [ThreadSystem.machine, Option.map_eq_some_iff, Prod.exists, Prod.mk.injEq]
  exact ⟨_, _, _, hcells, rfl, rfl⟩

/-- A step of a call that holds the lock shared does not conflict with what the other calls that
hold it shared have done. -/
def SharedApart (mode : ρ → Mode) (l : List ((ℕ × Action ρ) × List (ρ × List ω)))
    (c : ThreadSystem.Conf (Memory V) (Position V ρ ω)) (e : ℕ × Action ρ) : Prop :=
  ThreadSystem.Undisturbed (fun _ _ _ => True) (fun _ p _ q =>
    holds mode p = some .shared → holds mode q = some .shared → p.Apart q) l c e

/-- **Calls under a lock are atomic.** In a run whose shared calls do not conflict with each other,
the calls that have ended have the results that they have when they are executed one after the
other, in the order in which they ended; and the cells that no call in progress has updated hold the
same values.

**Proof sketch.** While a call holds the lock exclusively, no other call is in progress; so every
step is separate. -/
theorem exists_serial (hrun : (system program mode init).machine.Run l c)
    (hsteps : (system program mode init).machine.EveryStep (SharedApart mode) l) :
    ∃ a, (serial program init).Run (completed l) a ∧
      ∀ k, (∀ t, k ∉ (c.threads t).footprint.writes) → c.shared.cells k = a k := by
  refine CellProgram.exists_serial (run_cells hrun) ?_
  rintro l₁ e o l₂ c₁ rfl hrun₁
  obtain ⟨c₂, -, hrun₂, -, -⟩ := hrun.split
  obtain rfl := (run_cells hrun₂).unique hrun₁
  refine ⟨trivial, fun u hu => ?_⟩
  have hcompatible := (guards init).compatible hrun₂ hu
  have hshared := (hsteps l₁ e o l₂ c₂ rfl hrun₂).2 u hu
  change (c₂.threads e.1).Apart (c₂.threads u)
  cases hp : c₂.threads e.1 with
  | idle => trivial
  | running r F rest =>
    cases hq : c₂.threads u with
    | idle => exact Position.apart_idle _
    | running r' F' rest' =>
      rw [hp, hq] at hcompatible hshared
      obtain ⟨hr, hr'⟩ := Compatible.eq_shared hcompatible
      exact hshared (congrArg some hr) (congrArg some hr')

/-- **The calls executed one after the other** are the steps of a machine, when every program does
to the cells of a state what the machine does to the state. -/
theorem exists_run_of_serial {σ : Type} {M : LogMachine σ ρ ω} (cells : σ → ∀ k, V k)
    (hprogram : ∀ m r s o, (program r).run (cells m) = some (s, o) →
      ∃ m', M.step m r = some (m', o) ∧ s = cells m')
    {l : List (ρ × List ω)} {a : ∀ k, V k} (hrun : (serial program (cells M.init)).Run l a) :
    ∃ m, M.Run l m ∧ a = cells m := by
  refine LogMachine.RunFrom.invariant (I := fun l a => ∃ m, M.Run l m ∧ a = cells m)
    ⟨M.init, (LogMachine.runFrom_nil _).mpr rfl, rfl⟩ ?_ hrun
  rintro l _ r o s' _ ⟨m, hm, rfl⟩ hstep
  obtain ⟨m', hm', rfl⟩ := hprogram m r s' o hstep
  exact ⟨m', (LogMachine.runFrom_concat _).mpr ⟨m, hm, hm'⟩, rfl⟩

end LockedProgram
