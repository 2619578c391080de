import Mathlib.Data.Set.Insert
import KotlinTracer.Lib.Interleave

set_option relaxedAutoImplicit false
set_option autoImplicit false

/-!
# Programs on shared cells

The memory is a family of cells. A program reads or updates one cell at a time, and does so
atomically. Threads call such programs, and the accesses of the calls are interleaved in any order.

If no call reads a cell that another call in progress has updated, and none updates a cell that
another call in progress has read or updated, then the interleaving makes no difference: the calls
have the results that they have when they are executed one after the other, in the order in which
they end.

## Main definitions

* `CellProgram` — the programs, and `CellProgram.run`, a program that nothing interrupts.
* `CellProgram.system` — the threads that call programs.
* `CellProgram.serial` — the machine that executes the calls one after the other.
* `CellProgram.Separate` — a step does not conflict with what the other calls in progress have done.
* `CellProgram.Within`, `CellProgram.DisjointCalls` — the cells of a program, and calls in progress
  on disjoint cells.

## Main results

* `CellProgram.run_bind` — the runs of composed programs.
* `CellProgram.exists_serial` — the calls of a run with separate steps can be executed one after the
  other.
* `CellProgram.everyStep_separate_of_disjoint` — the steps of calls on disjoint cells are separate.
-/

/-- A program on the cells `κ`, where the cell `k` holds a `V k`: it has a result, inspects or
accesses a cell and goes on, or is undefined. An inspection only reads the cell. Both may be
undefined for what the cell holds. -/
inductive CellProgram {κ : Type} (V : κ → Type) (α : Type) : Type 1
  | pure (a : α)
  | inspect {β : Type} (k : κ) (f : V k → Option β) (next : β → CellProgram V α)
  | access {β : Type} (k : κ) (f : V k → Option (V k × β)) (next : β → CellProgram V α)
  | undefined

namespace CellProgram

variable {κ : Type} {V : κ → Type} {α β : Type}

/-- One program after the other. -/
protected def bind : CellProgram V α → (α → CellProgram V β) → CellProgram V β
  | .pure a, g => g a
  | .inspect k f next, g => .inspect k f fun b => (next b).bind g
  | .access k f next, g => .access k f fun b => (next b).bind g
  | .undefined, _ => .undefined

instance : Monad (CellProgram V) where
  pure := .pure
  bind := .bind

/-- Inspect one cell. -/
def observe (k : κ) (f : V k → Option β) : CellProgram V β := .inspect k f .pure

/-- Read a cell. -/
def read (k : κ) : CellProgram V (V k) := observe k some

/-- Access one cell. -/
def perform (k : κ) (f : V k → Option (V k × β)) : CellProgram V β := .access k f .pure

/-- Update a cell. -/
def modify (k : κ) (f : V k → V k) : CellProgram V Unit := perform k fun v => some (f v, ())

/-- Write a cell. -/
def write (k : κ) (v : V k) : CellProgram V Unit := modify k fun _ => v

/-! ## Programs that nothing interrupts -/

variable [DecidableEq κ]

/-- The cells and the result after a program. -/
def run : CellProgram V α → (∀ k, V k) → Option ((∀ k, V k) × α)
  | .pure a, s => some (s, a)
  | .inspect k f next, s => (f (s k)).bind fun b => (next b).run s
  | .access k f next, s => (f (s k)).bind fun r => (next r.2).run (Function.update s k r.1)
  | .undefined, _ => none

@[simp] lemma run_pure (a : α) (s : ∀ k, V k) :
    (Pure.pure a : CellProgram V α).run s = some (s, a) := rfl

@[simp] lemma run_undefined (s : ∀ k, V k) :
    (undefined : CellProgram V α).run s = none := rfl

@[simp] lemma run_observe (k : κ) (f : V k → Option β) (s : ∀ k, V k) :
    (observe k f).run s = (f (s k)).map fun b => (s, b) := by
  rw [observe, run]
  cases f (s k) <;> rfl

@[simp] lemma run_read (k : κ) (s : ∀ k, V k) : (read k).run s = some (s, s k) := by
  rw [read, run_observe, Option.map_some]

@[simp] lemma run_perform (k : κ) (f : V k → Option (V k × β)) (s : ∀ k, V k) :
    (perform k f).run s = (f (s k)).map fun r => (Function.update s k r.1, r.2) := by
  rw [perform, run]
  cases f (s k) <;> rfl

@[simp] lemma run_modify (k : κ) (f : V k → V k) (s : ∀ k, V k) :
    (modify k f).run s = some (Function.update s k (f (s k)), ()) := by
  rw [modify, run_perform, Option.map_some]

@[simp] lemma run_write (k : κ) (v : V k) (s : ∀ k, V k) :
    (write k v).run s = some (Function.update s k v, ()) := by
  rw [write, run_modify]

/-- The run of one program after the other. -/
@[simp] lemma run_bind (p : CellProgram V α) (g : α → CellProgram V β) (s : ∀ k, V k) :
    (p >>= g).run s = (p.run s).bind fun r => (g r.2).run r.1 := by
  change (p.bind g).run s = _
  induction p generalizing s with
  | pure a => rfl
  | undefined => rfl
  | inspect k f next ih =>
    rw [CellProgram.bind, run, run]
    cases f (s k) with
    | none => rfl
    | some b => exact ih b _
  | access k f next ih =>
    rw [CellProgram.bind, run, run]
    cases f (s k) with
    | none => rfl
    | some r => exact ih r.2 _

/-! ## Programs that are interrupted -/

/-- The cells that a call has read and those that it has updated, the last ones first. -/
structure Footprint (κ : Type) where
  reads : List κ := []
  writes : List κ := []

namespace Footprint

/-- One more cell is read. -/
@[simps] def read (F : Footprint κ) (k : κ) : Footprint κ := { F with reads := k :: F.reads }

/-- One more cell is updated. -/
@[simps] def write (F : Footprint κ) (k : κ) : Footprint κ := { F with writes := k :: F.writes }

/-- A cell is read or updated. -/
def Touches (F : Footprint κ) (k : κ) : Prop := k ∈ F.reads ∨ k ∈ F.writes

instance (F : Footprint κ) (k : κ) : Decidable (F.Touches k) :=
  inferInstanceAs (Decidable (_ ∨ _))

variable {F : Footprint κ} {j k : κ}

omit [DecidableEq κ] in
lemma touches_read : (F.read k).Touches j ↔ j = k ∨ F.Touches j := by
  rw [Touches, Touches, read_reads, read_writes, List.mem_cons, or_assoc]

omit [DecidableEq κ] in
lemma touches_write : (F.write k).Touches j ↔ j = k ∨ F.Touches j := by
  rw [Touches, Touches, write_reads, write_writes, List.mem_cons, or_left_comm]

omit [DecidableEq κ] in
lemma not_touches_empty : ¬ ({} : Footprint κ).Touches k := by
  rintro (h | h) <;> exact List.not_mem_nil h

end Footprint

/-- A program that was executed alone from the cells `s` has the footprint `F`, and the rest of it
is left. -/
inductive Reaches (p : CellProgram V α) (s : ∀ k, V k) :
    Footprint κ → CellProgram V α → (∀ k, V k) → Prop
  | start : Reaches p s {} p s
  | inspect {F : Footprint κ} {s' : ∀ k, V k} {γ : Type} {k : κ} {f : V k → Option γ}
      {next : γ → CellProgram V α} {b : γ} (h : Reaches p s F (.inspect k f next) s')
      (hf : f (s' k) = some b) : Reaches p s (F.read k) (next b) s'
  | access {F : Footprint κ} {s' : ∀ k, V k} {γ : Type} {k : κ} {f : V k → Option (V k × γ)}
      {next : γ → CellProgram V α} {v : V k} {b : γ} (h : Reaches p s F (.access k f next) s')
      (hf : f (s' k) = some (v, b)) : Reaches p s (F.write k) (next b) (Function.update s' k v)

section Reaches

variable {p rest : CellProgram V α} {s s' a : ∀ k, V k} {F : Footprint κ}

/-- The cells that are not updated are as they were. -/
lemma Reaches.frame (h : Reaches p s F rest s') {k : κ} (hk : k ∉ F.writes) : s' k = s k := by
  induction h with
  | start => rfl
  | inspect h hf ih => exact ih hk
  | access h hf ih =>
    rw [Footprint.write_writes, List.mem_cons, not_or] at hk
    rw [Function.update_of_ne hk.1, ih hk.2]

/-- What a program does depends only on its footprint. -/
lemma Reaches.transfer (h : Reaches p s F rest s') (ha : ∀ k, F.Touches k → a k = s k) :
    ∃ a', Reaches p a F rest a' ∧ ∀ k, F.Touches k → a' k = s' k := by
  -- a cell that was not accessed before holds what it held at the start
  have hstart : ∀ {F rest s' a'} {k : κ}, Reaches p s F rest s' → Reaches p a F rest a' →
      (∀ j, F.Touches j → a' j = s' j) → a k = s k → a' k = s' k := by
    intro F rest s' a' k h h' hagree hk
    by_cases hF : k ∈ F.writes
    · exact hagree k (Or.inr hF)
    · rw [h'.frame hF, h.frame hF, hk]
  induction h with
  | start => exact ⟨a, .start, fun k hk => absurd hk Footprint.not_touches_empty⟩
  | @inspect F s' γ k f next b h hf ih =>
    obtain ⟨a', hreach, hagree⟩ := ih fun j hj => ha j (Footprint.touches_read.mpr (Or.inr hj))
    have hk : a' k = s' k :=
      hstart h hreach hagree (ha k (Footprint.touches_read.mpr (Or.inl rfl)))
    refine ⟨a', hreach.inspect (hk ▸ hf), fun j hj => ?_⟩
    obtain rfl | hj := Footprint.touches_read.mp hj
    · exact hk
    · exact hagree j hj
  | @access F s' γ k f next v b h hf ih =>
    obtain ⟨a', hreach, hagree⟩ := ih fun j hj => ha j (Footprint.touches_write.mpr (Or.inr hj))
    have hk : a' k = s' k :=
      hstart h hreach hagree (ha k (Footprint.touches_write.mpr (Or.inl rfl)))
    refine ⟨Function.update a' k v, hreach.access (hk ▸ hf), fun j hj => ?_⟩
    by_cases hjk : j = k
    · subst hjk
      rw [Function.update_self, Function.update_self]
    · rw [Function.update_of_ne hjk, Function.update_of_ne hjk]
      exact hagree j ((Footprint.touches_write.mp hj).resolve_left hjk)

/-- The run of a program goes through what it reaches. -/
lemma Reaches.run_eq (h : Reaches p s F rest s') : p.run s = rest.run s' := by
  induction h with
  | start => rfl
  | inspect h hf ih => rw [ih, run, hf, Option.bind_some]
  | access h hf ih => rw [ih, run, hf, Option.bind_some]

end Reaches

/-! ## Threads that call programs -/

variable {ρ ω : Type}

/-- Where a thread is: between its calls, or in a call with the footprint so far and the rest of its
program. -/
inductive Position (V : κ → Type) (ρ ω : Type) : Type 1
  | idle
  | running (call : ρ) (footprint : Footprint κ) (rest : CellProgram V (List ω))

/-- A thread calls a program, or goes on with its call. -/
inductive Action (ρ : Type)
  | call (call : ρ)
  | go

namespace Position

omit [DecidableEq κ] in
/-- The footprint of the call of a thread. -/
@[simp] def footprint : Position V ρ ω → Footprint κ
  | .idle => {}
  | .running _ footprint _ => footprint

/-- The next access of a thread does not conflict with what the call of another thread has done: the
other call has not updated the cell, nor read it if it is updated now. -/
def Apart (p q : Position V ρ ω) : Prop :=
  match p with
  | .running _ _ (.inspect k _ _) => k ∉ q.footprint.writes
  | .running _ _ (.access k _ _) => ¬ q.footprint.Touches k
  | _ => True

instance (p q : Position V ρ ω) : Decidable (p.Apart q) :=
  match p with
  | .running _ _ (.inspect k _ _) => inferInstanceAs (Decidable (k ∉ q.footprint.writes))
  | .running _ _ (.access k _ _) => inferInstanceAs (Decidable (¬ q.footprint.Touches k))
  | .running _ _ (.pure _) => isTrue trivial
  | .running _ _ .undefined => isTrue trivial
  | .idle => isTrue trivial

omit [DecidableEq κ] in
/-- A thread between its calls has done nothing to conflict with. -/
lemma apart_idle (p : Position V ρ ω) : p.Apart .idle := by
  cases p with
  | idle => trivial
  | running r F rest =>
    cases rest with
    | inspect k f next => exact List.not_mem_nil
    | access k f next => exact Footprint.not_touches_empty
    | _ => trivial

end Position

variable (program : ρ → CellProgram V (List ω))

/-- One step of a thread. The end of a call gives its result. -/
def step (s : ∀ k, V k) : Position V ρ ω → Action ρ →
    Option ((∀ k, V k) × Position V ρ ω × List (ρ × List ω))
  | .idle, .call r => some (s, .running r {} (program r), [])
  | .running r F (.inspect k f next), .go =>
    (f (s k)).map fun b => (s, .running r (F.read k) (next b), [])
  | .running r F (.access k f next), .go =>
    (f (s k)).map fun x => (Function.update s k x.1, .running r (F.write k) (next x.2), [])
  | .running r _ (.pure o), .go => some (s, .idle, [(r, o)])
  | _, _ => none

variable {program} in
/-- A step in a call goes on with the call, or ends it. -/
lemma step_running {s s' : ∀ k, V k} {r : ρ} {F : Footprint κ} {rest : CellProgram V (List ω)}
    {p : Position V ρ ω} {act : Action ρ} {o : List (ρ × List ω)}
    (h : step program s (.running r F rest) act = some (s', p, o)) :
    p = .idle ∨ ∃ F' rest', p = .running r F' rest' := by
  cases act with
  | call r' => cases rest <;> cases h
  | go =>
    cases rest with
    | undefined => cases h
    | pure o' =>
      cases h
      exact Or.inl rfl
    | inspect k f next =>
      obtain ⟨x, -, hx⟩ := Option.map_eq_some_iff.mp h
      cases hx
      exact Or.inr ⟨_, _, rfl⟩
    | access k f next =>
      obtain ⟨x, -, hx⟩ := Option.map_eq_some_iff.mp h
      cases hx
      exact Or.inr ⟨_, _, rfl⟩

/-- The threads that call programs, on cells that are `init` at first. -/
def system (init : ∀ k, V k) :
    ThreadSystem (∀ k, V k) (Position V ρ ω) (Action ρ) (ρ × List ω) where
  init := init
  start := .idle
  step := step program

/-- The calls, executed one after the other. -/
def serial (init : ∀ k, V k) : LogMachine (∀ k, V k) ρ ω where
  init := init
  step := fun s r => (program r).run s

/-- The calls that have ended, with their results, in the order in which they ended. -/
def completed (l : List ((ℕ × Action ρ) × List (ρ × List ω))) : List (ρ × List ω) :=
  l.flatMap Prod.snd

/-- A step is separate: it does not conflict with what the other calls in progress have done. -/
def Separate (l : List ((ℕ × Action ρ) × List (ρ × List ω)))
    (c : ThreadSystem.Conf (∀ k, V k) (Position V ρ ω)) (e : ℕ × Action ρ) : Prop :=
  ThreadSystem.Undisturbed (fun _ _ _ => True) (fun _ p _ q => p.Apart q) l c e

/-! ## Separate calls can be executed one after the other -/

/-- The calls that have ended, executed one after the other, have led to the cells `a`. A call in
progress has done so far what it would have done alone from there. -/
structure Serialized (a : ∀ k, V k) (c : ThreadSystem.Conf (∀ k, V k) (Position V ρ ω)) :
    Prop where
  inProgress : ∀ {t r F rest}, c.threads t = .running r F rest →
    ∃ s, Reaches (program r) a F rest s ∧ ∀ k, F.Touches k → s k = c.shared k
  unwritten : ∀ {k}, (∀ t, k ∉ (c.threads t).footprint.writes) → c.shared k = a k
  apart : ∀ {t u k}, t ≠ u → k ∈ (c.threads t).footprint.writes →
    ¬ (c.threads u).footprint.Touches k

variable {program} {a : ∀ k, V k} {c c' : ThreadSystem.Conf (∀ k, V k) (Position V ρ ω)}
  {t : ℕ} {r : ρ} {F : Footprint κ} {k : κ}

/-- At the start there is no call. -/
lemma serialized_init (init : ∀ k, V k) :
    Serialized program init (system program init).machine.init where
  inProgress hu := by cases hu
  unwritten _ := rfl
  apart _ hk := absurd hk List.not_mem_nil

/-- A thread calls a program. -/
lemma Serialized.call (h : Serialized program a c) (hidle : c.threads t = .idle)
    (hshared : c'.shared = c.shared) (hthread : c'.threads t = .running r {} (program r))
    (hothers : ∀ u, u ≠ t → c'.threads u = c.threads u) : Serialized program a c' := by
  have hfootprint : ∀ u, (c'.threads u).footprint = (c.threads u).footprint := by
    intro u
    by_cases hu : u = t
    · rw [hu, hthread, hidle]
      rfl
    · rw [hothers u hu]
  refine ⟨fun {u r' F rest} hu => ?_, fun {k} hk => ?_, fun {u v k} huv hk => ?_⟩
  · by_cases hut : u = t
    · subst hut
      rw [hthread] at hu
      cases hu
      exact ⟨a, .start, fun k hk => absurd hk Footprint.not_touches_empty⟩
    · rw [hothers u hut] at hu
      rw [hshared]
      exact h.inProgress hu
  · rw [hshared]
    exact h.unwritten fun u => by rw [← hfootprint u]; exact hk u
  · rw [hfootprint] at hk ⊢
    exact h.apart huv hk

/-- A cell that no other call in progress has updated holds what it holds when the call is executed
alone. -/
lemma Serialized.cell_eq {rest : CellProgram V (List ω)} {s : ∀ k, V k}
    (h : Serialized program a c) (hrunning : c.threads t = .running r F rest)
    (hreach : Reaches (program r) a F rest s) (hagree : ∀ j, F.Touches j → s j = c.shared j)
    (hapart : ∀ u, u ≠ t → k ∉ (c.threads u).footprint.writes) : s k = c.shared k := by
  by_cases hmem : k ∈ F.writes
  · exact hagree k (Or.inr hmem)
  · rw [hreach.frame hmem]
    refine (h.unwritten fun u => ?_).symm
    by_cases hu : u = t
    · rw [hu, hrunning]
      exact hmem
    · exact hapart u hu

/-- A call reads a cell that no other call in progress has updated. -/
lemma Serialized.inspect {γ : Type} {f : V k → Option γ} {next : γ → CellProgram V (List ω)}
    {b : γ} (h : Serialized program a c)
    (hrunning : c.threads t = .running r F (.inspect k f next))
    (hapart : ∀ u, u ≠ t → k ∉ (c.threads u).footprint.writes) (hf : f (c.shared k) = some b)
    (hshared : c'.shared = c.shared) (hthread : c'.threads t = .running r (F.read k) (next b))
    (hothers : ∀ u, u ≠ t → c'.threads u = c.threads u) : Serialized program a c' := by
  obtain ⟨s, hreach, hagree⟩ := h.inProgress hrunning
  have hk := h.cell_eq hrunning hreach hagree hapart
  have hwrites : ∀ u, (c'.threads u).footprint.writes = (c.threads u).footprint.writes := by
    intro u
    by_cases hu : u = t
    · rw [hu, hthread, hrunning]
      rfl
    · rw [hothers u hu]
  refine ⟨fun {u r' F' rest} hu => ?_, fun {j} hj => ?_, fun {u w j} huw hj => ?_⟩
  · rw [hshared]
    by_cases hut : u = t
    · subst hut
      rw [hthread] at hu
      cases hu
      refine ⟨s, hreach.inspect (hk ▸ hf), fun j hj => ?_⟩
      obtain rfl | hj := Footprint.touches_read.mp hj
      · exact hk
      · exact hagree j hj
    · rw [hothers u hut] at hu
      exact h.inProgress hu
  · rw [hshared]
    exact h.unwritten fun u => by rw [← hwrites u]; exact hj u
  · rw [hwrites] at hj
    by_cases hwt : w = t
    · subst hwt
      have hold := h.apart huw hj
      rw [hrunning] at hold
      rw [hthread]
      refine fun htouches => ?_
      obtain rfl | htouches := Footprint.touches_read.mp htouches
      · exact hapart u huw hj
      · exact hold htouches
    · rw [hothers w hwt]
      exact h.apart huw hj

/-- A call updates a cell that no other call in progress has accessed. -/
lemma Serialized.access {γ : Type} {f : V k → Option (V k × γ)}
    {next : γ → CellProgram V (List ω)} {v : V k} {b : γ} (h : Serialized program a c)
    (hrunning : c.threads t = .running r F (.access k f next))
    (hapart : ∀ u, u ≠ t → ¬ (c.threads u).footprint.Touches k)
    (hf : f (c.shared k) = some (v, b)) (hshared : c'.shared = Function.update c.shared k v)
    (hthread : c'.threads t = .running r (F.write k) (next b))
    (hothers : ∀ u, u ≠ t → c'.threads u = c.threads u) : Serialized program a c' := by
  obtain ⟨s, hreach, hagree⟩ := h.inProgress hrunning
  have hk := h.cell_eq hrunning hreach hagree fun u hu hmem => hapart u hu (Or.inr hmem)
  have hne : ∀ {j}, j ≠ k → c'.shared j = c.shared j := by
    intro j hj
    rw [hshared, Function.update_of_ne hj]
  refine ⟨fun {u r' F' rest} hu => ?_, fun {j} hj => ?_, fun {u w j} huw hj => ?_⟩
  · by_cases hut : u = t
    · subst hut
      rw [hthread] at hu
      cases hu
      refine ⟨Function.update s k v, hreach.access (hk ▸ hf), fun j hj => ?_⟩
      by_cases hjk : j = k
      · subst hjk
        rw [hshared, Function.update_self, Function.update_self]
      · rw [hne hjk, Function.update_of_ne hjk]
        exact hagree j ((Footprint.touches_write.mp hj).resolve_left hjk)
    · rw [hothers u hut] at hu
      obtain ⟨s', hreach', hagree'⟩ := h.inProgress hu
      refine ⟨s', hreach', fun j hj => ?_⟩
      have hjk : j ≠ k := by
        rintro rfl
        refine hapart u hut ?_
        rw [hu]
        exact hj
      rw [hne hjk]
      exact hagree' j hj
  · have hjk : j ≠ k := by
      rintro rfl
      refine hj t ?_
      rw [hthread]
      exact List.mem_cons_self
    rw [hne hjk]
    refine h.unwritten fun u hu => hj u ?_
    by_cases hut : u = t
    · rw [hut, hrunning] at hu
      rw [hut, hthread]
      exact List.mem_cons_of_mem _ hu
    · rwa [hothers u hut]
  · by_cases hut : u = t
    · have hwt : w ≠ t := fun hwt => huw (hut.trans hwt.symm)
      rw [hut, hthread] at hj
      rw [hothers w hwt]
      rcases List.mem_cons.mp hj with rfl | hmem
      · exact hapart w hwt
      · refine h.apart (Ne.symm hwt) ?_
        rw [hrunning]
        exact hmem
    · rw [hothers u hut] at hj
      by_cases hwt : w = t
      · have hold := h.apart huw hj
        rw [hwt, hrunning] at hold
        rw [hwt, hthread]
        refine fun htouches => ?_
        obtain rfl | htouches := Footprint.touches_write.mp htouches
        · exact hapart u hut (Or.inr hj)
        · exact hold htouches
      · rw [hothers w hwt]
        exact h.apart huw hj

/-- A call ends: it is executed after those that have ended before. -/
lemma Serialized.finish {o : List ω} (h : Serialized program a c)
    (hrunning : c.threads t = .running r F (.pure o)) (hshared : c'.shared = c.shared)
    (hthread : c'.threads t = .idle) (hothers : ∀ u, u ≠ t → c'.threads u = c.threads u) :
    ∃ a', (program r).run a = some (a', o) ∧ Serialized program a' c' := by
  obtain ⟨s, hreach, hagree⟩ := h.inProgress hrunning
  have hF : (c.threads t).footprint = F := by rw [hrunning]; rfl
  refine ⟨s, hreach.run_eq, fun {u r' F' rest} hu => ?_, fun {k} hk => ?_,
    fun {u w k} huw hk => ?_⟩
  · have hut : u ≠ t := by
      rintro rfl
      rw [hthread] at hu
      cases hu
    rw [hothers u hut] at hu
    obtain ⟨s', hreach', hagree'⟩ := h.inProgress hu
    -- the call has not updated what the other one has accessed
    have hframe : ∀ k, F'.Touches k → s k = a k := by
      intro k hk
      refine hreach.frame fun hmem => ?_
      refine h.apart (Ne.symm hut) (hF.symm ▸ hmem) ?_
      rw [hu]
      exact hk
    obtain ⟨a', hreach'', hagree''⟩ := hreach'.transfer hframe
    refine ⟨a', hreach'', fun k hk => ?_⟩
    rw [hagree'' k hk, hshared]
    exact hagree' k hk
  · rw [hshared]
    by_cases hmem : k ∈ F.writes
    · exact (hagree k (Or.inr hmem)).symm
    · rw [hreach.frame hmem]
      refine h.unwritten fun u => ?_
      by_cases hut : u = t
      · rwa [hut, hF]
      · rw [← hothers u hut]
        exact hk u
  · by_cases hut : u = t
    · rw [hut, hthread] at hk
      exact absurd hk List.not_mem_nil
    · rw [hothers u hut] at hk
      by_cases hwt : w = t
      · rw [hwt, hthread]
        exact Footprint.not_touches_empty
      · rw [hothers w hwt]
        exact h.apart huw hk

/-- One separate step: a call that it ends is executed serially. -/
lemma Serialized.step {init : ∀ k, V k} {e : ℕ × Action ρ} {o : List (ρ × List ω)}
    {l : List ((ℕ × Action ρ) × List (ρ × List ω))} (h : Serialized program a c)
    (hapart : Separate l c e) (hstep : (system program init).machine.step c e = some (c', o)) :
    ∃ a', (serial program init).RunFrom a o a' ∧ Serialized program a' c' := by
  obtain ⟨hsection, hothers⟩ := ThreadSystem.of_machine_step hstep
  change CellProgram.step program c.shared (c.threads e.1) e.2 = _ at hsection
  obtain ⟨t, act⟩ := e
  dsimp only at hsection hothers
  have hapart' : ∀ u, u ≠ t → (c.threads t).Apart (c.threads u) := hapart.2
  have hnil : (serial program init).RunFrom a [] a := (LogMachine.runFrom_nil _).mpr rfl
  cases hposition : c.threads t with
  | idle =>
    rw [hposition] at hsection
    cases act with
    | call r =>
      simp only [CellProgram.step, Option.some.injEq, Prod.mk.injEq] at hsection
      obtain ⟨hshared, hthread, rfl⟩ := hsection
      exact ⟨a, hnil, h.call hposition hshared.symm hthread.symm hothers⟩
    | go => cases hsection
  | running r F rest =>
    rw [hposition] at hsection hapart'
    cases act with
    | call r' => cases rest <;> cases hsection
    | go =>
      cases rest with
      | undefined => cases hsection
      | pure o' =>
        simp only [CellProgram.step, Option.some.injEq, Prod.mk.injEq] at hsection
        obtain ⟨hshared, hthread, rfl⟩ := hsection
        obtain ⟨a', hrun, hserialized⟩ := h.finish hposition hshared.symm hthread.symm hothers
        refine ⟨a', ?_, hserialized⟩
        exact (LogMachine.runFrom_cons _).mpr ⟨a', hrun, (LogMachine.runFrom_nil _).mpr rfl⟩
      | inspect k f next =>
        simp only [CellProgram.step, Option.map_eq_some_iff, Prod.mk.injEq] at hsection
        obtain ⟨b, hf, hshared, hthread, rfl⟩ := hsection
        exact ⟨a, hnil, h.inspect hposition hapart' hf hshared.symm hthread.symm hothers⟩
      | access k f next =>
        simp only [CellProgram.step, Option.map_eq_some_iff, Prod.mk.injEq] at hsection
        obtain ⟨⟨v, b⟩, hf, hshared, hthread, rfl⟩ := hsection
        exact ⟨a, hnil, h.access hposition hapart' hf hshared.symm hthread.symm hothers⟩

/-- **Separate calls.** In a run all whose steps are separate, the calls that have ended have the
results that they have when they are executed one after the other, in the order in which they ended;
and the cells that no call in progress has updated hold the same values.

**Proof sketch.** A call is executed serially when it ends. Until then, what it has done is what it
would have done alone: the calls that ended in the meantime have not updated the cells that it has
accessed. -/
theorem exists_serial {init : ∀ k, V k} {l : List ((ℕ × Action ρ) × List (ρ × List ω))}
    (hrun : (system program init).machine.Run l c)
    (hsteps : (system program init).machine.EveryStep Separate l) :
    ∃ a, (serial program init).Run (completed l) a ∧
      ∀ k, (∀ t, k ∉ (c.threads t).footprint.writes) → c.shared k = a k := by
  have hall := LogMachine.EveryStepFrom.throughout
    (I := fun l c => ∃ a, (serial program init).Run (completed l) a ∧ Serialized program a c)
    ⟨init, (LogMachine.runFrom_nil _).mpr rfl, serialized_init init⟩
    (fun l c e o c' _ hl hapart hstep => by
      obtain ⟨a, ha, hserialized⟩ := hl
      obtain ⟨a', ha', hserialized'⟩ := hserialized.step hapart hstep
      refine ⟨a', ?_, hserialized'⟩
      rw [completed, List.flatMap_append, List.flatMap_singleton]
      exact (LogMachine.runFrom_append _).mpr ⟨a, ha, ha'⟩) hsteps
  obtain ⟨a, ha, hserialized⟩ := hall.last hrun
  exact ⟨a, ha, fun k hk => hserialized.unwritten hk⟩

/-! ## Calls on disjoint cells -/

/-- A program inspects only cells of `R` and updates only cells of `W`. -/
inductive Within (R W : Set κ) : CellProgram V α → Prop
  | pure (a : α) : Within R W (.pure a)
  | undefined : Within R W .undefined
  | inspect {γ : Type} {k : κ} {f : V k → Option γ} {next : γ → CellProgram V α} (hk : k ∈ R)
      (h : ∀ b, Within R W (next b)) : Within R W (.inspect k f next)
  | access {γ : Type} {k : κ} {f : V k → Option (V k × γ)} {next : γ → CellProgram V α}
      (hk : k ∈ W) (h : ∀ b, Within R W (next b)) : Within R W (.access k f next)

namespace Within

variable {R W : Set κ}

omit [DecidableEq κ]

/-- One program after the other. -/
lemma bind {p : CellProgram V α} {g : α → CellProgram V β} (hp : Within R W p)
    (hg : ∀ a, Within R W (g a)) : Within R W (p >>= g) := by
  change Within R W (p.bind g)
  induction hp with
  | pure a => exact hg a
  | undefined => exact .undefined
  | inspect hk _ ih => exact .inspect hk ih
  | access hk _ ih => exact .access hk ih

lemma observe (hk : k ∈ R) {f : V k → Option β} : Within R W (CellProgram.observe k f) :=
  .inspect hk .pure

lemma perform (hk : k ∈ W) {f : V k → Option (V k × β)} : Within R W (CellProgram.perform k f) :=
  .access hk .pure

lemma univ (p : CellProgram V α) : Within Set.univ Set.univ p := by
  induction p with
  | pure a => exact .pure a
  | undefined => exact .undefined
  | inspect k f next ih => exact .inspect trivial ih
  | access k f next ih => exact .access trivial ih

/-- A choice between two programs. -/
lemma ite {P : Prop} [Decidable P] {p q : CellProgram V α} (hp : P → Within R W p)
    (hq : ¬ P → Within R W q) : Within R W (if P then p else q) := by
  split_ifs with h
  · exact hp h
  · exact hq h

end Within

/-- The call of a thread. -/
def Position.call? : Position V ρ ω → Option ρ
  | .idle => none
  | .running r _ _ => some r

/-- The cells of the calls in progress: the call of the thread that makes a step and those of the
other threads are on disjoint cells. -/
def DisjointCalls (S : ρ → Set κ) (_ : List ((ℕ × Action ρ) × List (ρ × List ω)))
    (c : ThreadSystem.Conf (∀ k, V k) (Position V ρ ω)) (e : ℕ × Action ρ) : Prop :=
  ∀ u, u ≠ e.1 → ∀ r ∈ (c.threads e.1).call?, ∀ r' ∈ (c.threads u).call?, ∀ k ∈ S r, k ∉ S r'

/-- The footprint of a call and the rest of its program are in its cells. -/
def Position.Bounded (R W : ρ → Set κ) : Position V ρ ω → Prop
  | .idle => True
  | .running r F rest =>
    (∀ k ∈ F.reads, k ∈ R r) ∧ (∀ k ∈ F.writes, k ∈ W r) ∧ rest.Within (R r) (W r)

/-- Calls stay in their cells. -/
lemma bounded_step {R W : ρ → Set κ} (hprogram : ∀ r, (program r).Within (R r) (W r))
    {s s' : ∀ k, V k} {p p' : Position V ρ ω} {act : Action ρ} {o : List (ρ × List ω)}
    (hp : p.Bounded R W) (hstep : step program s p act = some (s', p', o)) :
    p'.Bounded R W := by
  cases p with
  | idle =>
    cases act with
    | call r =>
      cases hstep
      exact ⟨fun k hk => absurd hk List.not_mem_nil, fun k hk => absurd hk List.not_mem_nil,
        hprogram r⟩
    | go => cases hstep
  | running r F rest =>
    obtain ⟨hreads, hwrites, hrest⟩ := hp
    cases act with
    | call r' => cases rest <;> cases hstep
    | go =>
      cases hrest with
      | undefined => cases hstep
      | pure a =>
        cases hstep
        trivial
      | inspect hk hnext =>
        obtain ⟨b, -, hb⟩ := Option.map_eq_some_iff.mp hstep
        cases hb
        refine ⟨fun j hj => ?_, hwrites, hnext b⟩
        rcases List.mem_cons.mp hj with rfl | hj
        · exact hk
        · exact hreads j hj
      | access hk hnext =>
        obtain ⟨⟨v, b⟩, -, hb⟩ := Option.map_eq_some_iff.mp hstep
        cases hb
        refine ⟨hreads, fun j hj => ?_, hnext b⟩
        rcases List.mem_cons.mp hj with rfl | hj
        · exact hk
        · exact hwrites j hj

/-- In every run, the calls stay in their cells. -/
lemma bounded_of_run {R W : ρ → Set κ} (hprogram : ∀ r, (program r).Within (R r) (W r))
    {init : ∀ k, V k} {l : List ((ℕ × Action ρ) × List (ρ × List ω))}
    (hrun : (system program init).machine.Run l c) (t : ℕ) : (c.threads t).Bounded R W := by
  have houtline : (system program init).Outline (fun _ => True) (fun _ p => p.Bounded R W)
      (fun _ _ _ => True) (fun _ _ _ _ => True) fun _ => True :=
    { init := trivial
      start := trivial
      own := fun _ hp _ hstep => ⟨trivial, bounded_step hprogram hp hstep, fun _ _ => trivial⟩
      other := fun _ _ hq _ _ => hq }
  exact (houtline.of_run hrun).assertion t

/-- **Calls on disjoint cells are separate.** If the calls that are in progress at the same time are
on disjoint cells, then every step is separate. -/
theorem everyStep_separate_of_disjoint {S : ρ → Set κ}
    (hprogram : ∀ r, (program r).Within (S r) (S r)) {init : ∀ k, V k}
    {l : List ((ℕ × Action ρ) × List (ρ × List ω))}
    (hcalls : (system program init).machine.EveryStep (DisjointCalls S) l) :
    (system program init).machine.EveryStep Separate l := by
  intro l₁ e o l₂ c hl hrun
  refine ⟨trivial, fun u hu => ?_⟩
  have hown := bounded_of_run hprogram hrun e.1
  have hother := bounded_of_run hprogram hrun u
  have hdisjoint := hcalls l₁ e o l₂ c hl hrun u hu
  -- a cell of the call is not in the footprint of the other one
  have hcell : ∀ r F rest, c.threads e.1 = .running r F rest → ∀ k ∈ S r,
      ¬ (c.threads u).footprint.Touches k := by
    intro r F rest he k hk htouches
    cases hposition : c.threads u with
    | idle =>
      rw [hposition] at htouches
      exact Footprint.not_touches_empty htouches
    | running r' F' rest' =>
      rw [hposition] at hother htouches
      rw [he, hposition] at hdisjoint
      exact hdisjoint r rfl r' rfl k hk (htouches.elim (hother.1 k) (hother.2.1 k))
  cases hposition : c.threads e.1 with
  | idle => trivial
  | running r F rest =>
    rw [hposition] at hown
    obtain ⟨-, -, hrest⟩ := hown
    cases hrest with
    | undefined => trivial
    | pure a => trivial
    | inspect hk _ => exact fun hmem => hcell r F _ hposition _ hk (Or.inr hmem)
    | access hk _ => exact hcell r F _ hposition _ hk

/-! ## Concrete runs -/

/-- To see that the steps of a concrete run are separate, execute it. -/
lemma everyStep_separate_of_check {init : ∀ k, V k}
    {l : List ((ℕ × Action ρ) × List (ρ × List ω))} (ts : List ℕ)
    (hrun : (system program init).machine.Run l c) (hts : ∀ e ∈ l.map Prod.fst, e.1 ∈ ts)
    (hcheck : (system program init).machine.check (fun _ c e => true &&
      ts.all fun t => decide (t = e.1) || decide ((c.threads e.1).Apart (c.threads t)))
      [] (system program init).machine.init (l.map Prod.fst) = true) :
    (system program init).machine.EveryStep Separate l := by
  have hall := ThreadSystem.everyStep_undisturbed_of_check (g := fun _ _ _ => true)
    (k := fun _ p _ q => decide (p.Apart q)) ts hrun hts
    (fun _ p _ => decide_eq_true p.apart_idle) hcheck
  intro l₁ e o l₂ c hl hrun₁
  obtain ⟨-, hK⟩ := hall l₁ e o l₂ c hl hrun₁
  exact ⟨trivial, fun t ht => of_decide_eq_true (hK t ht)⟩

end CellProgram
