import Mathlib.Data.Int.Notation
import KotlinTracer.ConcurrentCollections
import KotlinTracer.Lib.Interleave

set_option relaxedAutoImplicit false
set_option autoImplicit false

/-!
# The concurrent list, used by many threads

The lock sections of `ConcurrentList` (`concurrentCollections/concurrentList.h`). `pop_front` and
`pop_back` look whether the list is empty in one section and take an element in another one, and
`clean` takes as many elements as an earlier `mark_for_clean` has counted. Here a section is a step,
and the sections of any number of threads are interleaved.

## Main definitions

* `KotlinTracer.CountedList` — the list, with the counter as the `atomic_int` that it is.
* `KotlinTracer.ListOp`, `KotlinTracer.CountedList.apply` — the operations, each without an
  interruption.
* `KotlinTracer.listSystem` — the threads that call the operations, section by section.
* `KotlinTracer.NeverEmptyAccess` — no element of an empty `std::list` is read or popped.

## Main results

* `KotlinTracer.CountedList.toConcurrentList_apply` — the operations are those of
  `KotlinTracer.ConcurrentList`, as long as the size fits an `int`.
* `KotlinTracer.runAlone_eq` — an operation that no other thread interrupts is the operation of the
  list.
* `KotlinTracer.listStep_cases` — what a section is.
* `KotlinTracer.listOutline` — the proof outline of the operations.
* `KotlinTracer.listSections_safe` — the interleavings in which no empty list is accessed.

## Design

What an access to an empty `std::list` does is undefined; here it leaves the list empty and is
reported as an output. A thread stands between the sections of an operation only if the first one
has found an element.
-/

namespace KotlinTracer

/-! ## The list and its counter -/

/-- The conversion of a size to an `int` of 32 bits. -/
def intOfSize (size : ℕ) : ℤ :=
  Int.bmod size 4294967296

/-- A size below `2 ^ 31` is converted unchanged. -/
lemma intOfSize_eq {size : ℕ} (h : size < 2 ^ 31) : intOfSize size = size :=
  Int.bmod_eq_of_le (by push_cast; omega) (by push_cast; omega)

/-- `ConcurrentList<T>`, with the number of marked elements as an `int`. -/
structure CountedList (T : Type*) where
  list : List T := []
  cleanUntil : ℤ := 0
deriving DecidableEq

/-- The operations that change a list. -/
inductive ListOp (T : Type*)
  | pushBack (value : T)
  | pushFront (value : T)
  | popFront
  | popBack
  | markForClean
  | clean
deriving DecidableEq

/-- What a section reports: the value that `pop_front` returns, or an access to an element of an
empty `std::list`. -/
inductive ListOutput (T : Type*)
  | returned (value : Option T)
  | emptyAccess
deriving DecidableEq

namespace CountedList

variable {T : Type*}

/-- `push_back`. -/
def pushBack (s : CountedList T) (value : T) : CountedList T :=
  { s with list := s.list ++ [value] }

/-- `push_front`. -/
def pushFront (s : CountedList T) (value : T) : CountedList T :=
  { s with list := value :: s.list }

/-- `empty`. -/
def empty (s : CountedList T) : Bool :=
  s.list.isEmpty

/-- `mark_for_clean`: the size is stored as an `int`. -/
def markForClean (s : CountedList T) : CountedList T :=
  { s with cleanUntil := intOfSize s.list.length }

/-- `clean`: undefined when there are fewer elements than the counter says. -/
def clean (s : CountedList T) : Option (CountedList T) :=
  (ConcurrentList.popFrontTimes s.cleanUntil.toNat s.list).map fun rest => { s with list := rest }

/-- The second section of `pop_front`: `front` and `pop_front` of the `std::list`. -/
def takeFront (s : CountedList T) : CountedList T × List (ListOutput T) :=
  match s.list with
  | [] => (s, [.emptyAccess])
  | value :: rest => ({ s with list := rest }, [.returned (some value)])

/-- The second section of `pop_back`: `pop_back` of the `std::list`. -/
def takeBack (s : CountedList T) : CountedList T × List (ListOutput T) :=
  if s.list.isEmpty then (s, [.emptyAccess]) else ({ s with list := s.list.dropLast }, [])

/-- An operation without an interruption, and what it returns; `none` when it is undefined. -/
def apply (s : CountedList T) : ListOp T → Option (CountedList T × List (ListOutput T))
  | .pushBack value => some (s.pushBack value, [])
  | .pushFront value => some (s.pushFront value, [])
  | .popFront => some ({ s with list := s.list.tail }, [.returned s.list.head?])
  | .popBack => some ({ s with list := s.list.dropLast }, [])
  | .markForClean => some (s.markForClean, [])
  | .clean => s.clean.map fun s' => (s', [])

@[simp] lemma list_markForClean (s : CountedList T) : s.markForClean.list = s.list := by
  rw [markForClean]

@[simp] lemma cleanUntil_markForClean (s : CountedList T) :
    s.markForClean.cleanUntil = intOfSize s.list.length := by
  rw [markForClean]

/-- `clean` drops as many elements as the counter says. -/
lemma clean_eq (s : CountedList T) :
    s.clean = if s.cleanUntil.toNat ≤ s.list.length then
      some { s with list := s.list.drop s.cleanUntil.toNat } else none := by
  rw [clean, ConcurrentList.popFrontTimes_eq]
  split_ifs <;> rfl

/-- The list as it is modelled for the storage, where the counter is a number. -/
def toConcurrentList (s : CountedList T) : ConcurrentList T :=
  ⟨s.list, s.cleanUntil.toNat⟩

/-- **The counter as a number.** The operations that the storage uses are those of
`ConcurrentList`, as long as the size fits an `int`. -/
theorem toConcurrentList_apply (s : CountedList T) (value : T) (h : s.list.length < 2 ^ 31) :
    (s.pushBack value).toConcurrentList = s.toConcurrentList.pushBack value ∧
      (s.apply .popFront).map (fun r => (r.2, r.1.toConcurrentList)) =
        some ([.returned s.toConcurrentList.popFront.1], s.toConcurrentList.popFront.2) ∧
      s.markForClean.toConcurrentList = s.toConcurrentList.markForClean ∧
      s.clean.map toConcurrentList = s.toConcurrentList.clean := by
  refine ⟨rfl, ?_, ?_, ?_⟩
  · obtain ⟨list, cleanUntil⟩ := s
    cases list <;> rfl
  · rw [toConcurrentList, markForClean]
    dsimp only
    rw [intOfSize_eq h, Int.toNat_natCast]
    rfl
  · rw [clean, ConcurrentList.clean, Option.map_map]
    rfl

end CountedList

/-! ## Sections -/

/-- Where a thread stands: in no operation, or before the second section of `pop_front` or of
`pop_back`. -/
inductive ListPosition
  | idle
  | popFront
  | popBack
deriving DecidableEq

/-- What a thread does next: the first section of an operation, or the second one. -/
inductive ListAction (T : Type*)
  | call (op : ListOp T)
  | pop
deriving DecidableEq

section Sections

variable {T : Type*}

/-- The first section of an operation; it is the only one except for `pop_front` and `pop_back`,
which look whether the list is empty. -/
def callSection (s : CountedList T) :
    ListOp T → CountedList T × ListPosition × List (ListOutput T)
  | .pushBack value => (s.pushBack value, .idle, [])
  | .pushFront value => (s.pushFront value, .idle, [])
  | .popFront => if s.empty then (s, .idle, [.returned none]) else (s, .popFront, [])
  | .popBack => if s.empty then (s, .idle, []) else (s, .popBack, [])
  | .markForClean => (s.markForClean, .idle, [])
  | .clean =>
    match s.clean with
    | some s' => (s', .idle, [])
    -- the loop has popped all elements and goes on
    | none => ({ s with list := [] }, .idle, [.emptyAccess])

/-- The sections of a thread. -/
def listStep (s : CountedList T) :
    ListPosition → ListAction T → Option (CountedList T × ListPosition × List (ListOutput T))
  | .idle, .call op => some (callSection s op)
  | .popFront, .pop => some (s.takeFront.1, .idle, s.takeFront.2)
  | .popBack, .pop => some (s.takeBack.1, .idle, s.takeBack.2)
  | _, _ => none

/-- The threads that use a list. -/
def listSystem (T : Type*) : ThreadSystem (CountedList T) ListPosition (ListAction T) (ListOutput T)
    where
  init := {}
  start := .idle
  step := listStep

/-- The log of the sections. -/
abbrev ListLog (T : Type*) := List ((ℕ × ListAction T) × List (ListOutput T))

/-- The list and the positions of the threads. -/
abbrev ListConf (T : Type*) := ThreadSystem.Conf (CountedList T) ListPosition

/-- The sections of one operation, one after the other. -/
def runAlone (s : CountedList T) (op : ListOp T) : Option (CountedList T × List (ListOutput T)) :=
  (listStep s .idle (.call op)).bind fun r =>
    if r.2.1 = .idle then some (r.1, r.2.2)
    else (listStep r.1 r.2.1 .pop).map fun r' => (r'.1, r.2.2 ++ r'.2.2)

/-- An operation that no other thread interrupts is the operation of the list. -/
theorem runAlone_eq {s s' : CountedList T} {op : ListOp T} {o : List (ListOutput T)}
    (h : s.apply op = some (s', o)) : runAlone s op = some (s', o) := by
  rw [← h]
  obtain ⟨list, cleanUntil⟩ := s
  cases op with
  | pushBack value | pushFront value | markForClean => rfl
  | popFront | popBack => cases list <;> rfl
  | clean =>
    obtain ⟨s'', hclean, -⟩ := Option.map_eq_some_iff.mp h
    rw [CountedList.apply, hclean, runAlone, listStep, callSection, hclean]
    rfl

/-! ## Accesses to the empty list -/

/-- In a run, no element of an empty `std::list` is read or popped. -/
def NeverEmptyAccess (l : ListLog T) : Prop :=
  ∀ e ∈ l, ListOutput.emptyAccess ∉ e.2

/-- A section finds the elements that it takes: the second section of a pop one, and `clean` as many
as the counter says. -/
def findsElements (s : CountedList T) : ListPosition → ListAction T → Bool
  | .idle, .call .clean => decide (s.cleanUntil.toNat ≤ s.list.length)
  | .idle, _ => true
  | _, _ => !s.empty

/-- A section leaves an element in the list that has one. -/
def leavesElement (s : CountedList T) : ListPosition → ListAction T → Bool
  | .idle, .call .clean => decide (s.cleanUntil.toNat < s.list.length)
  | .idle, _ => true
  | _, _ => decide (1 < s.list.length)

/-- `clean` finds as many elements as the counter says. -/
def cleansMarked (s : CountedList T) : ListPosition → ListAction T → Bool
  | .idle, .call .clean => decide (s.cleanUntil.toNat ≤ s.list.length)
  | _, _ => true

/-- A section does not take the last element while a thread at `q` is going to take one. -/
def keepsElement (s : CountedList T) (p : ListPosition) (a : ListAction T) (q : ListPosition) :
    Bool :=
  decide (q = .idle) || leavesElement s p a

/-- The step finds the elements that it takes. -/
def FindsElements (_ : ListLog T) (c : ListConf T) (e : ℕ × ListAction T) : Prop :=
  findsElements c.shared (c.threads e.1) e.2 = true

/-- `clean` is called only with as many elements as the latest mark has counted, and no step takes
the last element while another thread stands between the sections of a pop. -/
def LeavesElements (l : ListLog T) (c : ListConf T) (e : ℕ × ListAction T) : Prop :=
  ThreadSystem.Undisturbed (fun s p a => cleansMarked s p a = true)
    (fun s p a q => keepsElement s p a q = true) l c e

variable {s s' : CountedList T} {p p' : ListPosition} {a : ListAction T}
  {o : List (ListOutput T)}

/-- The first section of an operation accesses an empty list only in `clean`. -/
lemma emptyAccess_mem_callSection_iff (s : CountedList T) (op : ListOp T) :
    .emptyAccess ∈ (callSection s op).2.2 ↔ findsElements s .idle (.call op) = false := by
  cases op with
  | pushBack value | pushFront value | markForClean => simp [callSection, findsElements]
  | popFront | popBack =>
    rw [callSection]
    cases s.empty <;> simp [findsElements]
  | clean =>
    rw [callSection, CountedList.clean_eq]
    by_cases h : s.cleanUntil.toNat ≤ s.list.length <;> simp [findsElements, h]

/-- **What a section is**: the first one of an operation, of a thread that is in none, or the second
one of a pop. -/
lemma listStep_cases (hstep : listStep s p a = some (s', p', o)) :
    (∃ op, p = .idle ∧ a = .call op ∧ callSection s op = (s', p', o)) ∨
      (p = .popFront ∧ p' = .idle ∧ s.takeFront = (s', o)) ∨
      (p = .popBack ∧ p' = .idle ∧ s.takeBack = (s', o)) := by
  cases p with
  | idle =>
    cases a with
    | call op => exact Or.inl ⟨op, rfl, rfl, Option.some.inj hstep⟩
    | pop => cases hstep
  | popFront =>
    cases a with
    | call op => cases hstep
    | pop =>
      cases hstep
      exact Or.inr (Or.inl ⟨rfl, rfl, rfl⟩)
  | popBack =>
    cases a with
    | call op => cases hstep
    | pop =>
      cases hstep
      exact Or.inr (Or.inr ⟨rfl, rfl, rfl⟩)

/-- A section accesses an empty list exactly if it does not find what it takes. -/
lemma emptyAccess_mem_iff (hstep : listStep s p a = some (s', p', o)) :
    .emptyAccess ∈ o ↔ findsElements s p a = false := by
  obtain ⟨list, cleanUntil⟩ := s
  rcases listStep_cases hstep with ⟨op, rfl, rfl, hsection⟩ | ⟨rfl, -, htake⟩ | ⟨rfl, -, htake⟩
  · have hmem := emptyAccess_mem_callSection_iff ⟨list, cleanUntil⟩ op
    rw [hsection] at hmem
    exact hmem
  · cases list <;> cases htake <;> simp [findsElements, CountedList.empty]
  · cases list <;> cases htake <;> simp [findsElements, CountedList.empty]

/-- What the first section of an operation leaves in a list. -/
lemma list_ne_nil_of_callSection {op : ListOp T} (hne : s.list ≠ [])
    (hleaves : leavesElement s .idle (.call op) = true) : (callSection s op).1.list ≠ [] := by
  cases op with
  | pushBack value => exact List.append_ne_nil_of_left_ne_nil hne _
  | pushFront value => exact List.cons_ne_nil _ _
  | markForClean =>
    rw [callSection, CountedList.list_markForClean]
    exact hne
  | popFront | popBack =>
    rw [callSection]
    cases s.empty <;> exact hne
  | clean =>
    have hlt : s.cleanUntil.toNat < s.list.length := of_decide_eq_true hleaves
    rw [callSection, CountedList.clean_eq, if_pos (Nat.le_of_lt hlt)]
    exact fun hnil => Nat.not_lt.mpr (List.drop_eq_nil_iff.mp hnil) hlt

/-- What a section leaves in a list. -/
lemma list_ne_nil_of_listStep (hstep : listStep s p a = some (s', p', o)) (hne : s.list ≠ [])
    (hleaves : leavesElement s p a = true) : s'.list ≠ [] := by
  rcases listStep_cases hstep with ⟨op, rfl, rfl, hsection⟩ | ⟨rfl, -, htake⟩ | ⟨rfl, -, htake⟩
  · have hleft := list_ne_nil_of_callSection hne hleaves
    rw [hsection] at hleft
    exact hleft
  · have hlt : 1 < s.list.length := of_decide_eq_true hleaves
    rw [CountedList.takeFront] at htake
    cases hlist : s.list with
    | nil => exact absurd hlist hne
    | cons value rest =>
      rw [hlist] at htake hlt
      cases htake
      exact List.ne_nil_of_length_pos (Nat.lt_of_succ_lt_succ hlt)
  · have hlt : 1 < s.list.length := of_decide_eq_true hleaves
    rw [CountedList.takeBack, if_neg (by simpa using hne)] at htake
    cases htake
    refine List.ne_nil_of_length_pos ?_
    rw [List.length_dropLast]
    omega

/-- A thread goes on to the second section of a pop only if the first one has found an element. -/
lemma list_ne_nil_of_position (hstep : listStep s p a = some (s', p', o)) (hp' : p' ≠ .idle) :
    s'.list ≠ [] := by
  rcases listStep_cases hstep with ⟨op, rfl, rfl, hsection⟩ | ⟨-, hidle, -⟩ | ⟨-, hidle, -⟩
  · cases op with
    | pushBack value | pushFront value | markForClean => cases hsection; exact absurd rfl hp'
    | popFront | popBack =>
      rw [callSection] at hsection
      cases hempty : s.empty with
      | true => rw [hempty] at hsection; cases hsection; exact absurd rfl hp'
      | false =>
        rw [hempty] at hsection
        cases hsection
        exact fun hnil => by simp [CountedList.empty, hnil] at hempty
    | clean =>
      rw [callSection, CountedList.clean_eq] at hsection
      split_ifs at hsection <;> cases hsection <;> exact absurd rfl hp'
  · exact absurd hidle hp'
  · exact absurd hidle hp'

/-- **The proof outline of the operations.** A thread between the sections of a pop finds an
element, as long as no other thread takes the last one. -/
theorem listOutline :
    (listSystem T).Outline (fun _ => True) (fun s p => p ≠ .idle → s.list ≠ [])
      (fun s p a => cleansMarked s p a = true) (fun s p a q => keepsElement s p a q = true)
      (fun x => x ≠ .emptyAccess) where
  init := trivial
  start := fun h => absurd rfl h
  own := by
    intro s p a s' p' o _ hfinds hclean hstep
    refine ⟨trivial, list_ne_nil_of_position hstep, ?_⟩
    rintro x hx rfl
    have hmissing := (emptyAccess_mem_iff hstep).mp hx
    cases p with
    | idle =>
      cases a with
      | call op =>
        cases op with
        | clean => rw [findsElements, ← cleansMarked, hclean] at hmissing; cases hmissing
        | _ => cases hmissing
      | pop => cases hstep
    | popFront | popBack =>
      have hne := hfinds (by decide)
      simp [findsElements, CountedList.empty, hne] at hmissing
  other := by
    intro s p a s' p' o q _ _ hfinds hkeeps hstep hq
    rw [keepsElement, decide_eq_false hq, Bool.false_or] at hkeeps
    exact list_ne_nil_of_listStep hstep (hfinds hq) hkeeps

/-- One more section and the accesses to the empty list. -/
lemma neverEmptyAccess_concat {l : ListLog T} {e : ℕ × ListAction T} :
    NeverEmptyAccess (l ++ [(e, o)]) ↔ NeverEmptyAccess l ∧ .emptyAccess ∉ o := by
  rw [NeverEmptyAccess, List.forall_mem_append, List.forall_mem_singleton]
  rfl

end Sections

/-- **The list under every interleaving.** However the sections of any number of threads are
interleaved: no element of an empty `std::list` is read or popped if `clean` is called only with as
many elements as the latest mark has counted, and no section takes the last element while another
thread stands between the two sections of a pop. The first part only says section by section what
that safety is: every section finds the elements that it takes. -/
theorem listSections_safe (T : Type*) (l : ListLog T) (c : ListConf T)
    (hrun : (listSystem T).machine.Run l c) :
    (NeverEmptyAccess l ↔ (listSystem T).machine.EveryStep FindsElements l) ∧
      ((listSystem T).machine.EveryStep LeavesElements l → NeverEmptyAccess l) := by
  constructor
  · have hthroughout : (listSystem T).machine.Throughout (listSystem T).machine.init
        (fun l _ => NeverEmptyAccess l) l ↔
        (listSystem T).machine.EveryStep FindsElements l := by
      refine LogMachine.throughout_iff_everyStepFrom (by simp [NeverEmptyAccess]) ?_ ?_ hrun
      · intro l c e o c' _ hsafe hfinds hstep
        have hmem := emptyAccess_mem_iff (ThreadSystem.of_machine_step hstep).1
        refine neverEmptyAccess_concat.mpr ⟨hsafe, fun h => ?_⟩
        exact Bool.false_ne_true ((hmem.mp h).symm.trans hfinds)
      · intro l c e o c' _ hfinds hstep hsafe
        have hmem := emptyAccess_mem_iff (ThreadSystem.of_machine_step hstep).1
        exact (neverEmptyAccess_concat.mp hsafe).2 (hmem.mpr (Bool.eq_false_iff.mpr hfinds))
    rw [← hthroughout]
    constructor
    · rintro hsafe l₁ l₂ c₁ rfl -
      exact fun e he => hsafe e (List.mem_append_left _ he)
    · intro h
      exact h.last hrun
  · intro hleaves e he hempty
    exact (listOutline.throughout hleaves).last hrun |>.outputs e he _ hempty rfl

/-- Two threads take an element each, and `clean` takes one that was marked. -/
def takenAndCleaned : List (ℕ × ListAction ℕ) :=
  [(0, .call (.pushBack 1)), (1, .call (.pushBack 2)), (0, .call .popFront), (1, .call .popBack),
    (0, .pop), (1, .pop), (1, .call (.pushFront 3)), (0, .call .markForClean),
    (1, .call (.pushBack 4)), (0, .call .clean)]

/-- `takenAndCleaned` accesses no empty list. -/
theorem listSections_safe_takenAndCleaned :
    ∃ l c, (listSystem ℕ).machine.Run l c ∧ l.map Prod.fst = takenAndCleaned ∧
      c.shared.list = [4] ∧ (listSystem ℕ).machine.EveryStep LeavesElements l ∧
      NeverEmptyAccess l := by
  have hexec : ((listSystem ℕ).machine.exec (listSystem ℕ).machine.init takenAndCleaned).map
      (fun r => r.1.shared.list) = some [4] := by decide
  obtain ⟨l, c, hrun, hes, hlist⟩ := LogMachine.exists_run_of_map_exec hexec
  have hleaves : (listSystem ℕ).machine.EveryStep LeavesElements l := by
    refine ThreadSystem.everyStep_undisturbed_of_check [0, 1] hrun ?_ (fun _ _ _ => rfl) ?_
    · rw [hes]
      decide
    · rw [hes]
      decide
  exact ⟨l, c, hrun, hes, hlist, hleaves, (listSections_safe ℕ l c hrun).2 hleaves⟩

/-- Two threads find the same element and both take one. -/
def takenTwice : List (ℕ × ListAction ℕ) :=
  [(0, .call (.pushBack 1)), (0, .call .popFront), (1, .call .popFront), (0, .pop), (1, .pop)]

/-- An element is taken between `mark_for_clean` and `clean`. -/
def takenBeforeClean : List (ℕ × ListAction ℕ) :=
  [(0, .call (.pushBack 1)), (0, .call .markForClean), (1, .call .popFront), (1, .pop),
    (0, .call .clean)]

/-- **An empty list is accessed** by the second of two threads that have found the same element, and
by a `clean` after a marked element was taken. -/
theorem emptyAccess_takenTwice :
    (∃ l c, (listSystem ℕ).machine.Run l c ∧ l.map Prod.fst = takenTwice ∧
        l.flatMap Prod.snd = [.returned (some 1), .emptyAccess] ∧ ¬ NeverEmptyAccess l) ∧
      ∃ l c, (listSystem ℕ).machine.Run l c ∧ l.map Prod.fst = takenBeforeClean ∧
        l.flatMap Prod.snd = [.returned (some 1), .emptyAccess] ∧ ¬ NeverEmptyAccess l := by
  have hbroken : ∀ l : ListLog ℕ, l.flatMap Prod.snd = [.returned (some 1), .emptyAccess] →
      ¬ NeverEmptyAccess l := by
    intro l hout hsafe
    have hmem : ListOutput.emptyAccess ∈ l.flatMap Prod.snd := by simp [hout]
    obtain ⟨e, he, hempty⟩ := List.mem_flatMap.mp hmem
    exact hsafe e he hempty
  constructor
  · have hexec : ((listSystem ℕ).machine.exec (listSystem ℕ).machine.init takenTwice).map
        (fun r => r.2.flatMap Prod.snd) = some [.returned (some 1), .emptyAccess] := by decide
    obtain ⟨l, c, hrun, hes, hout⟩ := LogMachine.exists_run_of_map_exec hexec
    exact ⟨l, c, hrun, hes, hout, hbroken l hout⟩
  · have hexec : ((listSystem ℕ).machine.exec (listSystem ℕ).machine.init takenBeforeClean).map
        (fun r => r.2.flatMap Prod.snd) = some [.returned (some 1), .emptyAccess] := by decide
    obtain ⟨l, c, hrun, hes, hout⟩ := LogMachine.exists_run_of_map_exec hexec
    exact ⟨l, c, hrun, hes, hout, hbroken l hout⟩

end KotlinTracer
