import KotlinTracer.ConcurrentCollections.ListSections
import KotlinTracer.Lib.SharedMutex

set_option relaxedAutoImplicit false
set_option autoImplicit false

/-!
# The concurrent list, access by access

The methods of `ConcurrentList` (`concurrentCollections/concurrentList.h`) with the `shared_mutex`
itself: taking the lock, every access to the `std::list` and to the counter, and releasing the lock
are steps of their own, and the steps of any number of threads are interleaved. `clean` pops one
element after the other, and the methods that read go from node to node. The methods still behave as
if each of their lock sections were one step, which is how `KotlinTracer.listSystem` takes them.

## Main definitions

* `KotlinTracer.ListQuery` — the methods that only read.
* `KotlinTracer.sectionSystem` — the threads that use a list, section by section.
* `KotlinTracer.LockedPosition`, `KotlinTracer.lockedListSystem` — the threads that use a list,
  access by access.
* `KotlinTracer.sectionLog` — the sections of a run access by access, in the order in which they
  take effect, each with its thread and with what that thread sees of it.
* `KotlinTracer.Simulates` — how a state of the one and a state of the other belong together.

## Main results

* `KotlinTracer.lockedList_guards` — the positions say how a thread holds the lock.
* `KotlinTracer.lockedStep_simulated` — a step of a thread is a section or no step at all.
* `KotlinTracer.entered_eq` — the sections that a thread enters are those that take effect.
* `KotlinTracer.lockedList_refines` — the sections of an interleaving of accesses are an
  interleaving of sections.

## Design

A section takes effect when its lock is released, except for `mark_for_clean`, which stores the
counter under the shared lock: it takes effect with the store. Until then, an exclusive section has
the list for itself, so that nobody sees it half changed, and a shared one finds the list unchanged
at every access. The step with which a section takes effect reports the section, with what its
thread sees of it; no other step reports anything.
-/

namespace KotlinTracer

variable {T : Type*}

/-! ## The methods that read -/

/-- The elements that a loop from the front visits, if it is left at the first one where `stop`
holds. -/
def visit (stop : T → Bool) : List T → List T
  | [] => []
  | x :: xs => if stop x then [x] else x :: visit stop xs

/-- The methods that only read: `traverse` stands for `snapshot`, `forEach` and `forEachFiltered`,
which visit all elements, and for `find`, which stops at the element that it returns. -/
inductive ListQuery (T : Type*)
  | empty
  | size
  | back
  | traverse (stop : T → Bool)

/-- What a thread sees of a call: an effect of a method that changes the list, or the answer of one
that reads. -/
inductive CallOutput (T : Type*)
  | effect (o : ListOutput T)
  | empty (answer : Bool)
  | size (answer : ℕ)
  | back (answer : T)
  | visited (elements : List T)
deriving DecidableEq

/-- The answer on a list. -/
def ListQuery.answer (l : List T) : ListQuery T → CallOutput T
  | .empty => .empty l.isEmpty
  | .size => .size l.length
  | .back => match l.getLast? with
    | some value => .back value
    | none => .effect .emptyAccess
  | .traverse stop => .visited (visit stop l)

/-- A loop that is never left visits all elements. -/
lemma visit_of_forall {stop : T → Bool} {l : List T} (h : ∀ x ∈ l, stop x = false) :
    visit stop l = l := by
  induction l with
  | nil => rfl
  | cons x xs ih =>
    obtain ⟨hx, hxs⟩ := List.forall_mem_cons.mp h
    rw [visit, hx, ih hxs]
    rfl

/-- The loop is left at the first element where `stop` holds. -/
lemma visit_append_of_stop {stop : T → Bool} {l₁ l₂ : List T} {x : T}
    (h : ∀ y ∈ l₁, stop y = false) (hx : stop x = true) :
    visit stop (l₁ ++ x :: l₂) = l₁ ++ [x] := by
  induction l₁ with
  | nil => simp [visit, hx]
  | cons y ys ih =>
    obtain ⟨hy, hys⟩ := List.forall_mem_cons.mp h
    rw [List.cons_append, visit, hy, ih hys]
    rfl

/-! ## Section by section -/

/-- What a thread does next: a section of a method that changes the list, or a method that reads. -/
inductive SectionAction (T : Type*)
  | update (a : ListAction T)
  | query (q : ListQuery T)

/-- The sections of a thread. -/
def sectionStep (s : CountedList T) (p : ListPosition) :
    SectionAction T → Option (CountedList T × ListPosition × List (CallOutput T))
  | .update a => (listStep s p a).map fun r => (r.1, r.2.1, r.2.2.map .effect)
  | .query q => if p = .idle then some (s, .idle, [q.answer s.list]) else none

/-- The threads that use a list, section by section. -/
def sectionSystem (T : Type*) :
    ThreadSystem (CountedList T) ListPosition (SectionAction T) (CallOutput T) where
  init := {}
  start := .idle
  step := sectionStep

/-! ## Access by access -/

/-- A section that takes effect, with what its thread sees of it. -/
abbrev SectionRecord (T : Type*) :=
  SectionAction T × List (CallOutput T)

/-- The store of a size into the counter, the second access of `mark_for_clean`. -/
def CountedList.store (s : CountedList T) (size : ℕ) : CountedList T :=
  { s with cleanUntil := intOfSize size }

lemma CountedList.store_length (s : CountedList T) : s.store s.list.length = s.markForClean := by
  rw [store, markForClean]

@[simp] lemma CountedList.list_store (s : CountedList T) (size : ℕ) :
    (s.store size).list = s.list := by
  rw [store]

/-- `ConcurrentList<T>` with its lock. -/
structure LockedList (T : Type*) where
  data : CountedList T := {}
  mutex : SharedMutex := {}

/-- Where a thread stands in the code of the methods. -/
inductive LockedPosition (T : Type*)
  /-- Without the lock: in no method, or between the two sections of a pop. -/
  | outside (p : ListPosition)
  /-- Before `list_.push_back`. -/
  | pushingBack (value : T)
  /-- Before `list_.push_front`. -/
  | pushingFront (value : T)
  /-- In `pop_front`, before `list_.front`. -/
  | fronting
  /-- In `pop_front`, before `list_.pop_front`. -/
  | popping (value : T)
  /-- In `pop_back`, before `list_.pop_back`. -/
  | backing
  /-- In `clean`, before the counter is loaded. -/
  | loading
  /-- In the loop of `clean`, before the test. -/
  | cleaning (i : ℕ) (until_ : ℤ)
  /-- Before the exclusive lock of a section is released. -/
  | finished (p : ListPosition) (a : ListAction T) (o : List (ListOutput T))
  /-- In the first section of a pop, before `list_.empty`. -/
  | checking (p : ListPosition)
  /-- Before the shared lock of this section is released. -/
  | checked (p : ListPosition) (empty : Bool)
  /-- In `mark_for_clean`, before `list_.size`. -/
  | sizing
  /-- In `mark_for_clean`, before the store. -/
  | storing (size : ℕ)
  /-- In `mark_for_clean`, before the shared lock is released. -/
  | stored
  /-- In a method that makes one access. -/
  | reading (q : ListQuery T)
  /-- In the loop of a method that visits the elements. -/
  | traversing (stop : T → Bool) (i : ℕ) (visited : List T)
  /-- Before the shared lock of a method that reads is released. -/
  | answered (q : ListQuery T) (answer : CallOutput T)

/-- What a thread does next: take the lock for a section, or go on. -/
inductive LockedAction (T : Type*)
  | enter (a : SectionAction T)
  | go

/-- The pop whose first section leads to a position. -/
def ListPosition.op : ListPosition → ListOp T
  | .popBack => .popBack
  | .idle | .popFront => .popFront

namespace LockedList

/-- Take the lock shared and go to a position. -/
def enterShared (s : LockedList T) (p : LockedPosition T) :
    Option (LockedList T × LockedPosition T × List (SectionRecord T)) :=
  s.mutex.lockShared.map fun mutex => ({ s with mutex := mutex }, p, [])

/-- Take the lock exclusively and go to a position. -/
def enterExclusive (s : LockedList T) (p : LockedPosition T) :
    Option (LockedList T × LockedPosition T × List (SectionRecord T)) :=
  s.mutex.lock.map fun mutex => ({ s with mutex := mutex }, p, [])

/-- Take the lock for a section. -/
def enter (s : LockedList T) : ListPosition → SectionAction T →
    Option (LockedList T × LockedPosition T × List (SectionRecord T))
  | .idle, .update (.call (.pushBack value)) => s.enterExclusive (.pushingBack value)
  | .idle, .update (.call (.pushFront value)) => s.enterExclusive (.pushingFront value)
  | .idle, .update (.call .popFront) => s.enterShared (.checking .popFront)
  | .idle, .update (.call .popBack) => s.enterShared (.checking .popBack)
  | .idle, .update (.call .markForClean) => s.enterShared .sizing
  | .idle, .update (.call .clean) => s.enterExclusive .loading
  | .popFront, .update .pop => s.enterExclusive .fronting
  | .popBack, .update .pop => s.enterExclusive .backing
  | .idle, .query (.traverse stop) => s.enterShared (.traversing stop 0 [])
  | .idle, .query q => s.enterShared (.reading q)
  | _, _ => none

/-- Replace the `std::list`. -/
def setList (s : LockedList T) (list : List T) : LockedList T :=
  { s with data := { s.data with list := list } }

/-- An access, or the release of the lock. -/
def go (s : LockedList T) : LockedPosition T →
    Option (LockedList T × LockedPosition T × List (SectionRecord T))
  | .outside _ => none
  | .pushingBack value =>
    some (s.setList (s.data.list ++ [value]), .finished .idle (.call (.pushBack value)) [], [])
  | .pushingFront value =>
    some (s.setList (value :: s.data.list), .finished .idle (.call (.pushFront value)) [], [])
  | .fronting =>
    match s.data.list with
    | [] => some (s, .finished .popFront .pop [.emptyAccess], [])
    | value :: _ => some (s, .popping value, [])
  | .popping value =>
    some (s.setList s.data.list.tail, .finished .popFront .pop [.returned (some value)], [])
  | .backing =>
    if s.data.list.isEmpty then some (s, .finished .popBack .pop [.emptyAccess], [])
    else some (s.setList s.data.list.dropLast, .finished .popBack .pop [], [])
  | .loading => some (s, .cleaning 0 s.data.cleanUntil, [])
  | .cleaning i until_ =>
    if (i : ℤ) < until_ then
      match s.data.list with
      -- the loop goes on with an empty list
      | [] => some (s, .finished .idle (.call .clean) [.emptyAccess], [])
      | _ :: rest => some (s.setList rest, .cleaning (i + 1) until_, [])
    else some (s, .finished .idle (.call .clean) [], [])
  | .finished _ a o =>
    some ({ s with mutex := s.mutex.unlock }, .outside .idle, [(.update a, o.map .effect)])
  | .checking p => some (s, .checked p s.data.list.isEmpty, [])
  | .checked p empty =>
    if empty then
      some ({ s with mutex := s.mutex.unlockShared }, .outside .idle,
        [(.update (.call p.op), if p = .popFront then [.effect (.returned none)] else [])])
    else some ({ s with mutex := s.mutex.unlockShared }, .outside p, [(.update (.call p.op), [])])
  | .sizing => some (s, .storing s.data.list.length, [])
  | .storing size =>
    some ({ s with data := s.data.store size }, .stored, [(.update (.call .markForClean), [])])
  | .stored => some ({ s with mutex := s.mutex.unlockShared }, .outside .idle, [])
  | .reading q => some (s, .answered q (q.answer s.data.list), [])
  | .traversing stop i visited =>
    match s.data.list[i]? with
    | none => some (s, .answered (.traverse stop) (.visited visited), [])
    | some x =>
      if stop x then some (s, .answered (.traverse stop) (.visited (visited ++ [x])), [])
      else some (s, .traversing stop (i + 1) (visited ++ [x]), [])
  | .answered q answer =>
    some ({ s with mutex := s.mutex.unlockShared }, .outside .idle, [(.query q, [answer])])

end LockedList

/-- The steps of a thread. -/
def lockedStep (s : LockedList T) : LockedPosition T → LockedAction T →
    Option (LockedList T × LockedPosition T × List (SectionRecord T))
  | .outside p, .enter a => s.enter p a
  | p, .go => s.go p
  | _, _ => none

/-- The threads that use a list, access by access. -/
def lockedListSystem (T : Type*) :
    ThreadSystem (LockedList T) (LockedPosition T) (LockedAction T) (SectionRecord T) where
  init := {}
  start := .outside .idle
  step := lockedStep

/-! ## Who holds the lock -/

open SharedMutex (Mode)

namespace LockedPosition

/-- How a thread at a position holds the lock. -/
def holds : LockedPosition T → Option Mode
  | .outside _ => none
  | .pushingBack _ | .pushingFront _ | .fronting | .popping _ | .backing | .loading
  | .cleaning _ _ | .finished _ _ _ => some .exclusive
  | .checking _ | .checked _ _ | .sizing | .storing _ | .stored | .reading _ | .traversing _ _ _
  | .answered _ _ => some .shared

end LockedPosition

variable {s s' : LockedList T} {p p' : LockedPosition T} {o : List (SectionRecord T)}

namespace LockedList

lemma enterShared_eq_some {q : LockedPosition T} (h : s.enterShared q = some (s', p', o)) :
    s.mutex.lockShared = some s'.mutex ∧ s'.data = s.data ∧ p' = q ∧ o = [] := by
  obtain ⟨mutex, hmutex, heq⟩ := Option.map_eq_some_iff.mp h
  cases heq
  exact ⟨hmutex, rfl, rfl, rfl⟩

lemma enterExclusive_eq_some {q : LockedPosition T} (h : s.enterExclusive q = some (s', p', o)) :
    s.mutex.lock = some s'.mutex ∧ s'.data = s.data ∧ p' = q ∧ o = [] := by
  obtain ⟨mutex, hmutex, heq⟩ := Option.map_eq_some_iff.mp h
  cases heq
  exact ⟨hmutex, rfl, rfl, rfl⟩

/-- The positions right after taking the lock for a section of a thread at `q`. -/
def Entry (q : ListPosition) : LockedPosition T → Prop
  | .pushingBack _ | .pushingFront _ | .loading | .sizing | .reading _ => q = .idle
  | .fronting => q = .popFront
  | .backing => q = .popBack
  | .checking p => q = .idle ∧ p ≠ .idle
  | .traversing _ i visited => q = .idle ∧ i = 0 ∧ visited = []
  | _ => False

/-- **Taking the lock for a section** leaves the data alone and leads to the first access. -/
lemma enter_cases {q : ListPosition} {b : SectionAction T} (h : s.enter q b = some (s', p', o)) :
    s'.data = s.data ∧ o = [] ∧ Entry q p' ∧
      ((s.mutex.lockShared = some s'.mutex ∧ p'.holds = some .shared) ∨
        (s.mutex.lock = some s'.mutex ∧ p'.holds = some .exclusive)) := by
  unfold enter at h
  split at h
  all_goals first
    | cases h
    | obtain ⟨hmutex, hdata, rfl, rfl⟩ := enterShared_eq_some h
      exact ⟨hdata, rfl, by simp [Entry], Or.inl ⟨hmutex, rfl⟩⟩
    | obtain ⟨hmutex, hdata, rfl, rfl⟩ := enterExclusive_eq_some h
      exact ⟨hdata, rfl, by simp [Entry], Or.inr ⟨hmutex, rfl⟩⟩

/-- An access, or the release of the lock, in terms of the lock. -/
lemma go_transition (h : s.go p = some (s', p', o)) :
    SharedMutex.Transition p.holds s.mutex p'.holds s'.mutex := by
  cases p with
  | outside q => cases h
  | pushingBack value | pushingFront value | popping value | loading | checking q | sizing
  | storing size | reading q =>
    cases h
    exact .keep _ _
  | finished q b out =>
    cases h
    exact .unlock _
  | stored | answered q answer =>
    cases h
    exact .unlockShared _
  | fronting =>
    rw [go] at h
    split at h <;> cases h <;> exact .keep _ _
  | backing =>
    rw [go] at h
    split_ifs at h <;> cases h <;> exact .keep _ _
  | cleaning i until_ =>
    rw [go] at h
    split_ifs at h
    · split at h <;> cases h <;> exact .keep _ _
    · cases h
      exact .keep _ _
  | checked q empty =>
    rw [go] at h
    split_ifs at h <;> cases h <;> exact .unlockShared _
  | traversing stop i visited =>
    rw [go] at h
    split at h
    · cases h
      exact .keep _ _
    · split_ifs at h <;> cases h <;> exact .keep _ _

end LockedList

/-- A step of a thread takes the lock for a section, or goes on. -/
lemma lockedStep_cases {a : LockedAction T} (h : lockedStep s p a = some (s', p', o)) :
    (∃ q b, p = .outside q ∧ s.enter q b = some (s', p', o)) ∨ s.go p = some (s', p', o) := by
  cases a with
  | go => cases p <;> exact Or.inr h
  | enter b =>
    cases p with
    | outside q => exact Or.inl ⟨q, b, rfl, h⟩
    | _ => cases h

/-- The positions say how a thread holds the lock. -/
theorem lockedList_guards (T : Type*) :
    SharedMutex.Guards (lockedListSystem T) LockedList.mutex LockedPosition.holds where
  init := rfl
  start := rfl
  step := by
    intro s p a s' p' o hstep
    obtain ⟨q, b, rfl, henter⟩ | hgo := lockedStep_cases hstep
    · obtain ⟨-, -, -, ⟨hmutex, hholds⟩ | ⟨hmutex, hholds⟩⟩ := LockedList.enter_cases henter
      · rw [hholds]
        exact .lockShared hmutex
      · rw [hholds]
        exact .lock hmutex
    · exact LockedList.go_transition hgo

/-! ## The simulation -/

namespace LockedPosition

/-- The position between sections that a thread is at, as long as its section has not taken
effect. -/
def sectionPosition : LockedPosition T → ListPosition
  | .outside p => p
  | .fronting | .popping _ => .popFront
  | .backing => .popBack
  | .finished p _ _ => p
  | _ => .idle

/-- What a thread at a position knows: `s` is the list without the section that is going on, and `d`
is the list as it is. An exclusive section knows what it has done so far; a shared one knows what it
has read of the `std::list`. -/
def Knows (s d : CountedList T) : LockedPosition T → Prop
  | .outside _ | .sizing | .stored | .reading _ => True
  | .pushingBack _ | .pushingFront _ | .fronting | .backing | .loading => d = s
  | .popping value => d = s ∧ s.list.head? = some value
  | .cleaning i until_ => until_ = s.cleanUntil ∧ i ≤ until_.toNat ∧ i ≤ s.list.length ∧
      d = { s with list := s.list.drop i }
  | .finished p a o => listStep s p a = some (d, .idle, o)
  | .checking p => p ≠ .idle
  | .checked p empty => empty = d.list.isEmpty ∧ p ≠ .idle
  | .storing size => size = d.list.length
  | .traversing stop i visited => visited = d.list.take i ∧ ∀ x ∈ visited, stop x = false
  | .answered q answer => answer = q.answer d.list

end LockedPosition

variable {b d : CountedList T}

/-- A step of a thread, seen section by section: nothing, or the section that it reports. -/
def SectionStep (b b' : CountedList T) (p p' : LockedPosition T) (o : List (SectionRecord T)) :
    Prop :=
  (b' = b ∧ o = [] ∧ p'.sectionPosition = p.sectionPosition) ∨
    ∃ act out, o = [(act, out)] ∧
      sectionStep b p.sectionPosition act = some (b', p'.sectionPosition, out)

/-- A thread that takes the lock for a section finds the list without a section that is going on. -/
lemma knows_of_entry {q : ListPosition} (h : LockedList.Entry q p') :
    p'.Knows b b ∧ p'.sectionPosition = q := by
  cases p' with
  | pushingBack value | pushingFront value | fronting | backing | loading =>
    exact ⟨rfl, h.symm⟩
  | sizing | reading q => exact ⟨trivial, h.symm⟩
  | checking q => exact ⟨h.2, h.1.symm⟩
  | traversing stop i visited =>
    obtain ⟨hq, rfl, rfl⟩ := h
    exact ⟨⟨rfl, fun x hx => absurd hx List.not_mem_nil⟩, hq.symm⟩
  | _ => cases h

/-- The loop of `clean` after `i` elements. -/
lemma cleaning_step {i : ℕ} {until_ : ℤ} (hknows : (LockedPosition.cleaning i until_).Knows b d)
    (hlt : (i : ℤ) < until_) :
    (d.list = [] → listStep b .idle (.call .clean) = some (d, .idle, [.emptyAccess])) ∧
      ∀ x rest, d.list = x :: rest →
        (LockedPosition.cleaning (i + 1) until_).Knows b { d with list := rest } := by
  obtain ⟨rfl, -, hi, rfl⟩ := hknows
  have hlt' : i < b.cleanUntil.toNat := by omega
  constructor
  · intro hnil
    have hle : b.list.length ≤ i := List.drop_eq_nil_iff.mp hnil
    have hclean : b.clean = none := by
      rw [CountedList.clean_eq, if_neg (by omega)]
    rw [listStep, callSection, hclean]
    simp only at hnil ⊢
    rw [hnil]
  · intro x rest hcons
    simp only at hcons
    have hlength : i < b.list.length := by
      by_contra hle
      rw [List.drop_eq_nil_iff.mpr (by omega)] at hcons
      cases hcons
    refine ⟨rfl, hlt', hlength, ?_⟩
    rw [← List.drop_drop, hcons]
    rfl

/-- The end of the loop of `clean`. -/
lemma cleaning_end {i : ℕ} {until_ : ℤ} (hknows : (LockedPosition.cleaning i until_).Knows b d)
    (hge : ¬ (i : ℤ) < until_) : listStep b .idle (.call .clean) = some (d, .idle, []) := by
  obtain ⟨rfl, hle, hi, rfl⟩ := hknows
  have heq : i = b.cleanUntil.toNat := by omega
  have hclean : b.clean = some { b with list := b.list.drop i } := by
    rw [CountedList.clean_eq, ← heq, if_pos hi]
  rw [listStep, callSection, hclean]

/-- An access of a loop that visits the elements. -/
lemma traversing_step {stop : T → Bool} {i : ℕ} {visited : List T}
    (hknows : (LockedPosition.traversing stop i visited).Knows b d) :
    (d.list[i]? = none → visited = visit stop d.list) ∧
      ∀ x, d.list[i]? = some x →
        (stop x = true → visited ++ [x] = visit stop d.list) ∧
        (stop x = false →
          (LockedPosition.traversing stop (i + 1) (visited ++ [x])).Knows b d) := by
  obtain ⟨rfl, hstop⟩ := hknows
  constructor
  · intro hnone
    have hle := List.getElem?_eq_none_iff.mp hnone
    rw [List.take_of_length_le hle] at hstop ⊢
    exact (visit_of_forall hstop).symm
  · intro x hx
    obtain ⟨hlt, hget⟩ := List.getElem?_eq_some_iff.mp hx
    constructor
    · intro htrue
      have hsplit : d.list = d.list.take i ++ x :: d.list.drop (i + 1) := by
        rw [← hget, List.getElem_cons_drop, List.take_append_drop]
      have hvisit : visit stop (d.list.take i ++ x :: d.list.drop (i + 1)) =
          d.list.take i ++ [x] := visit_append_of_stop hstop htrue
      rw [← hsplit] at hvisit
      exact hvisit.symm
    · intro hfalse
      refine ⟨?_, fun y hy => ?_⟩
      · rw [List.take_add_one, hx]
        rfl
      · rcases List.mem_append.mp hy with hy | hy
        · exact hstop y hy
        · rw [List.mem_singleton.mp hy]
          exact hfalse

/-- An access of an exclusive section goes unnoticed, and its release is the section. -/
lemma go_exclusive (hholds : p.holds = some .exclusive) (hknows : p.Knows b s.data)
    (h : s.go p = some (s', p', o)) :
    (p'.holds = some .exclusive ∧ p'.Knows b s'.data ∧ o = [] ∧
        p'.sectionPosition = p.sectionPosition) ∨
      (p'.holds = none ∧ ∃ act out, o = [(act, out)] ∧
        sectionStep b p.sectionPosition act = some (s'.data, p'.sectionPosition, out)) := by
  cases p with
  | pushingBack value | pushingFront value =>
    cases h
    obtain rfl := hknows
    exact Or.inl ⟨rfl, rfl, rfl, rfl⟩
  | fronting =>
    obtain rfl := hknows
    rw [LockedList.go] at h
    split at h
    · next hnil =>
      cases h
      refine Or.inl ⟨rfl, ?_, rfl, rfl⟩
      rw [LockedPosition.Knows, listStep, CountedList.takeFront, hnil]
    · next value rest hcons =>
      cases h
      refine Or.inl ⟨rfl, ⟨rfl, ?_⟩, rfl, rfl⟩
      rw [hcons]
      rfl
  | popping value =>
    obtain ⟨rfl, hhead⟩ := hknows
    cases h
    refine Or.inl ⟨rfl, ?_, rfl, rfl⟩
    obtain ⟨rest, hcons⟩ := List.head?_eq_some_iff.mp hhead
    rw [LockedPosition.Knows, listStep, CountedList.takeFront, LockedList.setList, hcons]
    rfl
  | backing =>
    obtain rfl := hknows
    rw [LockedList.go] at h
    split_ifs at h with hempty
    · cases h
      refine Or.inl ⟨rfl, ?_, rfl, rfl⟩
      rw [LockedPosition.Knows, listStep, CountedList.takeBack, if_pos hempty]
    · cases h
      refine Or.inl ⟨rfl, ?_, rfl, rfl⟩
      rw [LockedPosition.Knows, listStep, CountedList.takeBack, if_neg hempty]
      rfl
  | loading =>
    obtain rfl := hknows
    cases h
    exact Or.inl ⟨rfl, ⟨rfl, Nat.zero_le _, Nat.zero_le _, rfl⟩, rfl, rfl⟩
  | cleaning i until_ =>
    rw [LockedList.go] at h
    split_ifs at h with hlt
    · obtain ⟨hend, hnext⟩ := cleaning_step hknows hlt
      split at h
      · next hnil =>
        cases h
        exact Or.inl ⟨rfl, hend hnil, rfl, rfl⟩
      · next x rest hcons =>
        cases h
        exact Or.inl ⟨rfl, hnext x rest hcons, rfl, rfl⟩
    · cases h
      exact Or.inl ⟨rfl, cleaning_end hknows hlt, rfl, rfl⟩
  | finished q act out =>
    cases h
    refine Or.inr ⟨rfl, .update act, out.map .effect, rfl, ?_⟩
    have hstep : listStep b q act = some (s.data, .idle, out) := hknows
    change (listStep b q act).map _ = _
    rw [hstep]
    rfl
  | _ => cases hholds

/-- An access of a shared section finds the list of the section level; the store of the counter is
the section of `mark_for_clean`, and for the other methods the release is. -/
lemma go_shared (hholds : p.holds = some .shared) (hdata : s.data = b) (hknows : p.Knows b s.data)
    (h : s.go p = some (s', p', o)) :
    ∃ b', SectionStep b b' p p' o ∧ p'.Knows b' s'.data ∧ s'.data = b' ∧
      s'.data.list = s.data.list := by
  subst hdata
  cases p with
  | checking q =>
    cases h
    exact ⟨s.data, Or.inl ⟨rfl, rfl, rfl⟩, ⟨rfl, hknows⟩, rfl, rfl⟩
  | checked q empty =>
    obtain ⟨rfl, hq⟩ := hknows
    have hcall : ∀ op position out, callSection s.data op = (s.data, position, out) →
        sectionStep s.data .idle (.update (.call op)) =
          some (s.data, position, out.map .effect) := by
      intro op position out hsection
      rw [sectionStep, listStep, hsection]
      rfl
    rw [LockedList.go] at h
    by_cases hempty : s.data.list.isEmpty
    · rw [if_pos hempty] at h
      cases h
      cases q with
      | idle => exact absurd rfl hq
      | popFront =>
        exact ⟨s.data, Or.inr ⟨_, _, rfl, hcall .popFront .idle [.returned none] (if_pos hempty)⟩,
          trivial, rfl, rfl⟩
      | popBack =>
        exact ⟨s.data, Or.inr ⟨_, _, rfl, hcall .popBack .idle [] (if_pos hempty)⟩, trivial, rfl,
          rfl⟩
    · rw [if_neg hempty] at h
      cases h
      cases q with
      | idle => exact absurd rfl hq
      | popFront =>
        exact ⟨s.data, Or.inr ⟨_, _, rfl, hcall .popFront .popFront [] (if_neg hempty)⟩, trivial,
          rfl, rfl⟩
      | popBack =>
        exact ⟨s.data, Or.inr ⟨_, _, rfl, hcall .popBack .popBack [] (if_neg hempty)⟩, trivial, rfl,
          rfl⟩
  | sizing =>
    cases h
    exact ⟨s.data, Or.inl ⟨rfl, rfl, rfl⟩, rfl, rfl, rfl⟩
  | storing size =>
    cases h
    refine ⟨s.data.markForClean, Or.inr ⟨.update (.call .markForClean), [], rfl, rfl⟩, trivial, ?_,
      ?_⟩
    · rw [show size = s.data.list.length from hknows]
      exact s.data.store_length
    · exact s.data.list_store size
  | stored =>
    cases h
    exact ⟨s.data, Or.inl ⟨rfl, rfl, rfl⟩, trivial, rfl, rfl⟩
  | reading q =>
    cases h
    exact ⟨s.data, Or.inl ⟨rfl, rfl, rfl⟩, rfl, rfl, rfl⟩
  | traversing stop i visited =>
    obtain ⟨hend, hnext⟩ := traversing_step hknows
    rw [LockedList.go] at h
    split at h
    · next hnone =>
      cases h
      refine ⟨s.data, Or.inl ⟨rfl, rfl, rfl⟩, ?_, rfl, rfl⟩
      rw [LockedPosition.Knows, ListQuery.answer, hend hnone]
    · next x hx =>
      obtain ⟨hstop, hgoOn⟩ := hnext x hx
      split_ifs at h with htrue
      · cases h
        refine ⟨s.data, Or.inl ⟨rfl, rfl, rfl⟩, ?_, rfl, rfl⟩
        rw [LockedPosition.Knows, ListQuery.answer, hstop htrue]
      · cases h
        exact ⟨s.data, Or.inl ⟨rfl, rfl, rfl⟩, hgoOn (by simpa using htrue), rfl, rfl⟩
  | answered q answer =>
    cases h
    refine ⟨s.data, Or.inr ⟨.query q, [answer], rfl, ?_⟩, trivial, rfl, rfl⟩
    rw [show answer = q.answer s.data.list from hknows]
    rfl
  | _ => cases hholds

/-- A state access by access and a state section by section belong together: the threads are where
they would be without the sections that are going on, the lists agree unless an exclusive section is
going on, and every thread knows what it has done or read. -/
structure Simulates (c : ThreadSystem.Conf (LockedList T) (LockedPosition T)) (a : ListConf T) :
    Prop where
  threads : ∀ t, a.threads t = (c.threads t).sectionPosition
  data : c.shared.mutex.writer = false → c.shared.data = a.shared
  knows : ∀ t, (c.threads t).Knows a.shared c.shared.data

/-- What a thread knows without the lock is nothing. -/
lemma knows_of_holds_eq_none (h : p.holds = none) : p.Knows b d := by
  cases p with
  | outside q => trivial
  | _ => cases h

/-- What a thread knows with the shared lock is about the `std::list`. -/
lemma LockedPosition.Knows.of_list_eq {b' d' : CountedList T} (h : p.Knows b d)
    (hholds : p.holds = some .shared) (hlist : d'.list = d.list) : p.Knows b' d' := by
  cases p with
  | checking q | sizing | stored | reading q => exact h
  | checked q empty | storing size | traversing stop i visited | answered q answer =>
    simp only [LockedPosition.Knows, hlist] at h ⊢
    exact h
  | _ => cases hholds

/-- **A step of a thread is simulated.** Access by access, a step of a thread is either no step or a
section of the same thread, section by section, which is the one that it reports.

**Proof sketch.** Taking the lock changes nothing. With the exclusive lock no other thread knows
anything. With the shared lock nobody else holds the exclusive one, so the lists agree, and the
`std::list` stays as the other threads know it. -/
lemma lockedStep_simulated {c c' : ThreadSystem.Conf (LockedList T) (LockedPosition T)}
    {a : ListConf T} {t : ℕ} {act : LockedAction T}
    (hcounted : SharedMutex.Counted LockedPosition.holds c.threads c.shared.mutex)
    (hcounted' : SharedMutex.Counted LockedPosition.holds c'.threads c'.shared.mutex)
    (hsim : Simulates c a)
    (hstep : (lockedListSystem T).machine.step c (t, act) = some (c', o)) :
    ∃ b', SectionStep a.shared b' (c.threads t) (c'.threads t) o ∧
      Simulates c' ⟨b', fun u => (c'.threads u).sectionPosition⟩ := by
  obtain ⟨hsection, hothers⟩ := ThreadSystem.of_machine_step hstep
  obtain ⟨q, act, hp, henter⟩ | hgo := lockedStep_cases hsection
  · -- taking the lock: the lists agree before it
    obtain ⟨hdata, rfl, hentry, hlock⟩ := LockedList.enter_cases henter
    have hwriter : c.shared.mutex.writer = false := by
      obtain ⟨hmutex, -⟩ | ⟨hmutex, -⟩ := hlock
      · exact (SharedMutex.lockShared_eq_some_iff.mp hmutex).1
      · exact (SharedMutex.lock_eq_some_iff.mp hmutex).1
    have hagree : c'.shared.data = a.shared := hdata.trans (hsim.data hwriter)
    obtain ⟨hknows, hposition⟩ := knows_of_entry (b := a.shared) hentry
    refine ⟨a.shared, Or.inl ⟨rfl, rfl, ?_⟩, fun _ => rfl, fun _ => hagree, fun u => ?_⟩
    · rw [hposition, hp]
      rfl
    · by_cases hu : u = t
      · rw [hu, hagree]
        exact hknows
      · rw [hothers u hu, hdata]
        exact hsim.knows u
  · cases hholds : (c.threads t).holds with
    | none =>
      cases hp : c.threads t with
      | outside q =>
        rw [hp] at hgo
        cases hgo
      | _ =>
        rw [hp] at hholds
        cases hholds
    | some mode =>
      cases mode with
      | exclusive =>
        -- the other threads do not hold the lock
        have hnone : ∀ u, u ≠ t → ∀ b d, (c'.threads u).Knows b d := by
          intro u hu b d
          rw [hothers u hu]
          exact knows_of_holds_eq_none (hcounted.eq_none hholds hu)
        obtain ⟨hafter, hknows, ho, hposition⟩ | ⟨hafter, hact⟩ :=
          go_exclusive hholds (hsim.knows t) hgo
        · refine ⟨a.shared, Or.inl ⟨rfl, ho, hposition⟩, fun _ => rfl, fun hwriter => ?_,
            fun u => ?_⟩
          · rw [hcounted'.writer_eq_true hafter] at hwriter
            cases hwriter
          · by_cases hu : u = t
            · rw [hu]
              exact hknows
            · exact hnone u hu _ _
        · refine ⟨c'.shared.data, Or.inr hact, fun _ => rfl, fun _ => rfl, fun u => ?_⟩
          by_cases hu : u = t
          · rw [hu]
            exact knows_of_holds_eq_none hafter
          · exact hnone u hu _ _
      | shared =>
        have hwriter := hcounted.writer_eq_false hholds
        obtain ⟨b', hmatch, hknows, hdata, hlist⟩ :=
          go_shared hholds (hsim.data hwriter) (hsim.knows t) hgo
        refine ⟨b', hmatch, fun _ => rfl, fun _ => hdata, fun u => ?_⟩
        by_cases hu : u = t
        · rw [hu]
          exact hknows
        · rw [hothers u hu]
          cases hother : (c.threads u).holds with
          | none => exact knows_of_holds_eq_none hother
          | some mode =>
            cases mode with
            | shared => exact (hsim.knows u).of_list_eq hother hlist
            | exclusive =>
              rw [hcounted.writer_eq_true hother] at hwriter
              cases hwriter

/-- The sections of a run access by access, in the order in which they take effect: the thread, the
section, and what the thread sees of it. -/
def sectionLog (l : List ((ℕ × LockedAction T) × List (SectionRecord T))) :
    List ((ℕ × SectionAction T) × List (CallOutput T)) :=
  l.flatMap fun e => e.2.map fun record => ((e.1.1, record.1), record.2)

/-- A step that reports a section, as a run of the threads section by section. -/
lemma SectionStep.exists_run {c c' : ThreadSystem.Conf (LockedList T) (LockedPosition T)}
    {a : ListConf T} {b' : CountedList T} {t : ℕ} (hsim : Simulates c a)
    (hothers : ∀ u, u ≠ t → c'.threads u = c.threads u)
    (h : SectionStep a.shared b' (c.threads t) (c'.threads t) o) :
    (sectionSystem T).machine.RunFrom a (o.map fun record => ((t, record.1), record.2))
      ⟨b', fun u => (c'.threads u).sectionPosition⟩ := by
  obtain ⟨rfl, rfl, hposition⟩ | ⟨act, out, rfl, hact⟩ := h
  · refine (LogMachine.runFrom_nil _).mpr ?_
    have hthreads : (fun u => (c'.threads u).sectionPosition) = a.threads := by
      funext u
      rw [hsim.threads u]
      by_cases hu : u = t
      · rw [hu, hposition]
      · rw [hothers u hu]
    rw [hthreads]
  · refine (LogMachine.runFrom_cons _).mpr ⟨_, ?_, (LogMachine.runFrom_nil _).mpr rfl⟩
    have hthreads : Function.update a.threads t (c'.threads t).sectionPosition =
        fun u => (c'.threads u).sectionPosition := by
      funext u
      by_cases hu : u = t
      · rw [hu, Function.update_self]
      · rw [Function.update_of_ne hu, hsim.threads u, hothers u hu]
    rw [← hsim.threads t] at hact
    change ((sectionSystem T).step a.shared (a.threads t) act).map _ = _
    rw [show (sectionSystem T).step a.shared (a.threads t) act = _ from hact]
    simp only [Option.map_some, hthreads]

/-! ## The sections that the threads enter -/

/-- The section that a thread at a position has entered and that has not taken effect. -/
def LockedPosition.inProgress : LockedPosition T → Option (SectionAction T)
  | .outside _ | .stored => none
  | .pushingBack value => some (.update (.call (.pushBack value)))
  | .pushingFront value => some (.update (.call (.pushFront value)))
  | .fronting | .popping _ | .backing => some (.update .pop)
  | .loading | .cleaning _ _ => some (.update (.call .clean))
  | .finished _ a _ => some (.update a)
  | .checking p | .checked p _ => some (.update (.call p.op))
  | .sizing | .storing _ => some (.update (.call .markForClean))
  | .reading q | .answered q _ => some (.query q)
  | .traversing stop _ _ => some (.query (.traverse stop))

/-- The section that a thread enters with an action. -/
def LockedAction.entering : LockedAction T → Option (SectionAction T)
  | .enter a => some a
  | .go => none

/-- The sections that a thread enters, in order. -/
def entered (t : ℕ) (l : List ((ℕ × LockedAction T) × List (SectionRecord T))) :
    List (SectionAction T) :=
  l.flatMap fun e => if e.1.1 = t then e.1.2.entering.toList else []

/-- The sections of a thread, in order. -/
def sectionsOf (t : ℕ) (l : List ((ℕ × SectionAction T) × List (CallOutput T))) :
    List (SectionAction T) :=
  (l.filter fun e => e.1.1 = t).map fun e => e.1.2

namespace LockedList

/-- Taking the lock for a section begins it. -/
lemma inProgress_enter {q : ListPosition} {act : SectionAction T}
    (h : s.enter q act = some (s', p', o)) : p'.inProgress = some act ∧ o = [] := by
  unfold enter at h
  split at h
  all_goals first
    | cases h
    | obtain ⟨-, -, rfl, rfl⟩ := enterShared_eq_some h
      exact ⟨rfl, rfl⟩
    | obtain ⟨-, -, rfl, rfl⟩ := enterExclusive_eq_some h
      exact ⟨rfl, rfl⟩

/-- A thread goes on with its section, until it reports it. -/
lemma inProgress_go (h : s.go p = some (s', p', o)) :
    p.inProgress.toList = o.map Prod.fst ++ p'.inProgress.toList := by
  cases p with
  | outside q => cases h
  | pushingBack value | pushingFront value | popping value | loading | checking q | sizing
  | storing size | reading q | finished q b out | stored | answered q answer =>
    cases h
    rfl
  | fronting =>
    rw [go] at h
    split at h <;> cases h <;> rfl
  | backing =>
    rw [go] at h
    split_ifs at h <;> cases h <;> rfl
  | cleaning i until_ =>
    rw [go] at h
    split_ifs at h
    · split at h <;> cases h <;> rfl
    · cases h
      rfl
  | checked q empty =>
    rw [go] at h
    split_ifs at h <;> cases h <;> rfl
  | traversing stop i visited =>
    rw [go] at h
    split at h
    · cases h
      rfl
    · split_ifs at h <;> cases h <;> rfl

end LockedList

/-- What a step of a thread enters is added to what is in progress, and what it reports is taken
away. -/
lemma inProgress_lockedStep {a : LockedAction T} (h : lockedStep s p a = some (s', p', o)) :
    p.inProgress.toList ++ a.entering.toList = o.map Prod.fst ++ p'.inProgress.toList := by
  cases a with
  | go =>
    have hgo : s.go p = some (s', p', o) := by
      cases p <;> exact h
    rw [← LockedList.inProgress_go hgo]
    exact List.append_nil _
  | enter act =>
    cases p with
    | outside q =>
      obtain ⟨hprogress, rfl⟩ := LockedList.inProgress_enter h
      rw [hprogress]
      rfl
    | _ => cases h

lemma entered_concat (t u : ℕ) (l : List ((ℕ × LockedAction T) × List (SectionRecord T)))
    (act : LockedAction T) (o : List (SectionRecord T)) :
    entered t (l ++ [((u, act), o)]) =
      entered t l ++ if u = t then act.entering.toList else [] := by
  simp [entered]

lemma sectionsOf_concat (t u : ℕ) (l : List ((ℕ × LockedAction T) × List (SectionRecord T)))
    (act : LockedAction T) (o : List (SectionRecord T)) :
    sectionsOf t (sectionLog (l ++ [((u, act), o)])) =
      sectionsOf t (sectionLog l) ++ if u = t then o.map Prod.fst else [] := by
  rw [sectionsOf, sectionsOf, sectionLog, List.flatMap_append, List.flatMap_singleton,
    List.filter_append, List.map_append, List.filter_map, List.map_map]
  by_cases hu : u = t <;> simp [sectionLog, Function.comp_def, hu]

/-- **Every section that a thread enters takes effect once, in order**, except for the one that the
thread is in. -/
lemma entered_eq {l : List ((ℕ × LockedAction T) × List (SectionRecord T))}
    {c : ThreadSystem.Conf (LockedList T) (LockedPosition T)}
    (hrun : (lockedListSystem T).machine.Run l c) (t : ℕ) :
    entered t l = sectionsOf t (sectionLog l) ++ (c.threads t).inProgress.toList := by
  refine LogMachine.RunFrom.invariant (M := (lockedListSystem T).machine) (I := fun l c =>
    entered t l = sectionsOf t (sectionLog l) ++ (c.threads t).inProgress.toList) rfl ?_ hrun
  rintro l c ⟨u, act⟩ o c' - ih hstep
  obtain ⟨hsection, hothers⟩ := ThreadSystem.of_machine_step hstep
  rw [entered_concat, sectionsOf_concat, ih]
  by_cases hu : u = t
  · subst hu
    rw [if_pos rfl, if_pos rfl, List.append_assoc, List.append_assoc]
    exact congrArg _ (inProgress_lockedStep hsection)
  · rw [if_neg hu, if_neg hu, hothers t (Ne.symm hu), List.append_nil, List.append_nil]

/-! ## The refinement -/

/-- **Sections are atomic.** Whatever any number of threads do with a list, access by access, their
sections, in the order in which they take effect and with what the threads see of them, are those of
a run in which every section is one step. They are the sections that the threads have entered, each
one once and those of a thread in its order, except for those that are still going on. Whenever no
exclusive section is going on, the list is that of the run of sections. So a method that reads gives
the answer for the list at one moment, between the sections before it and those after it, although
it goes from element to element, and `clean` is never seen half done. -/
theorem lockedList_refines {l : List ((ℕ × LockedAction T) × List (SectionRecord T))}
    {c : ThreadSystem.Conf (LockedList T) (LockedPosition T)}
    (hrun : (lockedListSystem T).machine.Run l c) :
    (∃ a, (sectionSystem T).machine.Run (sectionLog l) a ∧
      (c.shared.mutex.writer = false → c.shared.data = a.shared) ∧
      ∀ t, a.threads t = (c.threads t).sectionPosition) ∧
    ∀ t, entered t l = sectionsOf t (sectionLog l) ++ (c.threads t).inProgress.toList := by
  have hguards := lockedList_guards T
  obtain ⟨l', a, hrun', hsim, hlog⟩ := LogMachine.Run.exists_simulating
    (M := (lockedListSystem T).machine) (N := (sectionSystem T).machine) (R := Simulates)
    (f := fun e => e.2.map fun record => ((e.1.1, record.1), record.2)) (g := fun e => [e])
    ⟨fun _ => rfl, fun _ => rfl, fun _ => trivial⟩ (by
      rintro l c ⟨t, act⟩ o c' a hrun hsim hstep
      have hrun' := (LogMachine.runFrom_concat _).mpr ⟨c, hrun, hstep⟩
      obtain ⟨b', hmatch, hsim'⟩ := lockedStep_simulated (hguards.counted hrun)
        (hguards.counted hrun') hsim hstep
      have hothers := (ThreadSystem.of_machine_step hstep).2
      exact ⟨_, _, hmatch.exists_run hsim hothers, hsim', List.flatMap_singleton' _⟩) hrun
  rw [List.flatMap_singleton'] at hlog
  subst hlog
  exact ⟨⟨a, hrun', hsim.data, hsim.threads⟩, entered_eq hrun⟩

/-- A push by one thread; a snapshot and a `mark_for_clean` by two others at the same time; a push at
the front; `size` and `back` at the same time; a `pop_front`, in two sections; a `clean`; and
`empty`. -/
def sampleAccesses : List (ℕ × LockedAction ℕ) :=
  [(0, .enter (.update (.call (.pushBack 7)))), (0, .go), (0, .go),
    (1, .enter (.query (.traverse fun _ => false))), (1, .go),
    (2, .enter (.update (.call .markForClean))), (2, .go), (1, .go), (2, .go), (1, .go), (2, .go),
    (0, .enter (.update (.call (.pushFront 5)))), (0, .go), (0, .go),
    (1, .enter (.query .size)), (2, .enter (.query .back)), (1, .go), (2, .go), (2, .go), (1, .go),
    (1, .enter (.update (.call .popFront))), (1, .go), (1, .go),
    (1, .enter (.update .pop)), (1, .go), (1, .go), (1, .go),
    (2, .enter (.update (.call .clean))), (2, .go), (2, .go), (2, .go), (2, .go),
    (0, .enter (.query .empty)), (0, .go), (0, .go)]

/-- The sections of the sample: the counter is stored before the snapshot ends, and `back` ends
before `size`. -/
def sampleSections : List ((ℕ × SectionAction ℕ) × List (CallOutput ℕ)) :=
  [((0, .update (.call (.pushBack 7))), []), ((2, .update (.call .markForClean)), []),
    ((1, .query (.traverse fun _ => false)), [.visited [7]]),
    ((0, .update (.call (.pushFront 5))), []), ((2, .query .back), [.back 7]),
    ((1, .query .size), [.size 2]), ((1, .update (.call .popFront)), []),
    ((1, .update .pop), [.effect (.returned (some 5))]), ((2, .update (.call .clean)), []),
    ((0, .query .empty), [.empty true])]

/-- The accesses of the sample are those of a run, and it is one of sections. -/
theorem sampleAccesses_refine :
    ∃ l c, (lockedListSystem ℕ).machine.Run l c ∧ l.map Prod.fst = sampleAccesses ∧
      sectionLog l = sampleSections ∧
      (∃ a, (sectionSystem ℕ).machine.Run (sectionLog l) a ∧
        (c.shared.mutex.writer = false → c.shared.data = a.shared) ∧
        ∀ t, a.threads t = (c.threads t).sectionPosition) ∧
      ∀ t, entered t l = sectionsOf t (sectionLog l) ++ (c.threads t).inProgress.toList := by
  have hexec : ((lockedListSystem ℕ).machine.exec (lockedListSystem ℕ).machine.init
      sampleAccesses).map (fun r => sectionLog r.2) = some sampleSections := rfl
  obtain ⟨l, c, hrun, hes, hlog⟩ := LogMachine.exists_run_of_map_exec hexec
  exact ⟨l, c, hrun, hes, hlog, lockedList_refines hrun⟩

end KotlinTracer
