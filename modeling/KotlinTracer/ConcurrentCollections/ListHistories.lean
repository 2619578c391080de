import Mathlib.Data.List.Basic
import Mathlib.Data.List.Nodup
import KotlinTracer.ConcurrentCollections.ListSections

set_option relaxedAutoImplicit false
set_option autoImplicit false

/-!
# Marking and cleaning a list

What `clean` removes from a `ConcurrentList` (`concurrentCollections/concurrentList.h`). It is meant
to remove the elements that were there at the latest `mark_for_clean`, but the mark is only their
number: pops and pushes at the front do not change it, and `clean` does not reset it.

## Main definitions

* `KotlinTracer.ListHistory` — the list together with what the history says about the latest mark.
* `KotlinTracer.listHistory` — the machine of the histories.
* `KotlinTracer.CleanLaw` — what a `clean` removes: the elements of the latest mark that are still
  there and nothing else, and nothing at all if the latest mark was cleaned before.

## Main results

* `KotlinTracer.listHistoryStep_cases` — what an operation does to the list and to its mark.
* `KotlinTracer.listHistoryInv` — the invariant of the histories.
* `KotlinTracer.clean_eq_filter_iff` — when the elements that `clean` removes are the marked ones.
* `KotlinTracer.cleanLaw_iff_stillMarked` — the histories after which a `clean` satisfies the law,
  and `KotlinTracer.cleanLaw_iff_of_lt` for marks of less than `2 ^ 31` elements.

## Design

The histories give every pushed element an identity of its own. What is known about the latest mark
is no part of the list; the operations do not look at it.
-/

namespace KotlinTracer

/-! ## Histories -/

/-- A list with its history: the elements that were there at the latest `mark_for_clean`, those that
were pushed since then, and whether there was a `clean` since then. -/
structure ListHistory (T : Type*) where
  collection : CountedList T := {}
  marked : List T := []
  pushed : List T := []
  cleaned : Bool := false

section

variable {T : Type*}

/-- An operation on the list. -/
def listHistoryStep (h : ListHistory T) (op : ListOp T) :
    Option (ListHistory T × List (ListOutput T)) :=
  (h.collection.apply op).map fun r =>
    match op with
    | .pushBack value => ({ h with collection := r.1, pushed := value :: h.pushed }, r.2)
    | .pushFront value => ({ h with collection := r.1, pushed := value :: h.pushed }, r.2)
    | .popFront => ({ h with collection := r.1 }, r.2)
    | .popBack => ({ h with collection := r.1 }, r.2)
    | .markForClean =>
      ({ collection := r.1, marked := h.collection.list, pushed := [], cleaned := false }, r.2)
    | .clean => ({ h with collection := r.1, cleaned := true }, r.2)

/-- The histories of a list. -/
def listHistory (T : Type*) : LogMachine (ListHistory T) (ListOp T) (ListOutput T) where
  init := {}
  step := listHistoryStep

/-- The elements that operations push. -/
def pushedValues (ops : List (ListOp T)) : List T :=
  ops.filterMap fun
    | .pushBack value => some value
    | .pushFront value => some value
    | _ => none

variable {h h' : ListHistory T} {op : ListOp T} {ops : List (ListOp T)} {o : List (ListOutput T)}

/-- **What an operation does**: it pushes an element somewhere into the list, or marks the list, or
takes elements out of it. -/
lemma listHistoryStep_cases (hstep : listHistoryStep h op = some (h', o)) :
    (∃ value before after, pushedValues [op] = [value] ∧ h.collection.list = before ++ after ∧
      h'.collection.list = before ++ value :: after ∧ h'.marked = h.marked ∧
      h'.pushed = value :: h.pushed ∧ h'.collection.cleanUntil = h.collection.cleanUntil) ∨
    (pushedValues [op] = [] ∧ h'.collection.list = h.collection.list ∧
      h'.marked = h.collection.list ∧ h'.pushed = [] ∧
      h'.collection.cleanUntil = intOfSize h.collection.list.length) ∨
    (pushedValues [op] = [] ∧ h'.collection.list.Sublist h.collection.list ∧
      h'.marked = h.marked ∧ h'.pushed = h.pushed ∧
      h'.collection.cleanUntil = h.collection.cleanUntil) := by
  cases op with
  | pushBack value =>
    cases hstep
    exact Or.inl ⟨value, h.collection.list, [], rfl, (List.append_nil _).symm, rfl, rfl, rfl, rfl⟩
  | pushFront value =>
    cases hstep
    exact Or.inl ⟨value, [], h.collection.list, rfl, rfl, rfl, rfl, rfl, rfl⟩
  | popFront =>
    cases hstep
    exact Or.inr (Or.inr ⟨rfl, List.tail_sublist _, rfl, rfl, rfl⟩)
  | popBack =>
    cases hstep
    exact Or.inr (Or.inr ⟨rfl, List.dropLast_sublist _, rfl, rfl, rfl⟩)
  | markForClean =>
    cases hstep
    exact Or.inr (Or.inl ⟨rfl, CountedList.list_markForClean _, rfl, rfl,
      CountedList.cleanUntil_markForClean _⟩)
  | clean =>
    obtain ⟨⟨s', o'⟩, happly, heq⟩ := Option.map_eq_some_iff.mp hstep
    obtain ⟨rfl, -⟩ := Prod.mk.inj heq
    obtain ⟨s'', hclean, hs⟩ := Option.map_eq_some_iff.mp happly
    obtain rfl : s'' = s' := (Prod.mk.inj hs).1
    rw [CountedList.clean_eq] at hclean
    split_ifs at hclean
    cases hclean
    exact Or.inr (Or.inr ⟨rfl, List.drop_sublist _ _, rfl, rfl, rfl⟩)

lemma pushedValues_append (ops₁ ops₂ : List (ListOp T)) :
    pushedValues (ops₁ ++ ops₂) = pushedValues ops₁ ++ pushedValues ops₂ :=
  List.filterMap_append

/-- The first `n` elements of a list without repetitions are exactly those that satisfy `p` if and
only if those that satisfy `p` are `n` elements at the front. -/
lemma drop_eq_filter_iff {l : List T} (hl : l.Nodup) (p : T → Bool) {n : ℕ} (hn : n ≤ l.length) :
    (l.drop n = l.filter fun x => !p x) ↔ n = (l.filter p).length ∧ l.filter p <+: l := by
  have hparts : l.take n ++ l.drop n = l := List.take_append_drop n l
  constructor
  · intro hdrop
    have hafter : (l.drop n).filter p = [] := by
      rw [hdrop, List.filter_filter]
      simp
    have hbefore : (l.take n).filter p = l.take n := by
      refine List.filter_eq_self.mpr fun x hx => ?_
      by_contra hp
      -- otherwise `x` would be both before and after the cut
      have hmem : x ∈ l.drop n := by
        rw [hdrop, List.mem_filter]
        exact ⟨List.mem_of_mem_take hx, by simpa using hp⟩
      rw [← hparts] at hl
      exact (List.nodup_append.mp hl).2.2 x hx x hmem rfl
    have hfilter : l.filter p = l.take n := by
      conv_lhs => rw [← hparts]
      rw [List.filter_append, hbefore, hafter, List.append_nil]
    rw [hfilter]
    exact ⟨(List.length_take_of_le hn).symm, List.take_prefix n l⟩
  · rintro ⟨hlength, hfront⟩
    have htake : l.filter p = l.take n := by
      rw [hlength]
      exact List.prefix_iff_eq_take.mp hfront
    have hbefore : ∀ x ∈ l.take n, p x = true := by
      intro x hx
      rw [← htake] at hx
      exact (List.mem_filter.mp hx).2
    have hafter : ∀ x ∈ l.drop n, p x = false := by
      intro x hx
      by_contra hp
      have hmem : x ∈ l.take n := by
        rw [← htake, List.mem_filter]
        exact ⟨List.mem_of_mem_drop hx, by simpa using hp⟩
      rw [← hparts] at hl
      exact (List.nodup_append.mp hl).2.2 x hmem x hx rfl
    conv_rhs => rw [← hparts]
    rw [List.filter_append, List.filter_eq_nil_iff.mpr fun x hx => by simp [hbefore x hx],
      List.filter_eq_self.mpr fun x hx => by simp [hafter x hx], List.nil_append]

variable [DecidableEq T]

/-- The elements of the latest mark that are still there, in the order of the list. -/
def ListHistory.stillMarked (h : ListHistory T) : List T :=
  h.collection.list.filter fun x => x ∈ h.marked

/-- The invariant of the histories whose elements have an identity: elements are not repeated, the
elements pushed since the latest mark are not among the marked ones, which keep their order, and the
counter is their number. -/
structure ListHistoryInv (ops : List (ListOp T)) (h : ListHistory T) : Prop where
  nodup : h.collection.list.Nodup
  list_subset : h.collection.list ⊆ pushedValues ops
  marked_subset : h.marked ⊆ pushedValues ops
  pushed_subset : h.pushed ⊆ pushedValues ops
  notMem_marked : ∀ x ∈ h.pushed, x ∉ h.marked
  sublist : h.stillMarked.Sublist h.marked
  counter : h.collection.cleanUntil = intOfSize h.marked.length

/-- The invariant is kept by an operation that pushes an element that was not there before. -/
lemma ListHistoryInv.push (hinv : ListHistoryInv ops h) {value : T} {before after : List T}
    (hfresh : value ∉ pushedValues ops) (hop : pushedValues [op] = [value])
    (hlist : h.collection.list = before ++ after)
    (hlist' : h'.collection.list = before ++ value :: after) (hmarked : h'.marked = h.marked)
    (hpushed : h'.pushed = value :: h.pushed)
    (hcounter : h'.collection.cleanUntil = h.collection.cleanUntil) :
    ListHistoryInv (ops ++ [op]) h' := by
  have hperm : h'.collection.list.Perm (value :: h.collection.list) := by
    rw [hlist, hlist']
    exact List.perm_middle
  have hvalues : pushedValues (ops ++ [op]) = pushedValues ops ++ [value] := by
    rw [pushedValues_append, hop]
  have hold : pushedValues ops ⊆ pushedValues (ops ++ [op]) := by
    rw [hvalues]
    exact List.subset_append_left _ _
  have hnew : value ∈ pushedValues (ops ++ [op]) := by
    rw [hvalues]
    exact List.mem_append_right _ (List.mem_singleton_self _)
  have hunmarked : value ∉ h.marked := fun hmem => hfresh (hinv.marked_subset hmem)
  have hstill : h'.stillMarked = h.stillMarked := by
    rw [ListHistory.stillMarked, ListHistory.stillMarked, hlist, hlist', hmarked,
      List.filter_append, List.filter_append,
      List.filter_cons_of_neg (by simpa using hunmarked)]
  constructor
  · rw [hperm.nodup_iff, List.nodup_cons]
    exact ⟨fun hmem => hfresh (hinv.list_subset hmem), hinv.nodup⟩
  · intro x hx
    rcases List.mem_cons.mp (hperm.mem_iff.mp hx) with rfl | hx
    · exact hnew
    · exact hold (hinv.list_subset hx)
  · rw [hmarked]
    exact List.Subset.trans hinv.marked_subset hold
  · rw [hpushed]
    exact List.cons_subset.mpr ⟨hnew, List.Subset.trans hinv.pushed_subset hold⟩
  · rw [hpushed, hmarked, List.forall_mem_cons]
    exact ⟨hunmarked, hinv.notMem_marked⟩
  · rw [hstill, hmarked]
    exact hinv.sublist
  · rw [hcounter, hmarked]
    exact hinv.counter

/-- The invariant is kept by an operation that takes elements out of the list. -/
lemma ListHistoryInv.take (hinv : ListHistoryInv ops h) (hop : pushedValues [op] = [])
    (hlist : h'.collection.list.Sublist h.collection.list) (hmarked : h'.marked = h.marked)
    (hpushed : h'.pushed = h.pushed)
    (hcounter : h'.collection.cleanUntil = h.collection.cleanUntil) :
    ListHistoryInv (ops ++ [op]) h' := by
  have hvalues : pushedValues (ops ++ [op]) = pushedValues ops := by
    rw [pushedValues_append, hop, List.append_nil]
  constructor
  · exact hlist.nodup hinv.nodup
  · rw [hvalues]
    exact List.Subset.trans hlist.subset hinv.list_subset
  · rw [hmarked, hvalues]
    exact hinv.marked_subset
  · rw [hpushed, hvalues]
    exact hinv.pushed_subset
  · rw [hpushed, hmarked]
    exact hinv.notMem_marked
  · rw [ListHistory.stillMarked, hmarked]
    exact (hlist.filter _).trans hinv.sublist
  · rw [hcounter, hmarked]
    exact hinv.counter

/-- The invariant is kept by a mark. -/
lemma ListHistoryInv.mark (hinv : ListHistoryInv ops h) (hop : pushedValues [op] = [])
    (hlist : h'.collection.list = h.collection.list) (hmarked : h'.marked = h.collection.list)
    (hpushed : h'.pushed = [])
    (hcounter : h'.collection.cleanUntil = intOfSize h.collection.list.length) :
    ListHistoryInv (ops ++ [op]) h' := by
  have hvalues : pushedValues (ops ++ [op]) = pushedValues ops := by
    rw [pushedValues_append, hop, List.append_nil]
  constructor
  · rw [hlist]
    exact hinv.nodup
  · rw [hlist, hvalues]
    exact hinv.list_subset
  · rw [hmarked, hvalues]
    exact hinv.list_subset
  · rw [hpushed]
    exact List.nil_subset _
  · rw [hpushed]
    exact fun x hx => absurd hx List.not_mem_nil
  · rw [ListHistory.stillMarked, hmarked, hlist]
    exact List.filter_sublist
  · rw [hcounter, hmarked]

/-- **The invariant of the histories** in which every element is pushed once. -/
theorem listHistoryInv (hreach : (listHistory T).Reaches ops h) (hids : (pushedValues ops).Nodup) :
    ListHistoryInv ops h := by
  refine LogMachine.Reaches.invariant (I := fun ops h => (pushedValues ops).Nodup →
    ListHistoryInv ops h) ?_ ?_ hreach hids
  · intro _
    exact ⟨List.nodup_nil, List.nil_subset _, List.nil_subset _, List.nil_subset _,
      fun x hx => absurd hx List.not_mem_nil, List.Sublist.slnil,
      (intOfSize_eq (Nat.two_pow_pos 31)).symm⟩
  · intro ops h op o h' _ ih hstep hids
    rw [pushedValues_append] at hids
    have hinv := ih (List.nodup_append.mp hids).1
    rcases listHistoryStep_cases hstep with
      ⟨value, before, after, hop, hlist, hlist', hmarked, hpushed, hcounter⟩ |
      ⟨hop, hlist, hmarked, hpushed, hcounter⟩ | ⟨hop, hlist, hmarked, hpushed, hcounter⟩
    · rw [hop] at hids
      have hfresh : value ∉ pushedValues ops := fun hmem =>
        (List.nodup_append.mp hids).2.2 value hmem value (List.mem_singleton_self _) rfl
      exact hinv.push hfresh hop hlist hlist' hmarked hpushed hcounter
    · exact hinv.mark hop hlist hmarked hpushed hcounter
    · exact hinv.take hop hlist hmarked hpushed hcounter

/-! ## What `clean` removes -/

/-- What a `clean` does: it removes exactly the elements of the latest mark that are still there, so
that the elements pushed since the mark survive; and if the mark was cleaned before, it removes
nothing. -/
structure CleanLaw (h : ListHistory T) : Prop where
  removes : ∃ s, h.collection.clean = some s ∧
    s.list = h.collection.list.filter fun x => x ∉ h.marked
  survives : ∀ s, h.collection.clean = some s → ∀ x ∈ h.pushed, x ∈ h.collection.list → x ∈ s.list
  second : h.cleaned = true → ∃ s, h.collection.clean = some s ∧ s.list = h.collection.list

/-- `clean` removes exactly the marked elements that are still there if and only if they are at the
front and the counter is their number. -/
lemma clean_eq_filter_iff (hl : h.collection.list.Nodup) :
    (∃ s, h.collection.clean = some s ∧
      s.list = h.collection.list.filter fun x => x ∉ h.marked) ↔
      h.collection.cleanUntil.toNat = h.stillMarked.length ∧
        h.stillMarked <+: h.collection.list := by
  have hfilter : (h.collection.list.filter fun x => x ∉ h.marked) =
      h.collection.list.filter fun x => !decide (x ∈ h.marked) := by
    simp
  rw [hfilter, CountedList.clean_eq]
  by_cases hn : h.collection.cleanUntil.toNat ≤ h.collection.list.length
  · rw [if_pos hn, ListHistory.stillMarked, ← drop_eq_filter_iff hl _ hn]
    constructor
    · rintro ⟨s, hs, hlist⟩
      cases hs
      exact hlist
    · intro hdrop
      exact ⟨_, rfl, hdrop⟩
  · rw [if_neg hn]
    constructor
    · rintro ⟨s, hs, -⟩
      cases hs
    · rintro ⟨hlength, hfront⟩
      rw [hlength] at hn
      exact absurd hfront.length_le hn

/-- The law of `clean`, from the invariant of the histories. -/
lemma ListHistoryInv.cleanLaw_iff (hinv : ListHistoryInv ops h) :
    CleanLaw h ↔ h.collection.cleanUntil.toNat = h.stillMarked.length ∧
      h.stillMarked <+: h.collection.list ∧ (h.cleaned = true → h.stillMarked = []) := by
  have hremoves := clean_eq_filter_iff hinv.nodup
  constructor
  · rintro ⟨hexact, -, hsecond⟩
    obtain ⟨hcount, hfront⟩ := hremoves.mp hexact
    refine ⟨hcount, hfront, fun hcleaned => ?_⟩
    obtain ⟨s, hclean, hlist⟩ := hexact
    obtain ⟨s', hclean', hlist'⟩ := hsecond hcleaned
    obtain rfl : s = s' := Option.some.inj (hclean.symm.trans hclean')
    rw [hlist, List.filter_eq_self] at hlist'
    refine List.filter_eq_nil_iff.mpr fun x hx => ?_
    simpa using hlist' x hx
  · rintro ⟨hcount, hfront, hnone⟩
    obtain ⟨s, hclean, hlist⟩ := hremoves.mpr ⟨hcount, hfront⟩
    refine ⟨⟨s, hclean, hlist⟩, ?_, ?_⟩
    · intro s' hclean' x hpushed hx
      obtain rfl : s = s' := Option.some.inj (hclean.symm.trans hclean')
      rw [hlist, List.mem_filter]
      exact ⟨hx, by simpa using hinv.notMem_marked x hpushed⟩
    · intro hcleaned
      refine ⟨s, hclean, ?_⟩
      rw [hlist, List.filter_eq_self]
      intro x hx
      simpa using List.filter_eq_nil_iff.mp (hnone hcleaned) x hx

/-- All marked elements are still there, in front, if and only if those that are still there are in
front and as many as were marked. -/
lemma ListHistoryInv.marked_prefix_iff (hinv : ListHistoryInv ops h) :
    h.marked <+: h.collection.list ↔
      h.stillMarked.length = h.marked.length ∧ h.stillMarked <+: h.collection.list := by
  constructor
  · rintro ⟨rest, hrest⟩
    have hnodup := hinv.nodup
    rw [← hrest] at hnodup
    have hstill : h.stillMarked = h.marked := by
      rw [ListHistory.stillMarked, ← hrest, List.filter_append,
        List.filter_eq_self.mpr fun x hx => decide_eq_true hx, List.filter_eq_nil_iff.mpr,
        List.append_nil]
      intro x hx hmem
      exact (List.nodup_append.mp hnodup).2.2 x (of_decide_eq_true hmem) x hx rfl
    rw [hstill]
    exact ⟨rfl, rest, hrest⟩
  · rintro ⟨hlength, hfront⟩
    rw [← hinv.sublist.eq_of_length hlength]
    exact hfront

end

/-- **What `clean` removes.** After every history in which every element is pushed once, a `clean`
removes exactly the elements of the latest mark that are still there, and nothing if the mark was
cleaned before, if and only if these elements are at the front of the list, the counter is their
number, and there are none of them if the mark was cleaned before. -/
theorem cleanLaw_iff_stillMarked (T : Type*) [DecidableEq T] (ops : List (ListOp T))
    (h : ListHistory T) (hreach : (listHistory T).Reaches ops h)
    (hids : (pushedValues ops).Nodup) :
    CleanLaw h ↔ h.collection.cleanUntil.toNat = h.stillMarked.length ∧
      h.stillMarked <+: h.collection.list ∧ (h.cleaned = true → h.stillMarked = []) :=
  (listHistoryInv hreach hids).cleanLaw_iff

/-- Two elements are marked and one more is pushed at the back. -/
def pushedBehindMark : List (ListOp ℕ) :=
  [.pushBack 1, .pushFront 2, .markForClean, .pushBack 3]

/-- After `pushedBehindMark`, a `clean` leaves the third element. -/
theorem cleanLaw_pushedBehindMark :
    ∃ h, (listHistory ℕ).Reaches pushedBehindMark h ∧ h.collection.list = [2, 1, 3] ∧
      h.marked = [2, 1] ∧ CleanLaw h := by
  have hexec : ((listHistory ℕ).exec (listHistory ℕ).init pushedBehindMark).map
      (fun r => (r.1.collection.list, r.1.marked, r.1.stillMarked, r.1.collection.cleanUntil.toNat,
        r.1.cleaned)) = some ([2, 1, 3], [2, 1], [2, 1], 2, false) := by decide
  obtain ⟨l, h, hrun, hes, hend⟩ := LogMachine.exists_run_of_map_exec hexec
  simp only [Prod.mk.injEq] at hend
  obtain ⟨hlist, hmarked, hstill, hcount, hcleaned⟩ := hend
  have hreach : (listHistory ℕ).Reaches pushedBehindMark h := ⟨l, hrun, hes⟩
  refine ⟨h, hreach, hlist, hmarked, ?_⟩
  rw [cleanLaw_iff_stillMarked ℕ pushedBehindMark h hreach (by decide), hlist, hstill, hcount,
    hcleaned]
  exact ⟨rfl, ⟨[3], rfl⟩, fun hfalse => absurd hfalse Bool.false_ne_true⟩

/-- After the operations `ops`, a `clean` removes an element that was pushed after the latest
mark. -/
def CleansPushed (ops : List (ListOp ℕ)) : Prop :=
  ∃ h s x, (listHistory ℕ).Reaches ops h ∧ (pushedValues ops).Nodup ∧ x ∈ h.pushed ∧
    x ∈ h.collection.list ∧ h.collection.clean = some s ∧ x ∉ s.list ∧ ¬ CleanLaw h

/-- To see that the element `x` is removed, execute the operations and the `clean`. -/
lemma cleansPushed_of_exec {ops : List (ListOp ℕ)} (x : ℕ) (hids : (pushedValues ops).Nodup)
    (hexec : ((listHistory ℕ).exec (listHistory ℕ).init ops).map (fun r =>
      (decide (x ∈ r.1.pushed), decide (x ∈ r.1.collection.list),
        r.1.collection.clean.map fun s => decide (x ∈ s.list))) = some (true, true, some false)) :
    CleansPushed ops := by
  obtain ⟨l, h, hrun, hes, hend⟩ := LogMachine.exists_run_of_map_exec hexec
  simp only [Prod.mk.injEq, decide_eq_true_eq, Option.map_eq_some_iff] at hend
  obtain ⟨hpushed, hmem, s, hclean, hgone⟩ := hend
  have hgone : x ∉ s.list := of_decide_eq_false hgone
  exact ⟨h, s, x, ⟨l, hrun, hes⟩, hids, hpushed, hmem, hclean, hgone,
    fun hlaw => hgone (hlaw.survives s hclean x hpushed hmem)⟩

/-- **`clean` removes an element that was pushed after the mark**: after the marked element was
popped, after another one was pushed in front of it, and after the mark was cleaned. -/
theorem cleansPushed_driftedMarks :
    CleansPushed [.pushBack 1, .markForClean, .popFront, .pushBack 2] ∧
      CleansPushed [.pushBack 1, .markForClean, .pushFront 2] ∧
      CleansPushed [.pushBack 1, .markForClean, .pushBack 2, .clean] :=
  ⟨cleansPushed_of_exec 2 (by decide) (by decide), cleansPushed_of_exec 2 (by decide) (by decide),
    cleansPushed_of_exec 2 (by decide) (by decide)⟩

/-- For marks of less than `2 ^ 31` elements: a `clean` is right if and only if all elements of the
latest mark are still there, in front, and there are none if the mark was cleaned before. -/
theorem cleanLaw_iff_of_lt {T : Type*} [DecidableEq T] {ops : List (ListOp T)} {h : ListHistory T}
    (hreach : (listHistory T).Reaches ops h) (hids : (pushedValues ops).Nodup)
    (hsize : h.marked.length < 2 ^ 31) :
    CleanLaw h ↔ h.marked <+: h.collection.list ∧ (h.cleaned = true → h.marked = []) := by
  have hinv := listHistoryInv hreach hids
  have hcounter : h.collection.cleanUntil.toNat = h.marked.length := by
    rw [hinv.counter, intOfSize_eq hsize, Int.toNat_natCast]
  rw [hinv.cleanLaw_iff, hinv.marked_prefix_iff, hcounter, and_assoc, eq_comm, and_congr_right_iff,
    and_congr_right_iff]
  intro hlength _
  rw [← List.length_eq_zero_iff, hlength, List.length_eq_zero_iff]

end KotlinTracer
