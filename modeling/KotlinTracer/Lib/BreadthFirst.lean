import Mathlib.Data.List.Flatten
import KotlinTracer.Lib.Run
import KotlinTracer.Lib.Worklist

set_option relaxedAutoImplicit false
set_option autoImplicit false

/-!
# Breadth-first orders, and worklists that take an item twice

A worklist that marks a key when an item is taken, and not when it is enqueued, takes the keys in
breadth-first order, but may take a key several times. Which keys those are can be read off the
breadth-first order: a key is taken as often as it is listed by the keys before it.

## Main definitions

* `Worklist.breadthFirst` — the breadth-first order of the keys reached from a list.
* `Worklist.enqueued` — what the takes of a list of items enqueue.

## Main results

* `Worklist.order_eq_append_enqueued` — what is taken is the queue and all that is enqueued.
* `Worklist.count_order` — a key is taken as often as the keys taken before it list it.
* `Worklist.breadthFirst_eq` — the first takes of the keys are in breadth-first order.
* `Worklist.nodup_filter_order_iff` — when no key is taken twice.
-/

/-! ## First occurrences -/

namespace List

variable {κ β : Type*}

/-- The first occurrences in a list with one more element. -/
lemma eraseDups_concat [DecidableEq κ] (l : List κ) (a : κ) :
    (l ++ [a]).eraseDups = if a ∈ l then l.eraseDups else l.eraseDups ++ [a] := by
  rw [List.eraseDups_append]
  by_cases ha : a ∈ l
  · simp [List.removeAll, ha]
  · simp [List.removeAll, ha, List.eraseDups_cons]

/-- A property of the first occurrences and what they have before them. -/
lemma atEvery_eraseDups [DecidableEq κ] {P : List κ → κ → Prop} {l : List κ} :
    l.eraseDups.AtEvery P ↔
      l.AtEvery fun before a => a ∉ before → P before.eraseDups a := by
  induction l using List.reverseRecOn with
  | nil => simp
  | append_singleton l a ih =>
    rw [eraseDups_concat, atEvery_concat]
    split_ifs with ha
    · simp [ih, ha]
    · rw [atEvery_concat, ih]
      simp [ha]

/-- No element of a kind occurs twice when none occurs before itself. -/
lemma nodup_filter_iff_atEvery {P : κ → Prop} [DecidablePred P] {l : List κ} :
    (l.filter fun a => P a).Nodup ↔ l.AtEvery fun before a => P a → a ∉ before := by
  induction l using List.reverseRecOn with
  | nil => simp
  | append_singleton l a ih =>
    rw [atEvery_concat, ← ih, filter_append]
    by_cases ha : P a
    · simp [ha, nodup_append]
      grind
    · simp [ha]

variable [DecidableEq κ]

/-- The first occurrences of an element are enough to find an element of its image. -/
lemma find?_flatMap_eraseDups (l : List κ) (f : κ → List β) (p : β → Bool) :
    (l.eraseDups.flatMap f).find? p = (l.flatMap f).find? p := by
  induction l using List.reverseRecOn with
  | nil => rfl
  | append_singleton l a ih =>
    rw [eraseDups_concat]
    split_ifs with ha
    · -- what the last element adds was found before
      have hsub : (f a).find? p ≠ none → (l.flatMap f).find? p ≠ none := by
        rw [ne_eq, ne_eq, find?_eq_none, find?_eq_none, not_imp_not]
        intro hnone b hb
        exact hnone b (mem_flatMap.mpr ⟨a, ha, hb⟩)
      rw [ih, flatMap_append, flatMap_singleton, find?_append]
      cases hfirst : (l.flatMap f).find? p with
      | some b => rfl
      | none =>
        rw [Option.none_or]
        by_contra hne
        exact hsub (Ne.symm hne) hfirst
    · rw [flatMap_append, flatMap_append, find?_append, find?_append, ih]

/-- When only elements of a kind have an image, and none of them occurs twice, the first occurrences
have the same images. -/
lemma flatMap_eraseDups {P : κ → Prop} [DecidablePred P] {f : κ → List β}
    (hf : ∀ a, ¬ P a → f a = []) {l : List κ} (hl : (l.filter fun a => P a).Nodup) :
    l.eraseDups.flatMap f = l.flatMap f := by
  induction l using List.reverseRecOn with
  | nil => rfl
  | append_singleton l a ih =>
    obtain ⟨hbefore, hlast⟩ := atEvery_concat.mp (nodup_filter_iff_atEvery.mp hl)
    rw [eraseDups_concat, flatMap_append, flatMap_singleton]
    split_ifs with ha
    · rw [hf a fun hP => hlast hP ha, append_nil]
      exact ih (nodup_filter_iff_atEvery.mpr hbefore)
    · rw [flatMap_append, flatMap_singleton, ih (nodup_filter_iff_atEvery.mpr hbefore)]

/-- The first occurrences in a list are a sublist. -/
lemma eraseDups_sublist (l : List κ) : l.eraseDups.Sublist l := by
  induction l using List.reverseRecOn with
  | nil => exact .slnil
  | append_singleton l a ih =>
    rw [eraseDups_concat]
    split_ifs
    · exact ih.trans (sublist_append_left l [a])
    · exact ih.append_right [a]

/-- An element has one first occurrence. -/
lemma nodup_eraseDups (l : List κ) : l.eraseDups.Nodup := by
  induction l using List.reverseRecOn with
  | nil => exact nodup_nil
  | append_singleton l a ih =>
    rw [eraseDups_concat]
    split_ifs with ha
    · exact ih
    · rw [nodup_append]
      refine ⟨ih, nodup_singleton a, fun b hb c hc heq => ha ?_⟩
      rw [← mem_singleton.mp hc, ← heq]
      exact mem_eraseDups.mp hb

end List

namespace Worklist

/-! ## What is enqueued -/

section Enqueued

variable {α κ : Type*} [DecidableEq κ] (key : α → κ) (next : α → List α)

/-- What the takes of a list of items enqueue, with the keys in `V` visited before. -/
def enqueued (V : Finset κ) : List α → List α
  | [] => []
  | a :: l => fresh key next (insert (key a) V) a ++ enqueued (insert (key a) V) l

variable {key next}

/-- When the queue is exhausted, what was taken is the queue and then all that was enqueued. -/
lemma order_eq_append_enqueued {n : ℕ} {q : List α} {V : Finset κ}
    (h : Exhausts key next n q V) :
    order key next n q V = q ++ enqueued key next V (order key next n q V) := by
  induction n generalizing q V with
  | zero =>
    rw [Exhausts] at h
    simp [h, order, enqueued]
  | succ n ih =>
    cases q with
    | nil => simp [order, enqueued]
    | cons a q =>
      rw [order, enqueued, List.cons_append, ← List.append_assoc, ← ih h]

/-- The keys of the successors that an item enqueues. -/
lemma map_key_fresh {list : κ → List κ} {a : α} (hlist : (next a).map key = list (key a))
    (V : Finset κ) : (fresh key next V a).map key = fresh id list V (key a) := by
  rw [fresh, fresh, ← hlist, List.filter_map]
  rfl

/-- The items keyed by the keys themselves: when the successors of an item have the keys that its
key lists, the keys are taken in the order of the items. -/
lemma map_key_order {list : κ → List κ} (hlist : ∀ a, (next a).map key = list (key a)) (n : ℕ)
    (q : List α) (V : Finset κ) :
    (order key next n q V).map key = order id list n (q.map key) V := by
  induction n generalizing q V with
  | zero => rfl
  | succ n ih =>
    cases q with
    | nil => rfl
    | cons a q =>
      rw [order, List.map_cons, List.map_cons, order, ih, List.map_append,
        map_key_fresh (hlist a)]
      rfl

/-- The items keyed by the keys themselves are exhausted together with the items. -/
lemma exhausts_map_key {list : κ → List κ} (hlist : ∀ a, (next a).map key = list (key a)) {n : ℕ}
    {q : List α} {V : Finset κ} (h : Exhausts key next n q V) :
    Exhausts id list n (q.map key) V := by
  induction n generalizing q V with
  | zero =>
    rw [Exhausts] at h
    rw [h]
    rfl
  | succ n ih =>
    cases q with
    | nil => trivial
    | cons a q =>
      have hrest := ih h
      rw [List.map_append, map_key_fresh (hlist a)] at hrest
      exact hrest

end Enqueued

/-! ## How often a key is taken -/

variable {κ : Type*} [DecidableEq κ] {next : κ → List κ}

/-- A key that is visited is not enqueued. -/
lemma not_mem_enqueued {V : Finset κ} {c : κ} (hc : c ∈ V) (l : List κ) :
    c ∉ enqueued id next V l := by
  induction l generalizing V with
  | nil => exact List.not_mem_nil
  | cons a l ih =>
    rw [enqueued, List.mem_append, not_or, mem_fresh]
    exact ⟨fun h => h.2 (Finset.mem_insert_of_mem hc), ih (Finset.mem_insert_of_mem hc)⟩

/-- Up to its own take a key is enqueued whenever it is listed. -/
lemma count_enqueued_of_not_mem {V : Finset κ} {c : κ} (hc : c ∉ V) {l : List κ} (hl : c ∉ l) :
    (enqueued id next V l).count c = (l.flatMap next).count c := by
  induction l generalizing V with
  | nil => rfl
  | cons a l ih =>
    rw [List.mem_cons, not_or] at hl
    have hnot : c ∉ insert a V := by
      rw [Finset.mem_insert, not_or]
      exact ⟨hl.1, hc⟩
    have hfresh : (fresh id next (insert a V) a).count c = (next a).count c := by
      rw [fresh, List.count_filter]
      simpa using hnot
    rw [enqueued, id_eq, List.count_append, List.flatMap_cons, List.count_append, hfresh,
      ih hnot hl.2]

/-- What one list of takes after another enqueues. -/
lemma enqueued_append (V : Finset κ) (l₁ l₂ : List κ) :
    enqueued id next V (l₁ ++ l₂) =
      enqueued id next V l₁ ++ enqueued id next (V ∪ l₁.toFinset) l₂ := by
  induction l₁ generalizing V with
  | nil => simp [enqueued]
  | cons a l ih =>
    rw [List.cons_append, enqueued, enqueued, ih, List.append_assoc, List.toFinset_cons,
      Finset.union_insert, Finset.insert_union]
    rfl

/-- Up to keys of a list that holds all that is visited or taken, what is enqueued is what is
listed. -/
lemma filter_enqueued {V : Finset κ} {l l₁ : List κ} (hV : ∀ b ∈ V, b ∈ l₁)
    (hl : ∀ b ∈ l, b ∈ l₁) :
    (enqueued id next V l).filter (fun b => b ∉ l₁) =
      (l.flatMap next).filter fun b => b ∉ l₁ := by
  induction l generalizing V with
  | nil => rfl
  | cons a l ih =>
    have hinsert : ∀ b ∈ insert a V, b ∈ l₁ := by
      intro b hb
      rcases Finset.mem_insert.mp hb with rfl | hb
      · exact hl b List.mem_cons_self
      · exact hV b hb
    rw [enqueued, List.flatMap_cons, List.filter_append, List.filter_append, id_eq,
      ih hinsert fun b hb => hl b (List.mem_cons_of_mem a hb), fresh, List.filter_filter]
    congr 1
    refine List.filter_congr fun b _ => ?_
    by_cases hb : b ∈ l₁
    · simp [hb]
    · have hnot : b ∉ insert a V := fun hmem => hb (hinsert b hmem)
      simpa [hb] using hnot

section Takes

variable {n : ℕ} {r : κ}

/-- From a single key: it is taken first, and then what is enqueued. -/
lemma order_singleton (h : Exhausts id next n [r] ∅) :
    order id next n [r] ∅ = r :: enqueued id next ∅ (order id next n [r] ∅) :=
  order_eq_append_enqueued h

/-- Nothing is taken before the first key. -/
lemma eq_nil_of_order_eq {l₁ l₂ : List κ} (hsplit : order id next n [r] ∅ = l₁ ++ r :: l₂)
    (hr : r ∉ l₁) : l₁ = [] := by
  cases n with
  | zero => simp [order] at hsplit
  | succ n =>
    cases l₁ with
    | nil => rfl
    | cons a l =>
      rw [order, List.cons_append, List.cons.injEq] at hsplit
      rw [hsplit.1] at hr
      exact absurd List.mem_cons_self hr

/-- **How often a key is taken**: the first key once, and every other as often as the keys that are
taken before it list it.

**Proof sketch.** Up to its own take a key is enqueued whenever it is listed, and from then on it is
visited. -/
theorem count_order (h : Exhausts id next n [r] ∅) {l₁ l₂ : List κ} {c : κ}
    (hsplit : order id next n [r] ∅ = l₁ ++ c :: l₂) (hc : c ∉ l₁) :
    (order id next n [r] ∅).count c = if c = r then 1 else (l₁.flatMap next).count c := by
  have hlater : (enqueued id next (∅ ∪ l₁.toFinset) (c :: l₂)).count c = 0 := by
    rw [enqueued, List.count_append, Nat.add_eq_zero_iff, List.count_eq_zero, List.count_eq_zero]
    refine ⟨fun hmem => ?_, not_mem_enqueued (Finset.mem_insert_self _ _) l₂⟩
    exact (mem_fresh.mp hmem).2 (Finset.mem_insert_self _ _)
  have hstream : order id next n [r] ∅ = r :: enqueued id next ∅ (l₁ ++ c :: l₂) := by
    rw [← hsplit]
    exact order_singleton h
  have hcount : (order id next n [r] ∅).count c =
      (l₁.flatMap next).count c + if c = r then 1 else 0 := by
    rw [hstream, List.count_cons, enqueued_append, List.count_append, hlater,
      count_enqueued_of_not_mem (Finset.notMem_empty c) hc, add_zero]
    simp only [beq_iff_eq, eq_comm (a := r)]
  rw [hcount]
  split_ifs with heq
  · subst heq
    rw [eq_nil_of_order_eq hsplit hc]
    rfl
  · rfl

/-- The keys taken are closed under successors. -/
lemma mem_order_of_mem_next (h : Exhausts id next n [r] ∅) {a b : κ}
    (ha : a ∈ order id next n [r] ∅) (hb : b ∈ next a) : b ∈ order id next n [r] ∅ := by
  rcases order_closed h ha hb with hmem | ⟨c, hc, heq⟩
  · exact absurd hmem (Finset.notMem_empty _)
  · rw [← id_eq b, ← heq]
    exact hc

/-- Among what is listed by the keys taken so far, the next key to be taken for the first time is
the first one that was not taken before.

**Proof sketch.** What the takes so far enqueue is what they list, up to keys that were taken among
them. It comes in the order in which it is taken, and it holds the next key, since a key is enqueued
before it is taken. -/
lemma find?_flatMap_next (h : Exhausts id next n [r] ∅) {l₁ l₂ : List κ} {c : κ}
    (hsplit : order id next n [r] ∅ = l₁ ++ c :: l₂) (hc : c ∉ l₁) (hr : c ≠ r) :
    (l₁.flatMap next).find? (fun b => b ∉ l₁) = some c := by
  have hstream : r :: (enqueued id next ∅ l₁ ++
      enqueued id next (∅ ∪ l₁.toFinset) (c :: l₂)) = l₁ ++ c :: l₂ := by
    rw [← enqueued_append, ← hsplit]
    exact (order_singleton h).symm
  have hrmem : r ∈ l₁ := by
    cases l₁ with
    | nil =>
      rw [List.nil_append, List.cons.injEq] at hstream
      exact absurd hstream.1.symm hr
    | cons a l =>
      rw [List.cons_append, List.cons.injEq] at hstream
      rw [hstream.1]
      exact List.mem_cons_self
  -- the key is among what is enqueued before
  have hmem : c ∈ enqueued id next ∅ l₁ := by
    rw [← List.count_pos_iff, count_enqueued_of_not_mem (Finset.notMem_empty c) hc]
    have hcount := count_order h hsplit hc
    rw [if_neg hr] at hcount
    rw [← hcount, hsplit]
    simp
  -- the first key of the whole that is not among the first takes is the next one
  have hfirst : (r :: (enqueued id next ∅ l₁ ++
      enqueued id next (∅ ∪ l₁.toFinset) (c :: l₂))).find? (fun b => b ∉ l₁) = some c := by
    rw [hstream, List.find?_append]
    have hnone : l₁.find? (fun b => b ∉ l₁) = none := by
      rw [List.find?_eq_none]
      intro b hb
      simpa using hb
    rw [hnone, Option.none_or, List.find?_cons_of_pos (by simpa using hc)]
  rw [List.find?_cons_of_neg (by simpa using hrmem), List.find?_append] at hfirst
  rw [← List.head?_filter, ← filter_enqueued (fun b hb => absurd hb (Finset.notMem_empty b))
    (fun b hb => hb), List.head?_filter]
  cases hfind : (enqueued id next ∅ l₁).find? (fun b => b ∉ l₁) with
  | some b =>
    rw [hfind, Option.some_or] at hfirst
    exact hfirst
  | none =>
    rw [List.find?_eq_none] at hfind
    exact absurd (hfind c hmem) (by simpa using hc)

end Takes

/-! ## The breadth-first order -/

variable (next) in
/-- The breadth-first order of the keys reached from a list, which it extends by at most `m` keys:
again and again the first key that the keys so far list and that is not among them. -/
def breadthFirst : ℕ → List κ → List κ
  | 0, l => l
  | m + 1, l =>
    match (l.flatMap next).find? fun b => b ∉ l with
    | some c => breadthFirst m (l ++ [c])
    | none => l

section BreadthFirst

variable {n : ℕ} {r : κ}

/-- **The first takes of the keys are in breadth-first order.**

**Proof sketch.** Induction on the takes that are left. A take of a key that was taken before
changes nothing in the first occurrences; any other take is the next key in breadth-first order, by
`find?_flatMap_next`. At the end everything listed was taken. -/
lemma breadthFirst_eraseDups (h : Exhausts id next n [r] ∅) {l₁ l₂ : List κ} {m : ℕ}
    (hsplit : order id next n [r] ∅ = l₁ ++ l₂) (hr : r ∈ l₁)
    (hm : (order id next n [r] ∅).eraseDups.length ≤ m + l₁.eraseDups.length) :
    breadthFirst next m l₁.eraseDups = (order id next n [r] ∅).eraseDups := by
  induction l₂ generalizing l₁ m with
  | nil =>
    rw [List.append_nil] at hsplit
    rw [hsplit]
    cases m with
    | zero => rfl
    | succ m =>
      have hnone : (l₁.eraseDups.flatMap next).find? (fun b => b ∉ l₁.eraseDups) = none := by
        rw [List.find?_eq_none]
        intro b hb
        obtain ⟨a, ha, hab⟩ := List.mem_flatMap.mp hb
        have hmem := mem_order_of_mem_next h (by rw [hsplit]; exact List.mem_eraseDups.mp ha) hab
        rw [hsplit] at hmem
        simpa using hmem
      rw [breadthFirst, hnone]
  | cons c l₂ ih =>
    have hnext : order id next n [r] ∅ = (l₁ ++ [c]) ++ l₂ := by
      rw [hsplit, List.append_assoc]
      rfl
    have hrest := fun m => ih (m := m) hnext (List.mem_append_left [c] hr)
    rw [List.eraseDups_concat] at hrest
    by_cases hc : c ∈ l₁
    · rw [if_pos hc] at hrest
      exact hrest m hm
    · rw [if_neg hc] at hrest
      -- there is a key left, so the bound is not reached
      have hlength : l₁.eraseDups.length + 1 ≤ (order id next n [r] ∅).eraseDups.length := by
        rw [hnext, List.eraseDups_append, List.eraseDups_concat, if_neg hc, List.length_append,
          List.length_append, List.length_singleton]
        exact Nat.le_add_right _ _
      obtain ⟨m, rfl⟩ : ∃ m', m = m' + 1 := ⟨m - 1, by omega⟩
      have hfind : (l₁.eraseDups.flatMap next).find? (fun b => b ∉ l₁.eraseDups) = some c := by
        rw [List.find?_flatMap_eraseDups]
        simp only [List.mem_eraseDups]
        exact find?_flatMap_next h hsplit hc fun heq => hc (heq ▸ hr)
      rw [breadthFirst, hfind]
      refine hrest m ?_
      rw [List.length_append, List.length_singleton]
      omega

/-- The first takes of the keys from a single key. -/
theorem breadthFirst_eq (h : Exhausts id next n [r] ∅) (hn : n ≠ 0) {m : ℕ}
    (hm : (order id next n [r] ∅).toFinset.card ≤ m + 1) :
    breadthFirst next m [r] = (order id next n [r] ∅).eraseDups := by
  obtain ⟨n, rfl⟩ := Nat.exists_eq_succ_of_ne_zero hn
  have hlength : (order id next (n + 1) [r] ∅).eraseDups.length =
      (order id next (n + 1) [r] ∅).toFinset.card := by
    rw [← List.toFinset_card_of_nodup (List.nodup_eraseDups _)]
    congr 1
    ext a
    simp
  have hone : [r].eraseDups = [r] := List.eraseDups_concat [] r
  obtain ⟨l, hsplit⟩ : ∃ l, order id next (n + 1) [r] ∅ = [r] ++ l := ⟨_, rfl⟩
  rw [← hone]
  refine breadthFirst_eraseDups h hsplit (List.mem_singleton_self r) ?_
  rw [hlength, hone]
  exact hm

/-- **When no key is taken twice.** Of the keys with `P`, which alone have successors, none is taken
twice if and only if in the breadth-first order each of them is listed at most once by the keys
before it.

**Proof sketch.** A key is taken as often as the keys taken before it list it (`count_order`). If no
key is taken twice, these are the keys before it in breadth-first order. Conversely, by induction on
what is taken before a key: no key is taken twice there, so the keys taken before it list it as
often as those before it in breadth-first order. -/
theorem nodup_filter_order_iff {P : κ → Prop} [DecidablePred P] (hP : ∀ a, ¬ P a → next a = [])
    (h : Exhausts id next n [r] ∅) (hn : n ≠ 0) {m : ℕ}
    (hm : (order id next n [r] ∅).toFinset.card ≤ m + 1) :
    ((order id next n [r] ∅).filter fun a => P a).Nodup ↔
      (breadthFirst next m [r]).AtEvery fun before c =>
        P c → (before.flatMap next).count c ≤ 1 := by
  rw [breadthFirst_eq h hn hm, List.atEvery_eraseDups]
  have hcountP : ∀ c, P c → ((order id next n [r] ∅).filter fun a => P a).count c =
      (order id next n [r] ∅).count c := fun c hc => List.count_filter (by simpa using hc)
  constructor
  · intro hnodup l₁ c l₂ hsplit hc hPc
    have hle := List.nodup_iff_count_le_one.mp hnodup c
    rw [hcountP c hPc, count_order h hsplit hc] at hle
    by_cases hr : c = r
    · subst hr
      rw [eq_nil_of_order_eq hsplit hc]
      exact Nat.zero_le 1
    · rw [if_neg hr] at hle
      exact (((List.eraseDups_sublist l₁).flatMap next).count_le c).trans hle
  · intro hcond
    have hfirst : ∀ k, ∀ l₁ c l₂, l₁.length = k → order id next n [r] ∅ = l₁ ++ c :: l₂ → c ∉ l₁ →
        P c → (order id next n [r] ∅).count c ≤ 1 := by
      intro k
      induction k using Nat.strong_induction_on with
      | _ k ih =>
        intro l₁ c l₂ hk hsplit hc hPc
        rw [count_order h hsplit hc]
        split_ifs
        · exact le_rfl
        · have hnodup : (l₁.filter fun a => P a).Nodup := by
            rw [List.nodup_iff_count_le_one]
            intro d
            by_cases hd : d ∈ l₁ ∧ P d
            · obtain ⟨l, l', hl, hdl⟩ := List.eq_append_cons_of_mem hd.1
              have hlt : l.length < k := by
                rw [← hk, hl, List.length_append, List.length_cons]
                omega
              have hone := ih l.length hlt l d (l' ++ c :: l₂) rfl
                (by rw [hsplit, hl, List.append_assoc, List.cons_append]) hdl hd.2
              rw [hsplit, List.count_append] at hone
              exact (List.filter_sublist.count_le d).trans (Nat.le_of_add_right_le hone)
            · rw [List.count_eq_zero.mpr]
              · exact Nat.zero_le 1
              · simpa using hd
          have hle := hcond l₁ c l₂ hsplit hc hPc
          rw [List.flatMap_eraseDups hP hnodup] at hle
          exact hle
    rw [List.nodup_iff_count_le_one]
    intro c
    by_cases hc : c ∈ order id next n [r] ∅ ∧ P c
    · obtain ⟨l₁, l₂, hsplit, hnot⟩ := List.eq_append_cons_of_mem hc.1
      rw [hcountP c hc.2]
      exact hfirst _ l₁ c l₂ rfl hsplit hnot hc.2
    · rw [List.count_eq_zero.mpr]
      · exact Nat.zero_le 1
      · simpa using hc

end BreadthFirst

end Worklist
