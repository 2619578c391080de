import Mathlib.Algebra.BigOperators.Group.List.Basic
import Mathlib.Algebra.Order.BigOperators.Group.List
import Mathlib.Data.Finset.Card
import Mathlib.Logic.Relation
import Mathlib.Tactic.Linarith

set_option relaxedAutoImplicit false
set_option autoImplicit false

/-!
# Worklists that mark an item when it is taken

A queue of items, each with a key. Taking the first item marks its key as visited and appends
those of its successors whose key is not visited *at that moment*. A key is marked when an item
is taken, not when it is enqueued, so the queue may hold several items with one key, and each of
them is expanded again when its turn comes.

## Main definitions

* `Worklist.fresh` — the successors that taking an item enqueues.
* `Worklist.order` — the items in the order they are taken, at most `n` of them.
* `Worklist.Exhausts` — the queue is empty after at most `n` takes.
* `Worklist.weight` — the measure that every take decreases.

## Main results

* `Worklist.exhausts_of_weight_le` — `weight` takes exhaust the queue, whatever the successor
  relation: cycles, repeated and shared successors included.
* `Worklist.order_sound` — every item taken is reached from the queue.
* `Worklist.order_complete` — when the queue is exhausted, every key reached from the queue was
  taken.

## Design

With the visited set `V` fixed, taking an item whose key is in `V` enqueues only items whose key
is not in `V`, and taking any other item enlarges `V`. So an item weighs
`(D + 1)^{2u}` if its key is not visited and `(D + 1)^{2u + 1}` if it is, where `u` is the number
of keys not yet visited and `D` bounds the number of successors of an item.
-/

namespace Worklist

variable {α κ : Type*} [DecidableEq κ] (key : α → κ) (next : α → List α)

/-- The successors of `a` that are enqueued when the keys in `V` are visited. -/
def fresh (V : Finset κ) (a : α) : List α := (next a).filter fun b => key b ∉ V

/-- The items in the order they are taken from the queue `q` with the keys in `V` visited, at
most `n` of them. -/
def order : ℕ → List α → Finset κ → List α
  | 0, _, _ => []
  | _ + 1, [], _ => []
  | n + 1, a :: q, V =>
    a :: order n (q ++ fresh key next (insert (key a) V) a) (insert (key a) V)

/-- The queue `q` is empty after at most `n` takes. -/
def Exhausts : ℕ → List α → Finset κ → Prop
  | 0, q, _ => q = []
  | _ + 1, [], _ => True
  | n + 1, a :: q, V =>
    Exhausts n (q ++ fresh key next (insert (key a) V) a) (insert (key a) V)

variable {key next}

/-- The enqueued successors are the successors whose key is not visited. -/
@[simp] lemma mem_fresh {V : Finset κ} {a b : α} :
    b ∈ fresh key next V a ↔ b ∈ next a ∧ key b ∉ V := by
  simp [fresh]

/-! ## What is taken -/

/-- Every item taken is in the queue, or is an unvisited successor of an item taken before it.

**Proof sketch.** Induction on the number of takes: an item taken after the first one is in the
queue that the first take leaves, which holds the rest of the queue and the enqueued successors
of the first item, or is a successor of an item taken between the two. -/
lemma origin_of_order_eq {n : ℕ} {q : List α} {V : Finset κ} {l₁ l₂ : List α} {b : α}
    (h : order key next n q V = l₁ ++ b :: l₂) :
    b ∈ q ∨ ∃ a ∈ l₁, b ∈ next a ∧ key b ∉ V := by
  induction n generalizing q V l₁ with
  | zero => simp [order] at h
  | succ n ih =>
    cases q with
    | nil => simp [order] at h
    | cons a q =>
      cases l₁ with
      | nil =>
        rw [order, List.nil_append, List.cons.injEq] at h
        exact Or.inl (h.1 ▸ List.mem_cons_self)
      | cons c l₁ =>
        rw [order, List.cons_append, List.cons.injEq] at h
        obtain ⟨rfl, hrest⟩ := h
        rcases ih hrest with hmem | ⟨c, hc, hbc, hV⟩
        · rcases List.mem_append.mp hmem with hmem | hmem
          · exact Or.inl (List.mem_cons_of_mem a hmem)
          · rw [mem_fresh, Finset.mem_insert, not_or] at hmem
            exact Or.inr ⟨a, List.mem_cons_self, hmem.1, hmem.2.2⟩
        · rw [Finset.mem_insert, not_or] at hV
          exact Or.inr ⟨c, List.mem_cons_of_mem a hc, hbc, hV.2⟩

/-- From a single item, every other item taken is a successor of an item taken before it, and its
key is not the key of the first item, which is visited from the first take on. -/
lemma origin_of_order_singleton_eq {n : ℕ} {a b : α} {l₁ l₂ : List α}
    (h : order key next n [a] ∅ = l₁ ++ b :: l₂) :
    (b = a ∧ l₁ = []) ∨ key b ≠ key a ∧ ∃ c ∈ l₁, b ∈ next c := by
  cases n with
  | zero => simp [order] at h
  | succ n =>
    cases l₁ with
    | nil =>
      rw [order, List.nil_append, List.nil_append, List.cons.injEq] at h
      exact Or.inl ⟨h.1.symm, rfl⟩
    | cons c l₁ =>
      rw [order, List.cons_append, List.cons.injEq] at h
      obtain ⟨rfl, hrest⟩ := h
      right
      rcases origin_of_order_eq hrest with hmem | ⟨c, hc, hnext, hV⟩
      · rw [List.nil_append, mem_fresh] at hmem
        exact ⟨by simpa using hmem.2, a, List.mem_cons_self, hmem.1⟩
      · exact ⟨by simpa using hV, c, List.mem_cons_of_mem a hc, hnext⟩

/-- **Soundness**: every item taken is reached from an item of the queue by successor steps. -/
theorem order_sound {n : ℕ} {q : List α} {V : Finset κ} {b : α}
    (hb : b ∈ order key next n q V) :
    ∃ a ∈ q, Relation.ReflTransGen (fun x y => y ∈ next x) a b := by
  induction n generalizing q V with
  | zero => simp [order] at hb
  | succ n ih =>
    cases q with
    | nil => simp [order] at hb
    | cons a q =>
      simp only [order, List.mem_cons] at hb
      rcases hb with rfl | hb
      · exact ⟨b, List.mem_cons_self, .refl⟩
      · obtain ⟨c, hc, hcb⟩ := ih hb
        rcases List.mem_append.mp hc with hc | hc
        · exact ⟨c, List.mem_cons_of_mem _ hc, hcb⟩
        · exact ⟨a, List.mem_cons_self, .head (mem_fresh.mp hc).1 hcb⟩

/-- When the queue is exhausted, every item of the queue was taken. -/
lemma mem_order_of_mem {n : ℕ} {q : List α} {V : Finset κ} (h : Exhausts key next n q V) {b : α}
    (hb : b ∈ q) : b ∈ order key next n q V := by
  induction n generalizing q V with
  | zero =>
    rw [Exhausts] at h
    simp [h] at hb
  | succ n ih =>
    cases q with
    | nil => simp at hb
    | cons a q =>
      rw [order, List.mem_cons]
      rcases List.mem_cons.mp hb with rfl | hb
      · exact Or.inl rfl
      · exact Or.inr (ih h (List.mem_append_left _ hb))

/-- When the queue is exhausted, the keys taken or visited before are closed under successors.

**Proof sketch.** Induction on the number of takes. A successor of the first item is enqueued by
the first take, and then taken, unless its key is visited at that moment: then it was visited
before, or it is the key of the first item. -/
lemma order_closed {n : ℕ} {q : List α} {V : Finset κ} (h : Exhausts key next n q V) {a b : α}
    (ha : a ∈ order key next n q V) (hb : b ∈ next a) :
    key b ∈ V ∨ ∃ c ∈ order key next n q V, key c = key b := by
  induction n generalizing q V with
  | zero => simp [order] at ha
  | succ n ih =>
    cases q with
    | nil => simp [order] at ha
    | cons d q =>
      simp only [order, List.mem_cons] at ha ⊢
      have hvisited : key b ∈ insert (key d) V →
          key b ∈ V ∨ ∃ c, (c = d ∨ c ∈ order key next n
            (q ++ fresh key next (insert (key d) V) d) (insert (key d) V)) ∧ key c = key b := by
        intro hmem
        rcases Finset.mem_insert.mp hmem with heq | hV
        · exact Or.inr ⟨d, Or.inl rfl, heq.symm⟩
        · exact Or.inl hV
      rcases ha with rfl | ha
      · by_cases hmem : key b ∈ insert (key a) V
        · exact hvisited hmem
        · have hq : b ∈ q ++ fresh key next (insert (key a) V) a :=
            List.mem_append_right _ (mem_fresh.mpr ⟨hb, hmem⟩)
          exact Or.inr ⟨b, Or.inr (mem_order_of_mem (n := n) h hq), rfl⟩
      · rcases ih h ha with hmem | ⟨c, hc, heq⟩
        · exact hvisited hmem
        · exact Or.inr ⟨c, Or.inr hc, heq⟩

/-- **Completeness**: when the queue is exhausted and the keys of the successors of an item
depend only on its key, every key reached from the queue was taken.

**Proof sketch.** Induction on the path. The keys taken are closed under successors
(`order_closed`, with nothing visited at the start), and the item of the path may be replaced by
the item with the same key that was taken. -/
theorem order_complete {n : ℕ} {q : List α} (h : Exhausts key next n q ∅)
    (hkey : ∀ a a' b, key a = key a' → b ∈ next a → ∃ b' ∈ next a', key b' = key b) {a b : α}
    (ha : a ∈ q) (hab : Relation.ReflTransGen (fun x y => y ∈ next x) a b) :
    ∃ c ∈ order key next n q ∅, key c = key b := by
  induction hab with
  | refl => exact ⟨a, mem_order_of_mem h ha, rfl⟩
  | tail _ hstep ih =>
    obtain ⟨c, hc, heq⟩ := ih
    obtain ⟨b', hb', heq'⟩ := hkey _ _ _ heq.symm hstep
    rcases order_closed h hc hb' with hmem | ⟨d, hd, hdeq⟩
    · simp at hmem
    · exact ⟨d, hd, hdeq.trans heq'⟩

/-! ## Termination -/

variable (key)

/-- The weight of a queue: an item weighs `(D + 1)^{2u}` if its key is not visited and
`(D + 1)^{2u + 1}` if it is, where `u` keys of `U` are not visited. -/
def weight (U : Finset κ) (D : ℕ) (q : List α) (V : Finset κ) : ℕ :=
  (q.map fun a => (D + 1) ^ (2 * (U \ V).card + if key a ∈ V then 1 else 0)).sum

/-- Enqueued successors weigh at most `D` unvisited items. -/
lemma weight_fresh_le {U : Finset κ} {D : ℕ} (V : Finset κ) {a : α}
    (hD : (next a).length ≤ D) :
    weight key U D (fresh key next V a) V ≤ D * (D + 1) ^ (2 * (U \ V).card) := by
  have hterm : ∀ b ∈ fresh key next V a,
      (D + 1) ^ (2 * (U \ V).card + if key b ∈ V then 1 else 0) =
        (D + 1) ^ (2 * (U \ V).card) := by
    intro b hb
    simp [(mem_fresh.mp hb).2]
  have hlen : (fresh key next V a).length ≤ D := (List.length_filter_le _ _).trans hD
  rw [weight, List.map_congr_left hterm, List.map_const', List.sum_replicate, nsmul_eq_mul]
  exact Nat.mul_le_mul_right _ hlen

/-- Marking one more key of `U` leaves one key fewer to visit. -/
lemma card_sdiff_insert {U V : Finset κ} {k : κ} (hU : k ∈ U) (hV : k ∉ V) :
    (U \ V).card = (U \ insert k V).card + 1 := by
  rw [Finset.sdiff_insert, Finset.card_erase_add_one (Finset.mem_sdiff.mpr ⟨hU, hV⟩)]

/-- Marking one more key of `U` does not make the rest of the queue heavier. -/
lemma weight_insert_le {U : Finset κ} {D : ℕ} {V : Finset κ} {k : κ} (hU : k ∈ U) (hV : k ∉ V)
    (q : List α) : weight key U D q (insert k V) ≤ weight key U D q V := by
  have hcard := card_sdiff_insert hU hV
  refine List.sum_le_sum fun a _ => Nat.pow_le_pow_right (Nat.succ_pos D) ?_
  split_ifs <;> omega

variable {key}

/-- **Every take decreases the weight.**

**Proof sketch.** If the key of the item is visited already, the item weighs `(D + 1)^{2u + 1}`
and at most `D` items of weight `(D + 1)^{2u}` replace it. Otherwise `u` drops by one, nothing
else gets heavier (`weight_insert_le`), and at most `D` items of weight `(D + 1)^{2u - 2}`
replace an item of weight `(D + 1)^{2u}`. -/
lemma weight_take_lt {U : Finset κ} {D : ℕ} {V : Finset κ} {a : α} {q : List α}
    (hU : key a ∈ U) (hD : (next a).length ≤ D) :
    weight key U D (q ++ fresh key next (insert (key a) V) a) (insert (key a) V) <
      weight key U D (a :: q) V := by
  have happend : ∀ V' : Finset κ, weight key U D (q ++ fresh key next V' a) V' =
      weight key U D q V' + weight key U D (fresh key next V' a) V' := by
    intro V'
    simp [weight]
  have hcons : weight key U D (a :: q) V =
      (D + 1) ^ (2 * (U \ V).card + if key a ∈ V then 1 else 0) + weight key U D q V := by
    simp [weight]
  rw [happend, hcons]
  have hfresh := weight_fresh_le key (U := U) (insert (key a) V) hD
  by_cases hV : key a ∈ V
  · rw [Finset.insert_eq_of_mem hV] at hfresh ⊢
    rw [if_pos hV, pow_succ]
    have hpos : 0 < (D + 1) ^ (2 * (U \ V).card) := Nat.pow_pos (Nat.succ_pos D)
    nlinarith
  · have hrest := weight_insert_le key (D := D) hU hV q
    set u := (U \ insert (key a) V).card
    have hpos : 0 < (D + 1) ^ (2 * u) := Nat.pow_pos (Nat.succ_pos D)
    have hpow : (D + 1) ^ (2 * (U \ V).card) = (D + 1) ^ (2 * u) * ((D + 1) * (D + 1)) := by
      rw [card_sdiff_insert hU hV, Nat.mul_succ, pow_add, pow_two]
    rw [if_neg hV, add_zero (2 * (U \ V).card), hpow]
    nlinarith

/-- **Termination**: if the keys lie in `U` and no item has more than `D` successors, as many
takes as the queue weighs exhaust it.

**Proof sketch.** Induction on the number of takes, by `weight_take_lt`. -/
theorem exhausts_of_weight_le {U : Finset κ} {D : ℕ} (hU : ∀ a, ∀ b ∈ next a, key b ∈ U)
    (hD : ∀ a, (next a).length ≤ D) {n : ℕ} {q : List α} {V : Finset κ}
    (hq : ∀ a ∈ q, key a ∈ U) (hn : weight key U D q V ≤ n) : Exhausts key next n q V := by
  induction n generalizing q V with
  | zero =>
    cases q with
    | nil => rfl
    | cons a q =>
      have hlt := weight_take_lt (V := V) (q := q) (hq a List.mem_cons_self) (hD a)
      omega
  | succ n ih =>
    cases q with
    | nil => trivial
    | cons a q =>
      have hlt := weight_take_lt (V := V) (q := q) (hq a List.mem_cons_self) (hD a)
      refine ih (fun b hb => ?_) (by omega)
      rcases List.mem_append.mp hb with hb | hb
      · exact hq b (List.mem_cons_of_mem _ hb)
      · exact hU a b (mem_fresh.mp hb).1

/-- A single item is exhausted within `(D + 1)^{2 |U|}` takes. -/
lemma exhausts_singleton {U : Finset κ} {D : ℕ} (hU : ∀ a, ∀ b ∈ next a, key b ∈ U)
    (hD : ∀ a, (next a).length ≤ D) {a : α} (ha : key a ∈ U) {n : ℕ}
    (hn : (D + 1) ^ (2 * U.card) ≤ n) : Exhausts key next n [a] ∅ := by
  refine exhausts_of_weight_le hU hD (fun b hb => ?_) ?_
  · rw [List.mem_singleton.mp hb]; exact ha
  · simpa [weight] using hn

end Worklist
