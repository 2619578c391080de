import Mathlib.Algebra.BigOperators.Group.List.Basic
import Mathlib.Data.List.AList
import Mathlib.Tactic.Ring

set_option relaxedAutoImplicit false
set_option autoImplicit false

/-!
# The concurrent collections

`ConcurrentList` and `ConcurrentCleanableMap`, the two collections the storage is made of
(`concurrentCollections/concurrentList.h`, `concurrentCollections/concurrentMap.h`). Each
operation is one critical section of the source's mutex; the check of `pop_front` and its pop are
two sections, taken together here.

A pointer that an operation returns is an `Option`, with `none` for `nullptr`. What has undefined
behaviour in the source (`back` of an empty `std::list`, popping an empty one in `clean`) gives
`none`.

## Main definitions

* `KotlinTracer.ConcurrentList`, `KotlinTracer.ConcurrentCleanableMap` — the collections.
* `KotlinTracer.ConcurrentList.updateFirst`, `KotlinTracer.ConcurrentCleanableMap.modify` — writing
  through a pointer found in the collection.

## Main results

* `KotlinTracer.ConcurrentList.clean_eq` — `clean` drops the marked number of elements, and is
  undefined when there are fewer.
* `KotlinTracer.ConcurrentCleanableMap.at?_insert`, `at?_modify`, `at?_clean` — what a key holds
  after each operation.
* `KotlinTracer.ConcurrentCleanableMap.sum_insert`, `sum_modify`, `sum_clean` — the sum of a
  quantity over all entries after each operation.
-/

namespace KotlinTracer

/-! ## Lists -/

/-- `ConcurrentList<T>`: the list and the number of elements marked for cleaning. `clean_until_` is
an `atomic_int`: this is the list as long as it has fewer than `2 ^ 31` elements, which
`CountedList.toConcurrentList_apply` states. -/
structure ConcurrentList (T : Type*) where
  list : List T := []
  cleanUntil : ℕ := 0

namespace ConcurrentList

variable {T : Type*}

/-- `push_back`. -/
def pushBack (l : ConcurrentList T) (value : T) : ConcurrentList T :=
  { l with list := l.list ++ [value] }

/-- `pop_front`: the first element, or `nullptr` when there is none. -/
def popFront (l : ConcurrentList T) : Option T × ConcurrentList T :=
  match l.list with
  | [] => (none, l)
  | value :: rest => (some value, { l with list := rest })

/-- `back`: `std::list::back`, undefined on the empty list. -/
def back (l : ConcurrentList T) : Option T := l.list.getLast?

/-- `forEach`, the lambda updating the state it captures. -/
def forEach {σ : Type*} (l : ConcurrentList T) (lambda : σ → T → σ) (s : σ) : σ :=
  l.list.foldl lambda s

/-- `forEachFiltered`. -/
def forEachFiltered {σ : Type*} (l : ConcurrentList T) (filter : T → Bool) (lambda : σ → T → σ)
    (s : σ) : σ :=
  l.list.foldl (fun s element => if filter element then lambda s element else s) s

/-- `find`: the first element that satisfies the predicate, or `nullptr`. -/
def find (l : ConcurrentList T) (lambda : T → Bool) : Option T := l.list.find? lambda

/-- `mark_for_clean`: remember the current size. -/
def markForClean (l : ConcurrentList T) : ConcurrentList T :=
  { l with cleanUntil := l.list.length }

/-- `n` times `std::list::pop_front`, which is undefined on the empty list. -/
def popFrontTimes : ℕ → List T → Option (List T)
  | 0, l => some l
  | _ + 1, [] => none
  | n + 1, _ :: l => popFrontTimes n l

/-- `clean`: pop as many elements as were counted by the latest mark. -/
def clean (l : ConcurrentList T) : Option (ConcurrentList T) :=
  (popFrontTimes l.cleanUntil l.list).map fun rest => { l with list := rest }

/-- Update the first element of a list that satisfies `p`. -/
def updateFirstIn (p : T → Bool) (f : T → T) : List T → List T
  | [] => []
  | x :: l => if p x then f x :: l else x :: updateFirstIn p f l

/-- Write through the pointer that `find` returns. -/
def updateFirst (l : ConcurrentList T) (p : T → Bool) (f : T → T) : ConcurrentList T :=
  { l with list := updateFirstIn p f l.list }

@[simp] lemma list_pushBack (l : ConcurrentList T) (x : T) :
    (l.pushBack x).list = l.list ++ [x] := rfl

@[simp] lemma cleanUntil_pushBack (l : ConcurrentList T) (x : T) :
    (l.pushBack x).cleanUntil = l.cleanUntil := rfl

/-- `pop_front` removes the first element, if there is one. -/
@[simp] lemma list_popFront (l : ConcurrentList T) : l.popFront.2.list = l.list.tail := by
  unfold popFront
  cases h : l.list with
  | nil => exact h
  | cons x rest => rfl

@[simp] lemma cleanUntil_popFront (l : ConcurrentList T) :
    l.popFront.2.cleanUntil = l.cleanUntil := by
  unfold popFront
  cases l.list <;> rfl

/-- A filtered traversal is a traversal of the filtered list. -/
lemma forEachFiltered_eq {σ : Type*} (l : ConcurrentList T) (filter : T → Bool)
    (lambda : σ → T → σ) (s : σ) :
    l.forEachFiltered filter lambda s = (l.list.filter filter).foldl lambda s := by
  rw [forEachFiltered, List.foldl_filter]

/-- Popping `n` times drops `n` elements, and is undefined when there are fewer. -/
lemma popFrontTimes_eq (n : ℕ) (l : List T) :
    popFrontTimes n l = if n ≤ l.length then some (l.drop n) else none := by
  induction n generalizing l with
  | zero => simp [popFrontTimes]
  | succ n ih =>
    cases l with
    | nil => simp [popFrontTimes]
    | cons x l => simp [popFrontTimes, ih]

/-- `clean` drops the marked number of elements, and is undefined when there are fewer. -/
lemma clean_eq (l : ConcurrentList T) :
    l.clean = if l.cleanUntil ≤ l.list.length then
      some { l with list := l.list.drop l.cleanUntil } else none := by
  rw [clean, popFrontTimes_eq]
  split_ifs <;> rfl

/-- Without a match nothing is updated. -/
lemma updateFirstIn_eq_self {p : T → Bool} {f : T → T} {l : List T} (h : l.find? p = none) :
    updateFirstIn p f l = l := by
  induction l with
  | nil => rfl
  | cons x l ih =>
    rw [List.find?_eq_none, List.forall_mem_cons] at h
    rw [updateFirstIn, if_neg h.1, ih (List.find?_eq_none.mpr h.2)]

/-- Every element after an update of the first match was there before or is the updated match. -/
lemma mem_updateFirstIn {p : T → Bool} {f : T → T} {l : List T} {y : T}
    (h : y ∈ updateFirstIn p f l) : y ∈ l ∨ ∃ x ∈ l, p x = true ∧ y = f x := by
  induction l with
  | nil => simp [updateFirstIn] at h
  | cons x l ih =>
    rw [updateFirstIn] at h
    split_ifs at h with hp
    · rcases List.mem_cons.mp h with rfl | h
      · exact Or.inr ⟨x, List.mem_cons_self, hp, rfl⟩
      · exact Or.inl (List.mem_cons_of_mem _ h)
    · rcases List.mem_cons.mp h with rfl | h
      · exact Or.inl List.mem_cons_self
      · rcases ih h with h | ⟨z, hz, hpz, rfl⟩
        · exact Or.inl (List.mem_cons_of_mem _ h)
        · exact Or.inr ⟨z, List.mem_cons_of_mem _ hz, hpz, rfl⟩

/-- What `find` finds in a longer list. -/
lemma find_pushBack (l : ConcurrentList T) (x : T) (p : T → Bool) :
    (l.pushBack x).find p = (l.find p).or (if p x then some x else none) := by
  rw [find, list_pushBack, List.find?_append]
  cases hx : p x <;> simp [find, hx]

/-- What `find` finds after an update that does not change what is asked for. -/
lemma map_find_updateFirst {β : Type*} {p q : T → Bool} {f : T → T} {g : T → β}
    (hp : ∀ x, p (f x) = p x) (hg : ∀ x, g (f x) = g x) (l : ConcurrentList T) :
    ((l.updateFirst q f).find p).map g = (l.find p).map g := by
  have hlist : ∀ l : List T, ((updateFirstIn q f l).find? p).map g = (l.find? p).map g := by
    intro l
    induction l with
    | nil => rfl
    | cons x l ih =>
      rw [updateFirstIn]
      split_ifs
      · cases hx : p x
        · rw [List.find?_cons_of_neg (by rw [hp, hx]; exact Bool.false_ne_true),
            List.find?_cons_of_neg (by rw [hx]; exact Bool.false_ne_true)]
        · rw [List.find?_cons_of_pos (by rw [hp, hx]), List.find?_cons_of_pos hx, Option.map_some,
            Option.map_some, hg]
      · cases hx : p x
        · rw [List.find?_cons_of_neg (by rw [hx]; exact Bool.false_ne_true),
            List.find?_cons_of_neg (by rw [hx]; exact Bool.false_ne_true), ih]
        · rw [List.find?_cons_of_pos hx, List.find?_cons_of_pos hx]
  exact hlist l.list

/-- An update after which the first match is no match takes it from the matches. -/
lemma filter_updateFirstIn_of_not {p : T → Bool} {f : T → T} (h : ∀ x, p (f x) = false)
    (l : List T) : (updateFirstIn p f l).filter p = (l.filter p).tail := by
  induction l with
  | nil => rfl
  | cons x l ih =>
    rw [updateFirstIn]
    split_ifs with hx
    · rw [List.filter_cons_of_neg (by rw [h x]; exact Bool.false_ne_true),
        List.filter_cons_of_pos hx, List.tail_cons]
    · rw [List.filter_cons_of_neg hx, List.filter_cons_of_neg hx, ih]

/-- An update after which the first match is still a match keeps the number of matches. -/
lemma length_filter_updateFirstIn_of_pos {p : T → Bool} {f : T → T}
    (h : ∀ x, p x = true → p (f x) = true) (l : List T) :
    ((updateFirstIn p f l).filter p).length = (l.filter p).length := by
  induction l with
  | nil => rfl
  | cons x l ih =>
    rw [updateFirstIn]
    split_ifs with hx
    · rw [List.filter_cons_of_pos (h x hx), List.filter_cons_of_pos hx, List.length_cons,
        List.length_cons]
    · rw [List.filter_cons_of_neg hx, List.filter_cons_of_neg hx, ih]

end ConcurrentList

/-! ## Maps -/

/-- `ConcurrentCleanableMap<K, V>`: the map and the keys marked for cleaning. -/
structure ConcurrentCleanableMap (K V : Type*) where
  map : AList fun _ : K => V := ∅
  cleanList : List K := []

namespace ConcurrentCleanableMap

variable {K V : Type*} [DecidableEq K]

/-- `insert`: does not overwrite, and answers whether the key was absent. -/
def insert (m : ConcurrentCleanableMap K V) (key : K) (value : V) :
    Bool × ConcurrentCleanableMap K V :=
  if key ∈ m.map then (false, m) else (true, { m with map := m.map.insert key value })

/-- `get`: `operator[]`, which inserts the default value of `V` when the key is absent. -/
def get (m : ConcurrentCleanableMap K V) (default : V) (key : K) :
    V × ConcurrentCleanableMap K V :=
  match m.map.lookup key with
  | some value => (value, m)
  | none => (default, { m with map := m.map.insert key default })

/-- `at`: `none` is the exception for an absent key. -/
def at? (m : ConcurrentCleanableMap K V) (key : K) : Option V := m.map.lookup key

/-- `contains`. -/
def contains (m : ConcurrentCleanableMap K V) (key : K) : Bool := decide (key ∈ m.map)

/-- `erase`: answers whether the key was present. -/
def erase (m : ConcurrentCleanableMap K V) (key : K) : Bool × ConcurrentCleanableMap K V :=
  if key ∈ m.map then (true, { m with map := m.map.erase key }) else (false, m)

/-- `mark_current_values_for_clean`: append every key of the map to the clean list. -/
def markCurrentValuesForClean (m : ConcurrentCleanableMap K V) : ConcurrentCleanableMap K V :=
  { m with cleanList := m.cleanList ++ m.map.keys }

/-- `clean`: erase the keys of the clean list, from its back, and empty it. -/
def clean (m : ConcurrentCleanableMap K V) : ConcurrentCleanableMap K V :=
  { map := m.cleanList.foldr AList.erase m.map, cleanList := [] }

/-- Write through the pointer that `key` holds. -/
def modify (m : ConcurrentCleanableMap K V) (key : K) (f : V → V) : ConcurrentCleanableMap K V :=
  match m.map.lookup key with
  | some value => { m with map := m.map.insert key (f value) }
  | none => m

/-- A map contains the keys that hold a value. -/
lemma contains_iff {m : ConcurrentCleanableMap K V} {k : K} :
    m.contains k = true ↔ ∃ v, m.at? k = some v := by
  rw [contains, decide_eq_true_iff, ← AList.lookup_isSome, Option.isSome_iff_exists]
  rfl

/-- A map does not contain the keys that hold nothing. -/
lemma contains_eq_false_iff {m : ConcurrentCleanableMap K V} {k : K} :
    m.contains k = false ↔ m.at? k = none := by
  rw [contains, decide_eq_false_iff_not]
  exact AList.lookup_eq_none.symm

/-- A key is in the map when it holds a value. -/
lemma mem_map_iff {m : ConcurrentCleanableMap K V} {k : K} :
    k ∈ m.map ↔ ∃ v, m.at? k = some v := by
  rw [← contains_iff, contains, decide_eq_true_iff]

/-- A key is not in the map when it holds nothing. -/
lemma notMem_map_iff {m : ConcurrentCleanableMap K V} {k : K} :
    k ∉ m.map ↔ m.at? k = none := AList.lookup_eq_none.symm

/-- `insert` succeeds exactly on absent keys. -/
lemma insert_fst {m : ConcurrentCleanableMap K V} {k : K} {v : V} :
    (m.insert k v).1 = true ↔ m.at? k = none := by
  rw [insert, ← notMem_map_iff]
  split_ifs with h <;> simp [h]

/-- What a key holds after `insert`: the new value if it was absent. -/
lemma at?_insert (m : ConcurrentCleanableMap K V) (k k' : K) (v : V) :
    (m.insert k v).2.at? k' = if k' = k ∧ m.at? k = none then some v else m.at? k' := by
  rw [insert]
  by_cases hmem : k ∈ m.map
  · have hne : m.at? k ≠ none := fun h => notMem_map_iff.mpr h hmem
    simp [hmem, hne]
  · have hnone : m.at? k = none := notMem_map_iff.mp hmem
    rw [if_neg hmem]
    by_cases hk : k' = k
    · subst hk
      rw [if_pos ⟨rfl, hnone⟩]
      exact AList.lookup_insert _
    · rw [if_neg fun h => hk h.1]
      exact AList.lookup_insert_ne hk

/-- What a key holds after `insert` of a value under a key that holds nothing or this value. -/
lemma at?_insert_of_agree {m : ConcurrentCleanableMap K V} {k : K} {v : V}
    (h : ∀ v', m.at? k = some v' → v' = v) (k' : K) :
    (m.insert k v).2.at? k' = if k' = k then some v else m.at? k' := by
  rw [at?_insert]
  by_cases hk : k' = k
  · subst hk
    cases hv : m.at? k' with
    | none => simp
    | some v' => simp [h v' hv]
  · simp [hk]

@[simp] lemma cleanList_insert (m : ConcurrentCleanableMap K V) (k : K) (v : V) :
    (m.insert k v).2.cleanList = m.cleanList := by
  rw [insert]
  split_ifs <;> rfl

/-- `get` returns what the key holds, or the default. -/
lemma get_fst (m : ConcurrentCleanableMap K V) (d : V) (k : K) :
    (m.get d k).1 = (m.at? k).getD d := by
  rw [get, at?]
  cases m.map.lookup k <;> rfl

/-- What a key holds after `get`: the default if it was absent. -/
lemma at?_get (m : ConcurrentCleanableMap K V) (d : V) (k k' : K) :
    (m.get d k).2.at? k' = if k' = k then some ((m.at? k).getD d) else m.at? k' := by
  rw [get, at?, at?, at?]
  by_cases hk : k' = k
  · subst hk
    cases h : m.map.lookup k' <;> simp [h]
  · cases h : m.map.lookup k <;> simp [hk]

@[simp] lemma cleanList_get (m : ConcurrentCleanableMap K V) (d : V) (k : K) :
    (m.get d k).2.cleanList = m.cleanList := by
  rw [get]
  cases m.map.lookup k <;> rfl

/-- `erase` leaves the other keys alone. -/
lemma at?_erase (m : ConcurrentCleanableMap K V) (k k' : K) :
    (m.erase k).2.at? k' = if k' = k then none else m.at? k' := by
  rw [erase]
  by_cases hk : k' = k
  · subst hk
    rw [if_pos rfl]
    split_ifs with hmem
    · exact AList.lookup_erase _ _
    · exact notMem_map_iff.mp hmem
  · split_ifs <;> simp [at?, hk]

/-- What a key holds after a write through the pointer of `k`. -/
lemma at?_modify (m : ConcurrentCleanableMap K V) (k k' : K) (f : V → V) :
    (m.modify k f).at? k' = if k' = k then (m.at? k).map f else m.at? k' := by
  rw [modify, at?, at?, at?]
  by_cases hk : k' = k
  · subst hk
    cases h : m.map.lookup k' <;> simp [h]
  · cases h : m.map.lookup k <;> simp [hk]

@[simp] lemma cleanList_modify (m : ConcurrentCleanableMap K V) (k : K) (f : V → V) :
    (m.modify k f).cleanList = m.cleanList := by
  rw [modify]
  cases m.map.lookup k <;> rfl

/-- Marking adds the keys that hold a value to the clean list. -/
lemma mem_cleanList_mark (m : ConcurrentCleanableMap K V) (k : K) :
    k ∈ m.markCurrentValuesForClean.cleanList ↔ k ∈ m.cleanList ∨ ∃ v, m.at? k = some v := by
  rw [markCurrentValuesForClean, List.mem_append, ← AList.mem_keys, mem_map_iff]

/-- The entries that erasing a list of keys leaves. -/
lemma entries_foldr_erase (m : AList fun _ : K => V) (ks : List K) :
    (ks.foldr AList.erase m).entries = m.entries.filter fun p => p.1 ∉ ks := by
  induction ks with
  | nil => simp
  | cons k ks ih =>
    have hkerase : ∀ l : List (Sigma fun _ : K => V), l.NodupKeys →
        l.kerase k = l.filter fun p => decide (p.1 ≠ k) := by
      intro l hl
      induction l with
      | nil => rfl
      | cons p l ihl =>
        rw [List.nodupKeys_cons] at hl
        by_cases hp : k = p.1
        · rw [List.kerase_cons_eq hp, List.filter_cons_of_neg (by simp [hp]),
            List.filter_eq_self.mpr]
          intro q hq
          have hne : q.1 ≠ p.1 := fun h => hl.1 (h ▸ List.mem_keys_of_mem hq)
          simpa [hp] using hne
        · rw [List.kerase_cons_ne hp, ihl hl.2, List.filter_cons_of_pos (by simpa using Ne.symm hp)]
    have herase : ((k :: ks).foldr AList.erase m).entries =
        (ks.foldr AList.erase m).entries.kerase k := rfl
    rw [herase, hkerase _ (ks.foldr AList.erase m).nodupKeys, ih, List.filter_filter]
    refine List.filter_congr fun p _ => ?_
    simp

/-- What a key holds after `clean`: nothing if it was marked, and what it held otherwise. -/
lemma at?_clean (m : ConcurrentCleanableMap K V) (k : K) :
    m.clean.at? k = if k ∈ m.cleanList then none else m.at? k := by
  have hmem : ∀ v, v ∈ m.clean.at? k ↔ v ∈ m.at? k ∧ k ∉ m.cleanList := by
    intro v
    rw [at?, at?, AList.mem_lookup_iff, AList.mem_lookup_iff, clean, entries_foldr_erase,
      List.mem_filter]
    simp
  ext v
  rw [← Option.mem_def, hmem]
  split_ifs with h <;> simp [h]

@[simp] lemma cleanList_clean (m : ConcurrentCleanableMap K V) : m.clean.cleanList = [] := rfl

/-! ### Sums over all entries -/

/-- The sum of a quantity over all values of the map. -/
def sum (m : ConcurrentCleanableMap K V) (f : V → ℤ) : ℤ :=
  (m.map.entries.map fun p => f p.2).sum

/-- The values that `clean` drops. -/
def dropped (m : ConcurrentCleanableMap K V) : List V :=
  (m.map.entries.filter fun p => p.1 ∈ m.cleanList).map fun p => p.2

/-- The sum depends on what the keys hold only, not on the order of the entries. -/
lemma sum_congr {m m' : ConcurrentCleanableMap K V} (h : ∀ k, m.at? k = m'.at? k) (f : V → ℤ) :
    m.sum f = m'.sum f := by
  have hperm : m.map.entries.Perm m'.map.entries := by
    refine List.lookup_ext m.map.nodupKeys m'.map.nodupKeys fun k v => ?_
    have hk : m.map.entries.dlookup k = m'.map.entries.dlookup k := h k
    rw [hk]
  exact (hperm.map fun p => f p.2).sum_eq

/-- Inserting a new key adds its value to the sum. -/
lemma sum_insert {m : ConcurrentCleanableMap K V} {k : K} (h : m.at? k = none) (v : V)
    (f : V → ℤ) : (m.insert k v).2.sum f = f v + m.sum f := by
  have hmem : k ∉ m.map := notMem_map_iff.mpr h
  rw [insert, if_neg hmem, sum, AList.entries_insert_of_notMem hmem]
  rfl

/-- Writing through the pointer of a key changes the sum by the change of its value. -/
lemma sum_modify {m : ConcurrentCleanableMap K V} {k : K} {v : V} (h : m.at? k = some v)
    (g : V → V) (f : V → ℤ) : (m.modify k g).sum f = m.sum f - f v + f (g v) := by
  have hmem : k ∈ m.map.entries.keys := mem_map_iff.mpr ⟨v, h⟩
  obtain ⟨w, l₁, l₂, hnot, hentries, hkerase⟩ := List.exists_of_kerase hmem
  have hw : w = v := by
    have hlookup : w ∈ m.map.lookup k := by
      rw [AList.mem_lookup_iff, hentries]
      simp
    rw [at?] at h
    rw [h] at hlookup
    simpa using hlookup.symm
  have hmodify : (m.modify k g).map.entries = ⟨k, g v⟩ :: m.map.entries.kerase k := by
    rw [at?] at h
    rw [modify, h]
    rfl
  rw [sum, sum, hmodify, hkerase, hentries, hw]
  simp only [List.map_cons, List.map_append, List.sum_cons, List.sum_append]
  ring

/-- What `clean` drops and what it leaves add up to what there was. -/
lemma sum_clean (m : ConcurrentCleanableMap K V) (f : V → ℤ) :
    m.clean.sum f + (m.dropped.map f).sum = m.sum f := by
  rw [sum, sum, dropped, clean, entries_foldr_erase]
  induction m.map.entries with
  | nil => rfl
  | cons p l ih =>
    by_cases hp : p.1 ∈ m.cleanList
    · rw [List.filter_cons_of_neg (by simpa using hp), List.filter_cons_of_pos (by simpa using hp)]
      simp only [List.map_cons, List.sum_cons]
      rw [← ih]; ring
    · rw [List.filter_cons_of_pos (by simpa using hp), List.filter_cons_of_neg (by simpa using hp)]
      simp only [List.map_cons, List.sum_cons]
      rw [← ih]; ring

end ConcurrentCleanableMap

end KotlinTracer
