import Mathlib.Algebra.Ring.Int.Defs
import Mathlib.Algebra.Ring.Nat
import Mathlib.Data.List.Basic
import Mathlib.Data.List.TakeDrop
import Mathlib.Data.List.TakeWhile

set_option relaxedAutoImplicit false
set_option autoImplicit false

/-!
# Character sequences of the standard library

The operations of `std::string` by which a program takes a text apart: searching for a character
from a position on, taking a part given by a position and a length, and reading a number. A text is
the list of its characters, positions and lengths are numbers. Beside them, the view that a
specification takes of the same text: the segments between the occurrences of a separator.

## Main definitions

* `StdException` — the exceptions of the standard library, with their texts.
* `StdString.find`, `StdString.substr`, `StdString.substrFrom`, `StdString.stoi`,
  `StdString.sizeSub` — the operations.
* `List.splitFirst` — what comes before and after the first separator.
* `List.joined` — segments joined by a separator, with or without one more separator at the end.
* `List.segments` — the segments of a sequence, one separator at its end aside.

## Main results

* `StdString.find_append`, `StdString.substr_append` — searching in, and taking a part of, a text
  that is given as the parts before, in and after it.
* `List.joined_segments`, `List.not_mem_of_mem_segments` — every sequence is its segments joined,
  and the separator is in none of them.
-/

/-- The exceptions of the standard library, with the text of `what`. -/
inductive StdException
  | runtimeError (what : List Char)
  | invalidArgument (what : List Char)
  | outOfRange (what : List Char)
deriving DecidableEq

namespace StdString

/-! ## The operations -/

/-- The difference of two values of type `size_t`, which has 64 bits. -/
def sizeSub (a b : ℕ) : ℕ :=
  if b ≤ a then a - b else 2 ^ 64 - (b - a)

/-- `s.find(c, position)`: the first position from `position` on with the character `c`; `none` is
`npos`. -/
def find (s : List Char) (c : Char) (position : ℕ) : Option ℕ :=
  ((s.drop position).findIdx? (· == c)).map (position + ·)

/-- `s.substr(position, count)`: at most `count` characters from `position` on. -/
def substr (s : List Char) (position count : ℕ) : Except StdException (List Char) :=
  if position ≤ s.length then .ok ((s.drop position).take count)
  else .error (.outOfRange "basic_string::substr".toList)

/-- `s.substr(position)`: all characters from `position` on. -/
def substrFrom (s : List Char) (position : ℕ) : Except StdException (List Char) :=
  if position ≤ s.length then .ok (s.drop position)
  else .error (.outOfRange "basic_string::substr".toList)

/-- The white space that the reading of a number skips. -/
def isSpace (c : Char) : Bool :=
  c = ' ' || (9 ≤ c.toNat && c.toNat ≤ 13)

/-- The sign that a number starts with, and what comes after it. -/
def sign : List Char → Bool × List Char
  | '-' :: s => (true, s)
  | '+' :: s => (false, s)
  | s => (false, s)

/-- The number with the given decimal digits. -/
def ofDigits (digits : List Char) : ℕ :=
  digits.foldl (fun n c => 10 * n + (c.toNat - '0'.toNat)) 0

/-- `stoi(s)`: the `int` that `s` starts with, after white space. What comes after its last digit is
ignored. -/
def stoi (s : List Char) : Except StdException ℤ :=
  let signed := sign (s.dropWhile isSpace)
  let digits := signed.2.takeWhile Char.isDigit
  let value : ℤ := if signed.1 then -(ofDigits digits : ℤ) else ofDigits digits
  if digits = [] then .error (.invalidArgument "stoi".toList)
  else if -2 ^ 31 ≤ value ∧ value < 2 ^ 31 then .ok value
  else .error (.outOfRange "stoi".toList)

example : stoi " -12ms".toList = .ok (-12) ∧
    stoi "ms".toList = .error (.invalidArgument "stoi".toList) ∧
    stoi "2147483648".toList = .error (.outOfRange "stoi".toList) := by decide

/-! ## What the operations find -/

variable {s a b : List Char} {c : Char} {position i : ℕ}

lemma sizeSub_of_le {m n : ℕ} (h : n ≤ m) : sizeSub m n = m - n :=
  if_pos h

/-- The first occurrence of a character, in a text given as what comes before it and after it. -/
lemma find_append (hs : s.drop position = a ++ c :: b) (ha : c ∉ a) :
    find s c position = some (position + a.length) := by
  have hbefore : a.findIdx? (· == c) = none := by
    rw [List.findIdx?_eq_none_iff]
    intro x hx
    exact beq_false_of_ne fun h => ha (h ▸ hx)
  rw [find, hs, List.findIdx?_append, hbefore, List.findIdx?_cons]
  simp

/-- A character that does not occur from `position` on is not found. -/
lemma find_eq_none_iff : find s c position = none ↔ c ∉ s.drop position := by
  rw [find, Option.map_eq_none_iff, List.findIdx?_eq_none_iff]
  constructor
  · intro h hmem
    simpa using h c hmem
  · intro h x hx
    exact beq_false_of_ne fun hc => h (hc ▸ hx)

/-- The search starts at `position`. -/
lemma le_of_find_eq_some (h : find s c position = some i) : position ≤ i := by
  obtain ⟨j, -, rfl⟩ := Option.map_eq_some_iff.mp h
  exact Nat.le_add_right _ _

/-- A part of a text that is given as the part and what comes after it. -/
lemma substr_append (hs : s.drop position = a ++ b) (hposition : position ≤ s.length) :
    substr s position a.length = .ok a := by
  rw [substr, if_pos hposition, hs, List.take_left]

lemma substrFrom_eq (hs : s.drop position = a) (hposition : position ≤ s.length) :
    substrFrom s position = .ok a := by
  rw [substrFrom, if_pos hposition, hs]

/-- The exceptions of `stoi`. -/
lemma of_stoi_eq_error {exception : StdException} (h : stoi s = .error exception) :
    exception = .invalidArgument "stoi".toList ∨ exception = .outOfRange "stoi".toList := by
  rw [stoi] at h
  split_ifs at h
  · exact Or.inl (Except.error.inj h).symm
  · exact Or.inr (Except.error.inj h).symm
  · exact Or.inr (Except.error.inj h).symm

/-- Where the rest of a text starts that comes after a part of it. -/
lemma drop_add_length (hs : s.drop position = a ++ b) : s.drop (position + a.length) = b := by
  rw [← List.drop_drop, hs, List.drop_left]

/-- A position with a rest is inside the text. -/
lemma le_length_of_drop (hs : s.drop position = a) (ha : a ≠ []) : position ≤ s.length := by
  by_contra hlt
  rw [List.drop_eq_nil_of_le (Nat.le_of_not_le hlt)] at hs
  exact ha hs.symm

end StdString

/-! ## Segments -/

namespace List

variable {α : Type*} {sep : α} {seg seg' : List α} {pre rest segs : List (List α)} {xs : List α}
  {terminated : Bool}

/-- What comes before and after the first occurrence of `sep`, if there is one. -/
def splitFirst [DecidableEq α] (sep : α) (xs : List α) : Option (List α × List α) :=
  match xs.span (· ≠ sep) with
  | (_, []) => none
  | (before, _ :: after) => some (before, after)

lemma splitFirst_append [DecidableEq α] {a b : List α} (ha : sep ∉ a) :
    splitFirst sep (a ++ sep :: b) = some (a, b) := by
  have hbefore : ∀ x ∈ a, decide (x ≠ sep) = true := by
    intro x hx
    exact decide_eq_true fun h => ha (h ▸ hx)
  rw [splitFirst, span_eq_takeWhile_dropWhile, takeWhile_append_of_pos hbefore,
    dropWhile_append_of_pos hbefore]
  simp only [takeWhile_cons, dropWhile_cons, ne_eq, not_true_eq_false, decide_false,
    Bool.false_eq_true, if_false, append_nil]

lemma splitFirst_eq_none [DecidableEq α] (h : sep ∉ xs) : splitFirst sep xs = none := by
  have hall : ∀ x ∈ xs, decide (x ≠ sep) = true := by
    intro x hx
    exact decide_eq_true fun heq => h (heq ▸ hx)
  rw [splitFirst, span_eq_takeWhile_dropWhile, dropWhile_eq_nil_iff.mpr hall]

/-- A sequence with the separator is what comes before and after its first occurrence. -/
lemma exists_splitFirst [DecidableEq α] (h : sep ∈ xs) :
    ∃ a b, xs = a ++ sep :: b ∧ sep ∉ a ∧ splitFirst sep xs = some (a, b) := by
  obtain ⟨a, b, rfl, ha⟩ := eq_append_cons_of_mem h
  exact ⟨a, b, rfl, ha, splitFirst_append ha⟩

/-- The segments `segs` with `sep` between them and, when `terminated`, also at the end. -/
def joined (sep : α) (segs : List (List α)) (terminated : Bool) : List α :=
  [sep].intercalate segs ++ if terminated then [sep] else []

lemma joined_cons_cons :
    joined sep (seg :: seg' :: rest) terminated =
      seg ++ sep :: joined sep (seg' :: rest) terminated := by
  simp only [joined, intercalate_cons_cons, append_assoc, cons_append, nil_append]

lemma joined_singleton :
    joined sep [seg] terminated = seg ++ if terminated then [sep] else [] := by
  simp only [joined, intercalate_singleton]

/-- Segments joined start with the first one, and the separator comes next, if anything does. -/
lemma exists_joined_cons (sep : α) (seg : List α) (rest : List (List α)) (terminated : Bool) :
    ∃ after, joined sep (seg :: rest) terminated = seg ++ after ∧
      (after = [] ∨ ∃ tail, after = sep :: tail) := by
  cases rest with
  | nil =>
    refine ⟨_, joined_singleton, ?_⟩
    cases terminated
    · exact Or.inl rfl
    · exact Or.inr ⟨[], rfl⟩
  | cons seg' rest => exact ⟨_, joined_cons_cons, Or.inr ⟨_, rfl⟩⟩

/-- What segments joined consist of. -/
lemma mem_of_mem_joined {x : α} (hx : x ∈ joined sep segs terminated) :
    x = sep ∨ ∃ seg ∈ segs, x ∈ seg := by
  induction segs with
  | nil =>
    cases terminated
    · cases hx
    · exact Or.inl (mem_singleton.mp hx)
  | cons seg rest ih =>
    cases rest with
    | nil =>
      rw [joined_singleton] at hx
      rcases mem_append.mp hx with hx | hx
      · exact Or.inr ⟨seg, mem_cons_self, hx⟩
      · cases terminated
        · cases hx
        · exact Or.inl (mem_singleton.mp hx)
    | cons seg' rest =>
      rw [joined_cons_cons] at hx
      rcases mem_append.mp hx with hx | hx
      · exact Or.inr ⟨seg, mem_cons_self, hx⟩
      · rcases mem_cons.mp hx with rfl | hx
        · exact Or.inl rfl
        · rcases ih hx with h | ⟨s, hs, h⟩
          · exact Or.inl h
          · exact Or.inr ⟨s, mem_cons_of_mem _ hs, h⟩

/-- What a segment consists of is in the segments joined. -/
lemma mem_joined_of_mem {x : α} (hseg : seg ∈ segs) (hx : x ∈ seg) :
    x ∈ joined sep segs terminated := by
  induction segs with
  | nil => cases hseg
  | cons first rest ih =>
    rcases mem_cons.mp hseg with rfl | hseg
    · obtain ⟨after, heq, -⟩ := exists_joined_cons sep seg rest terminated
      rw [heq]
      exact mem_append_left _ hx
    · cases rest with
      | nil => cases hseg
      | cons seg' rest =>
        rw [joined_cons_cons]
        exact mem_append_right _ (mem_cons_of_mem _ (ih hseg))

/-- A separator at the end and one more, empty segment are the same. -/
lemma joined_concat_nil (hne : segs ≠ []) :
    joined sep (segs ++ [[]]) false = joined sep segs true := by
  induction segs with
  | nil => exact absurd rfl hne
  | cons seg rest ih =>
    cases rest with
    | nil =>
      rw [singleton_append, joined_cons_cons, joined_singleton, joined_singleton]
      rfl
    | cons seg' rest =>
      rw [cons_append, cons_append, joined_cons_cons, ← cons_append, ih (cons_ne_nil _ _),
        joined_cons_cons]

/-- Only a single empty segment is joined to nothing. -/
lemma eq_of_joined_eq_nil (hne : segs ≠ []) (h : joined sep segs terminated = []) :
    segs = [[]] ∧ terminated = false := by
  cases segs with
  | nil => exact absurd rfl hne
  | cons seg rest =>
    cases rest with
    | nil =>
      rw [joined_singleton, append_eq_nil_iff] at h
      obtain ⟨rfl, hend⟩ := h
      cases terminated
      · exact ⟨rfl, rfl⟩
      · cases hend
    | cons seg' rest =>
      rw [joined_cons_cons, append_eq_nil_iff] at h
      cases h.2

/-- There are not many more segments than elements. -/
lemma length_le_length_joined :
    segs.length ≤ (joined sep segs terminated).length + 1 := by
  induction segs with
  | nil => exact Nat.zero_le _
  | cons seg rest ih =>
    cases rest with
    | nil => exact Nat.le_add_left _ _
    | cons seg' rest =>
      rw [joined_cons_cons]
      simp only [length_append, length_cons] at ih ⊢
      omega

section

variable [DecidableEq α]

/-- Does the sequence end with a separator? -/
def endsWithSep (sep : α) (xs : List α) : Bool :=
  (xs.splitOn sep).getLast? = some [] ∧ 1 < (xs.splitOn sep).length

/-- The segments of a sequence: what comes before, between and after the separators. A separator at
the end does not start one more segment. -/
def segments (sep : α) (xs : List α) : List (List α) :=
  if endsWithSep sep xs then (xs.splitOn sep).dropLast else xs.splitOn sep

/-- The separator is in no part between separators. -/
lemma not_mem_of_mem_splitOn (hseg : seg ∈ xs.splitOn sep) : sep ∉ seg := by
  induction xs generalizing seg with
  | nil =>
    rw [splitOn_nil, mem_singleton] at hseg
    rw [hseg]
    exact not_mem_nil
  | cons x xs ih =>
    rw [splitOn, splitOnP_cons_eq_if_modifyHead, ← splitOn] at hseg
    by_cases hx : x = sep
    · rw [if_pos (beq_iff_eq.mpr hx)] at hseg
      rcases mem_cons.mp hseg with rfl | hseg
      · exact not_mem_nil
      · exact ih hseg
    · rw [if_neg (fun h => hx (beq_iff_eq.mp h))] at hseg
      cases hparts : xs.splitOn sep with
      | nil => rw [hparts] at hseg; cases hseg
      | cons part parts =>
        rw [hparts, modifyHead_cons] at hseg
        rw [hparts] at ih
        rcases mem_cons.mp hseg with rfl | hseg
        · rw [mem_cons, not_or]
          exact ⟨Ne.symm hx, ih mem_cons_self⟩
        · exact ih (mem_cons_of_mem _ hseg)

/-- A sequence is its segments joined. -/
theorem joined_segments (sep : α) (xs : List α) :
    joined sep (segments sep xs) (endsWithSep sep xs) = xs := by
  have hparts : joined sep (xs.splitOn sep) false = xs := by
    rw [joined, intercalate_splitOn]
    exact append_nil xs
  rw [segments]
  by_cases hend : endsWithSep sep xs = true
  · obtain ⟨hlast, hlength⟩ := of_decide_eq_true hend
    have hconcat : (xs.splitOn sep).dropLast ++ [[]] = xs.splitOn sep :=
      dropLast_append_getLast? [] hlast
    have hne : (xs.splitOn sep).dropLast ≠ [] := by
      intro hnil
      rw [← hconcat, hnil] at hlength
      exact absurd hlength (Nat.lt_irrefl 1)
    rw [if_pos hend, hend, ← joined_concat_nil hne, hconcat]
    exact hparts
  · rw [if_neg hend, Bool.eq_false_iff.mpr hend]
    exact hparts

/-- After the first segments there is something left, unless there are no more segments. -/
lemma joined_ne_nil_of_segments_eq (hsegs : segments sep xs = pre ++ rest) (hpre : pre ≠ [])
    (hrest : rest ≠ []) : joined sep rest (endsWithSep sep xs) ≠ [] := by
  intro hnil
  obtain ⟨rfl, hend⟩ := eq_of_joined_eq_nil hrest hnil
  rw [segments, hend, if_neg Bool.false_ne_true] at hsegs
  rw [endsWithSep, decide_eq_false_iff_not, hsegs] at hend
  refine hend ⟨getLast?_concat, ?_⟩
  rw [length_append, length_singleton]
  exact Nat.lt_add_of_pos_left (length_pos_of_ne_nil hpre)

/-- The separator is in no segment. -/
lemma not_mem_of_mem_segments (hseg : seg ∈ segments sep xs) : sep ∉ seg := by
  rw [segments] at hseg
  split at hseg
  · exact not_mem_of_mem_splitOn (dropLast_subset _ hseg)
  · exact not_mem_of_mem_splitOn hseg

end

end List
