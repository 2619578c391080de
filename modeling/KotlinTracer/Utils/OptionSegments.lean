import KotlinTracer.Utils.ArgsParser

set_option relaxedAutoImplicit false
set_option autoImplicit false

/-!
# Options without a value

What the parser of the options does with a segment that has no `=`. The search for the next `=` does
not stop at the end of the segment: a `=` of a later segment is taken for it. The key is then
everything before that `=`, and the length of the value, a difference of positions that is below
zero, becomes the length of the rest of the text.

## Main definitions

* `KotlinTracer.ArgsParser.SegmentsChecked` — every segment is checked for its own `=`: options are
  accepted only if all of their segments have one, options with a segment without one are rejected
  with the error for that, and no iteration takes a value outside its segment.
* `KotlinTracer.ArgsParser.RejectedInTime` — after the first segment without a `=` there is none,
  and what comes before it is accepted.

## Main results

* `KotlinTracer.ArgsParser.segmentsChecked_iff` — the segments are checked if and only if all of
  them have a `=` or the options are rejected in time.
* `KotlinTracer.ArgsParser.parseProfilerOptions_borrowed` — options that are accepted with a segment
  without a `=`.
-/

namespace KotlinTracer

namespace ArgsParser

open StdString

variable {options currentPath : List Char} {pos : ℕ} {segs tail : List (List Char)}
  {terminated : Bool} {settings : Settings} {pair : List Char × List Char}
  {pairs : List (List Char × List Char)} {state : ParserState}

/-! ## Which pairs are accepted -/

/-- The value of a pair is accepted: a method has a dot, a number can be read. -/
def OptionAccepted (pair : List Char × List Char) : Prop :=
  match OptionKey.ofName pair.1 with
  | some .method => '.' ∈ pair.2
  | some .period => (stoi pair.2).isOk
  | some .threshold => (stoi pair.2).isOk
  | _ => True

instance (pair : List Char × List Char) : Decidable (OptionAccepted pair) := by
  unfold OptionAccepted
  split <;> infer_instance

/-- The error for options without a `=` is not one of those for a value. -/
def IsValueError (exception : StdException) : Prop :=
  ∀ options, exception ≠ incorrectOptions options

lemma isValueError_incorrectMethod (option : List Char) :
    IsValueError (incorrectMethod option) := by
  intro options h
  have htexts := StdException.runtimeError.inj h
  simp at htexts

lemma isValueError_stoi {s : List Char} {exception : StdException}
    (h : stoi s = .error exception) : IsValueError exception := by
  intro options
  rcases of_stoi_eq_error h with rfl | rfl
  · exact StdException.noConfusion
  · exact StdException.noConfusion

/-- A pair that is accepted sets something. -/
lemma exists_referenceStep_eq_ok (settings : Settings) (h : OptionAccepted pair) :
    ∃ settings', referenceStep settings pair = .ok settings' := by
  rw [OptionAccepted] at h
  rw [referenceStep]
  cases hkey : OptionKey.ofName pair.1 with
  | none => exact ⟨_, rfl⟩
  | some key =>
    rw [hkey] at h
    cases key with
    | method =>
      obtain ⟨a, b, -, -, hsplit⟩ := List.exists_splitFirst h
      dsimp only
      rw [hsplit]
      exact ⟨_, rfl⟩
    | period | threshold =>
      dsimp only
      cases hstoi : stoi pair.2 with
      | error exception => rw [hstoi] at h; cases h
      | ok value => exact ⟨_, rfl⟩
    | jarPath | outputPath => exact ⟨_, rfl⟩

/-- A pair that is not accepted fails with the error for its value. -/
lemma exists_referenceStep_eq_error (settings : Settings) (h : ¬ OptionAccepted pair) :
    ∃ exception, referenceStep settings pair = .error exception ∧ IsValueError exception := by
  rw [OptionAccepted] at h
  rw [referenceStep]
  cases hkey : OptionKey.ofName pair.1 with
  | none => rw [hkey] at h; exact absurd trivial h
  | some key =>
    rw [hkey] at h
    cases key with
    | method =>
      dsimp only
      rw [List.splitFirst_eq_none h]
      exact ⟨_, rfl, isValueError_incorrectMethod _⟩
    | period | threshold =>
      dsimp only
      cases hstoi : stoi pair.2 with
      | error exception => exact ⟨exception, rfl, isValueError_stoi hstoi⟩
      | ok value => rw [hstoi] at h; exact absurd rfl h
    | jarPath | outputPath => exact absurd trivial h

/-- Pairs that are all accepted are read. -/
lemma exists_foldlM_eq_ok (settings : Settings) (h : ∀ pair ∈ pairs, OptionAccepted pair) :
    ∃ settings', pairs.foldlM referenceStep settings = .ok settings' := by
  induction pairs generalizing settings with
  | nil => exact ⟨settings, rfl⟩
  | cons pair pairs ih =>
    obtain ⟨next, hstep⟩ := exists_referenceStep_eq_ok settings (h pair List.mem_cons_self)
    rw [List.foldlM_cons, hstep]
    exact ih next fun p hp => h p (List.mem_cons_of_mem _ hp)

/-- Pairs that are not all accepted fail with the error for a value. -/
lemma exists_foldlM_eq_error (settings : Settings) (h : ¬ ∀ pair ∈ pairs, OptionAccepted pair) :
    ∃ exception, pairs.foldlM referenceStep settings = .error exception ∧
      IsValueError exception := by
  induction pairs generalizing settings with
  | nil => exact absurd (fun _ hp => absurd hp List.not_mem_nil) h
  | cons pair pairs ih =>
    rw [List.foldlM_cons]
    by_cases hpair : OptionAccepted pair
    · obtain ⟨next, hstep⟩ := exists_referenceStep_eq_ok settings hpair
      rw [hstep]
      refine ih next fun hall => h fun p hp => ?_
      rcases List.mem_cons.mp hp with rfl | hp
      · exact hpair
      · exact hall p hp
    · obtain ⟨exception, hstep, hvalue⟩ := exists_referenceStep_eq_error settings hpair
      rw [hstep]
      exact ⟨exception, rfl, hvalue⟩

/-! ## Segments with and without a `=` -/

/-- Segments that all have a `=` are the segments of pairs. -/
lemma exists_pairs (h : ∀ seg ∈ segs, '=' ∈ seg) :
    ∃ pairs : List (List Char × List Char), segs = pairs.map pairSegment ∧
      ∀ pair ∈ pairs, '=' ∉ pair.1 := by
  induction segs with
  | nil => exact ⟨[], rfl, fun _ hp => absurd hp List.not_mem_nil⟩
  | cons seg segs ih =>
    obtain ⟨pairs, rfl, hkeys⟩ := ih fun s hs => h s (List.mem_cons_of_mem _ hs)
    obtain ⟨key, value, rfl, hkey, -⟩ := List.exists_splitFirst (h seg List.mem_cons_self)
    refine ⟨(key, value) :: pairs, rfl, fun pair hpair => ?_⟩
    rcases List.mem_cons.mp hpair with rfl | hpair
    · exact hkey
    · exact hkeys pair hpair

/-- A text is at its segments. -/
lemma atSegments_segments (options : List Char) :
    AtSegments options 0 (List.segments ',' options) (List.endsWithSep ',' options) where
  inside := Nat.zero_le _
  drop_eq := List.drop_zero.trans (List.joined_segments ',' options).symm
  noComma := fun _ hseg => List.not_mem_of_mem_segments hseg
  more := fun _ _ hsplit hpre hrest => List.joined_ne_nil_of_segments_eq hsplit hpre hrest

/-- There is no `=` where no segment has one. -/
lemma AtSegments.find_eq_none (h : AtSegments options pos segs terminated)
    (hsegs : ∀ seg ∈ segs, '=' ∉ seg) : find options '=' pos = none := by
  rw [find_eq_none_iff, h.drop_eq]
  intro hmem
  rcases List.mem_of_mem_joined hmem with hcomma | ⟨seg, hseg, hmem⟩
  · exact absurd hcomma (by decide)
  · exact hsegs seg hseg hmem

/-- The value of a pair is in its segment. -/
lemma AtSegments.find_lt (h : AtSegments options pos (pairSegment pair :: tail) terminated)
    (hkey : '=' ∉ pair.1) {keyValueDelimiter : ℕ}
    (hfind : find options '=' pos = some keyValueDelimiter) :
    keyValueDelimiter < delimiterPosition options pos := by
  obtain ⟨after, heq, -⟩ := List.exists_joined_cons ',' (pairSegment pair) tail terminated
  have hdrop : options.drop pos = pair.1 ++ '=' :: (pair.2 ++ after) := by
    rw [h.drop_eq, heq, pairSegment, List.append_assoc, List.cons_append]
  rw [find_append hdrop hkey, Option.some.injEq] at hfind
  rw [h.delimiterPosition_eq, ← hfind, pairSegment, List.length_append, List.length_cons]
  omega

/-- A segment without a `=` borrows the next one: the `=` that is found is not before the end of the
segment. -/
lemma AtSegments.exists_find_ge {bad : List Char}
    (h : AtSegments options pos (bad :: tail) terminated) (hbad : '=' ∉ bad) {seg : List Char}
    (hseg : seg ∈ tail) (hmem : '=' ∈ seg) :
    ∃ keyValueDelimiter, find options '=' pos = some keyValueDelimiter ∧
      delimiterPosition options pos ≤ keyValueDelimiter := by
  obtain ⟨after, heq, -⟩ := List.exists_joined_cons ',' bad tail terminated
  have hdrop : options.drop pos = bad ++ after := h.drop_eq.trans heq
  have hafter : '=' ∈ after := by
    have hjoined : '=' ∈ List.joined ',' (bad :: tail) terminated :=
      List.mem_joined_of_mem (List.mem_cons_of_mem _ hseg) hmem
    rw [heq] at hjoined
    exact (List.mem_append.mp hjoined).resolve_left hbad
  obtain ⟨a, b, rfl, ha, -⟩ := List.exists_splitFirst hafter
  rw [← List.append_assoc] at hdrop
  have hnot : '=' ∉ bad ++ a := by
    rw [List.mem_append, not_or]
    exact ⟨hbad, ha⟩
  refine ⟨_, find_append hdrop hnot, ?_⟩
  rw [h.delimiterPosition_eq, List.length_append]
  omega

/-- An iteration without a `=` in front of it throws. -/
lemma body_of_find_eq_none (h : find options '=' pos = none) :
    parserBody options ⟨pos, settings, none⟩ =
      some (.done ⟨pos, settings, some (incorrectOptions options)⟩) := by
  rw [parserBody, iteration, h]

/-! ## When the segments are checked -/

/-- In no iteration is the `=` that is found after the end of the segment, so that the length of the
value is not below zero. -/
def ValuesInside (options : List Char) : Prop :=
  ∀ state, Loop.Visits (parserBody options) {} state → ∀ keyValueDelimiter,
    find options '=' state.currentPosition = some keyValueDelimiter →
      keyValueDelimiter < delimiterPosition options state.currentPosition

/-- Every segment is checked for its own `=`. -/
structure SegmentsChecked (currentPath options : List Char) : Prop where
  of_accepted : ∀ profilerOptions,
    parseProfilerOptions currentPath options = some (.ok profilerOptions) →
      ∀ seg ∈ List.segments ',' options, '=' ∈ seg
  rejected : (∃ seg ∈ List.segments ',' options, '=' ∉ seg) →
    parseProfilerOptions currentPath options = some (.error (incorrectOptions options))
  valuesInside : ValuesInside options

/-- From the first segment without a `=` on there is none, and before it are pairs that are
accepted. -/
def RejectedInTime (segs : List (List Char)) : Prop :=
  ∃ (pairs : List (List Char × List Char)) (tail : List (List Char)),
    segs = pairs.map pairSegment ++ tail ∧ tail ≠ [] ∧
      (∀ pair ∈ pairs, '=' ∉ pair.1 ∧ OptionAccepted pair) ∧ ∀ seg ∈ tail, '=' ∉ seg

/-- The loop visits only segments of pairs and what comes after them. -/
lemma atSegments_of_visits (h : AtSegments options 0 (pairs.map pairSegment ++ tail) terminated)
    (hkeys : ∀ pair ∈ pairs, '=' ∉ pair.1) (htail : ∀ seg ∈ tail, '=' ∉ seg)
    (hvisits : Loop.Visits (parserBody options) {} state) :
    state.thrown = none ∧ ∃ pairs : List (List Char × List Char), (∀ pair ∈ pairs, '=' ∉ pair.1) ∧
      AtSegments options state.currentPosition (pairs.map pairSegment ++ tail) terminated := by
  refine Loop.Visits.invariant (I := fun state => state.thrown = none ∧
    ∃ pairs : List (List Char × List Char), (∀ pair ∈ pairs, '=' ∉ pair.1) ∧
      AtSegments options state.currentPosition (pairs.map pairSegment ++ tail) terminated) ?_
    ⟨rfl, pairs, hkeys, h⟩ hvisits
  rintro ⟨pos, settings, thrown⟩ state' ⟨hthrown, pairs, hkeys, hat⟩ hbody
  obtain rfl : thrown = none := hthrown
  cases pairs with
  | nil =>
    rw [body_of_find_eq_none (hat.find_eq_none htail)] at hbody
    cases hbody
  | cons pair pairs =>
    rw [List.map_cons, List.cons_append] at hat
    have hkey : '=' ∉ pair.1 := hkeys pair List.mem_cons_self
    cases hstep : referenceStep settings pair with
    | error exception => rw [body_of_pair_error hat hkey hstep] at hbody; cases hbody
    | ok next =>
      by_cases hmore : pairs.map pairSegment ++ tail = []
      · rw [hmore] at hat
        rw [body_of_last_pair hat hkey hstep] at hbody
        cases hbody
      · rw [body_of_pair hat hkey hmore hstep] at hbody
        cases hbody
        exact ⟨rfl, pairs, fun p hp => hkeys p (List.mem_cons_of_mem _ hp), hat.tail hmore⟩

/-- Values are inside their segments if no segment without a `=` comes before one with. -/
lemma valuesInside_of_pairs (h : AtSegments options 0 (pairs.map pairSegment ++ tail) terminated)
    (hkeys : ∀ pair ∈ pairs, '=' ∉ pair.1) (htail : ∀ seg ∈ tail, '=' ∉ seg) :
    ValuesInside options := by
  intro state hvisits keyValueDelimiter hfind
  obtain ⟨-, pairs, hkeys, hat⟩ := atSegments_of_visits h hkeys htail hvisits
  cases pairs with
  | nil =>
    rw [hat.find_eq_none htail] at hfind
    cases hfind
  | cons pair pairs =>
    rw [List.map_cons, List.cons_append] at hat
    exact hat.find_lt (hkeys pair List.mem_cons_self) hfind

/-- What the parser throws if the loop is left by an exception. -/
lemma parseProfilerOptions_of_thrown {exception : StdException}
    (hrun : Loop.run (parserBody options) (options.length + 1) {} = some state)
    (hthrown : state.thrown = some exception) :
    parseProfilerOptions currentPath options = some (.error exception) := by
  rw [parseProfilerOptions, hrun, Option.map_some, ParserState.result, hthrown]
  rfl

/-- The loop may make an iteration for every segment. -/
lemma exists_fuel (hsegs : List.segments ',' options = pairs.map pairSegment ++ tail)
    (htail : tail ≠ []) : ∃ n, options.length + 1 = pairs.length + (n + 1) := by
  have hlength : (List.segments ',' options).length ≤ options.length + 1 := by
    have hle : (List.segments ',' options).length ≤ (List.joined ',' (List.segments ',' options)
        (List.endsWithSep ',' options)).length + 1 := List.length_le_length_joined
    rwa [List.joined_segments] at hle
  rw [hsegs, List.length_append, List.length_map] at hlength
  have hpos := List.length_pos_of_ne_nil htail
  exact ⟨options.length - pairs.length, by omega⟩

/-- Options that are rejected in time are rejected with the error for it. -/
lemma parseProfilerOptions_of_rejectedInTime (currentPath : List Char)
    (hsegs : List.segments ',' options = pairs.map pairSegment ++ tail) (hne : tail ≠ [])
    (hpairs : ∀ pair ∈ pairs, '=' ∉ pair.1 ∧ OptionAccepted pair)
    (htail : ∀ seg ∈ tail, '=' ∉ seg) :
    parseProfilerOptions currentPath options = some (.error (incorrectOptions options)) := by
  have hat := atSegments_segments options
  rw [hsegs] at hat
  obtain ⟨settings, hfold⟩ := exists_foldlM_eq_ok {} fun pair hpair => (hpairs pair hpair).2
  obtain ⟨pos, hat', -, hrun⟩ :=
    visits_pairs hne hat (fun pair hpair => (hpairs pair hpair).1) hfold
  obtain ⟨n, hn⟩ := exists_fuel hsegs hne
  have hfinal : Loop.run (parserBody options) (options.length + 1) {} =
      some ⟨pos, settings, some (incorrectOptions options)⟩ := by
    rw [hn]
    exact (hrun (n + 1)).trans
      (Loop.run_of_done (body_of_find_eq_none (hat'.find_eq_none htail)))
  exact parseProfilerOptions_of_thrown hfinal rfl

/-- If a pair before the first segment without a `=` is not accepted, its error comes first. -/
lemma exists_parseProfilerOptions_eq_error (currentPath : List Char)
    (hsegs : List.segments ',' options = pairs.map pairSegment ++ tail) (hne : tail ≠ [])
    (hkeys : ∀ pair ∈ pairs, '=' ∉ pair.1) (hpairs : ¬ ∀ pair ∈ pairs, OptionAccepted pair) :
    ∃ exception, parseProfilerOptions currentPath options = some (.error exception) ∧
      IsValueError exception := by
  have hat := atSegments_segments options
  rw [hsegs] at hat
  obtain ⟨exception, hfold, hvalue⟩ := exists_foldlM_eq_error {} hpairs
  obtain ⟨state, hthrown, hrun⟩ := run_pairs_error hat hkeys hfold
  obtain ⟨n, hn⟩ := exists_fuel hsegs hne
  refine ⟨exception, parseProfilerOptions_of_thrown ?_ hthrown, hvalue⟩
  rw [hn]
  exact hrun (n + 1)

/-- If a `=` comes after a segment without one, an iteration takes a value outside its segment. -/
lemma not_valuesInside {bad : List Char}
    (hsegs : List.segments ',' options = pairs.map pairSegment ++ bad :: tail)
    (hpairs : ∀ pair ∈ pairs, '=' ∉ pair.1 ∧ OptionAccepted pair) (hbad : '=' ∉ bad)
    {seg : List Char} (hseg : seg ∈ tail) (hmem : '=' ∈ seg) :
    ¬ ValuesInside options := by
  have hat := atSegments_segments options
  rw [hsegs] at hat
  obtain ⟨settings, hfold⟩ := exists_foldlM_eq_ok {} fun pair hpair => (hpairs pair hpair).2
  obtain ⟨pos, hat', hvisits, -⟩ :=
    visits_pairs (List.cons_ne_nil _ _) hat (fun pair hpair => (hpairs pair hpair).1) hfold
  obtain ⟨keyValueDelimiter, hfind, hge⟩ := hat'.exists_find_ge hbad hseg hmem
  intro hinside
  exact absurd (hinside _ hvisits keyValueDelimiter hfind) (Nat.not_lt.mpr hge)

/-- Segments that do not all have a `=` are pairs and then one without. -/
lemma exists_first_bad (h : ¬ ∀ seg ∈ segs, '=' ∈ seg) :
    ∃ (pairs : List (List Char × List Char)) (bad : List Char) (tail : List (List Char)),
      segs = pairs.map pairSegment ++ bad :: tail ∧ (∀ pair ∈ pairs, '=' ∉ pair.1) ∧
        '=' ∉ bad := by
  cases hfind : segs.find? (fun seg => decide ('=' ∉ seg)) with
  | none =>
    refine absurd (fun seg hseg => ?_) h
    simpa using List.find?_eq_none.mp hfind seg hseg
  | some bad =>
    obtain ⟨hbad, before, tail, rfl, hbefore⟩ := List.find?_eq_some_iff_append.mp hfind
    have hequals : ∀ seg ∈ before, '=' ∈ seg := by
      intro seg hseg
      simpa using hbefore seg hseg
    obtain ⟨pairs, rfl, hkeys⟩ := exists_pairs hequals
    exact ⟨pairs, bad, tail, rfl, hkeys, of_decide_eq_true hbad⟩

/-- **Which options are checked.** Every segment is checked for its own `=` if and only if all
segments have one, or there is none from the first segment without one on and the pairs before it
are accepted.

**Proof sketch.** If all segments have a `=`, or from some point on none has, then no iteration
finds a `=` after its segment, and the first iteration that finds none throws the error. Otherwise
consider the first segment without a `=`. If a pair before it is not accepted, the options are
rejected, but with the error for the value of that pair. If all are accepted, the loop comes to the
segment and finds the `=` of a later one. -/
theorem segmentsChecked_iff (currentPath options : List Char) :
    SegmentsChecked currentPath options ↔
      (∀ seg ∈ List.segments ',' options, '=' ∈ seg) ∨
        RejectedInTime (List.segments ',' options) := by
  constructor
  · intro h
    by_contra hcond
    obtain ⟨hsome, hlate⟩ := not_or.mp hcond
    obtain ⟨pairs, bad, tail, hsegs, hkeys, hbad⟩ := exists_first_bad hsome
    have hrejected := h.rejected ⟨bad, by rw [hsegs]; simp, hbad⟩
    by_cases haccepted : ∀ pair ∈ pairs, OptionAccepted pair
    · by_cases htail : ∀ seg ∈ tail, '=' ∉ seg
      · refine hlate ⟨pairs, bad :: tail, hsegs, List.cons_ne_nil _ _,
          fun pair hpair => ⟨hkeys pair hpair, haccepted pair hpair⟩, fun seg hseg => ?_⟩
        rcases List.mem_cons.mp hseg with rfl | hseg
        · exact hbad
        · exact htail seg hseg
      · push Not at htail
        obtain ⟨seg, hseg, hmem⟩ := htail
        exact not_valuesInside hsegs
          (fun pair hpair => ⟨hkeys pair hpair, haccepted pair hpair⟩) hbad hseg hmem h.valuesInside
    · obtain ⟨exception, herror, hvalue⟩ := exists_parseProfilerOptions_eq_error currentPath hsegs
        (List.cons_ne_nil _ _) hkeys haccepted
      rw [herror] at hrejected
      exact hvalue options (Except.error.inj (Option.some.inj hrejected))
  · have hat := atSegments_segments options
    rintro (hall | ⟨pairs, tail, hsegs, hne, hpairs, htail⟩)
    · obtain ⟨pairs, hsegs, hkeys⟩ := exists_pairs hall
      rw [hsegs, ← List.append_nil (pairs.map pairSegment)] at hat
      exact
        { of_accepted := fun _ _ => hall
          rejected := fun ⟨seg, hseg, hnot⟩ => absurd (hall seg hseg) hnot
          valuesInside :=
            valuesInside_of_pairs hat hkeys fun _ hseg => absurd hseg List.not_mem_nil }
    · have herror := parseProfilerOptions_of_rejectedInTime currentPath hsegs hne hpairs htail
      rw [hsegs] at hat
      refine
        { of_accepted := fun profilerOptions haccepted => ?_
          rejected := fun _ => herror
          valuesInside :=
            valuesInside_of_pairs hat (fun pair hpair => (hpairs pair hpair).1) htail }
      rw [herror] at haccepted
      cases haccepted

/-- The options `abc,method=a.b` are accepted: the key of the first iteration is `abc,method`, which
is ignored. -/
theorem parseProfilerOptions_borrowed :
    List.segments ',' "abc,method=a.b".toList = ["abc".toList, "method=a.b".toList] ∧
      parseProfilerOptions "/home".toList "abc,method=a.b".toList =
        some (.ok
          { className := some "a".toList
            methodName := some "b".toList
            profilingPeriod := 1000000
            threshold := 0
            jarPath := none
            outputPath := some "/home".toList }) ∧
      ¬ SegmentsChecked "/home".toList "abc,method=a.b".toList := by
  have hsegs : List.segments ',' "abc,method=a.b".toList = ["abc".toList, "method=a.b".toList] := by
    decide
  have hparse : parseProfilerOptions "/home".toList "abc,method=a.b".toList =
      some (.ok
        { className := some "a".toList
          methodName := some "b".toList
          profilingPeriod := 1000000
          threshold := 0
          jarPath := none
          outputPath := some "/home".toList }) := by
    decide
  refine ⟨hsegs, hparse, fun h => ?_⟩
  have hall := h.of_accepted _ hparse
  rw [hsegs] at hall
  exact absurd (hall "abc".toList List.mem_cons_self) (by decide)

end ArgsParser

end KotlinTracer
