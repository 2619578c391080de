import KotlinTracer.Lib.Loop
import KotlinTracer.Lib.StdString

set_option relaxedAutoImplicit false
set_option autoImplicit false

/-!
# The options of the agent

The parser of `utils/argsParser.cpp`, which reads the options of the agent: pairs `key=value` with
commas between them. It works with positions in the whole text: in every iteration of its loop it
searches for the next comma and for the next `=`, independently of each other.

## Main definitions

* `KotlinTracer.ArgsParser.parseProfilerOptions` — the parser.
* `KotlinTracer.ArgsParser.referenceParse` — the reference parser: it goes through the pairs from
  left to right.

## Main results

* `KotlinTracer.ArgsParser.exists_parseProfilerOptions` — the parser returns or throws, for every
  text.
* `KotlinTracer.ArgsParser.iteration_of_pair` — an iteration at the segment of a pair sets the option
  of the pair.
* `KotlinTracer.ArgsParser.run_pairs` — the loop over a text of pairs is the fold over the pairs.
* `KotlinTracer.ArgsParser.parseProfilerOptions_joined` — on texts of pairs, the parser is the
  reference parser.

## Design

The loop is a `do … while` loop that an exception can leave; its state has the exception. The
default for the output path, the current directory, is a parameter. The periods are nanoseconds:
an `int`, or a million times an `int`, always fits.
-/

namespace KotlinTracer

/-- `ProfilerOptions`. -/
structure ProfilerOptions where
  className : Option (List Char)
  methodName : Option (List Char)
  profilingPeriod : ℤ
  threshold : ℤ
  jarPath : Option (List Char)
  outputPath : Option (List Char)
deriving DecidableEq

namespace ArgsParser

open StdString

/-! ## The parser -/

/-- The local variables of `parseProfilerOptions` that options set, with their initial values. -/
structure Settings where
  period : ℤ := 1000000
  threshold : ℤ := 0
  method : Option (List Char) := none
  klass : Option (List Char) := none
  jarPath : Option (List Char) := none
  outputPath : Option (List Char) := none
deriving DecidableEq

/-- The error for options without a `=`. -/
def incorrectOptions (options : List Char) : StdException :=
  .runtimeError ("Incorrect options provided: ".toList ++ options ++
    ". Use following syntax: method=x/y/z/Class.method,period=1000".toList)

/-- The error for a method without a class. -/
def incorrectMethod (option : List Char) : StdException :=
  .runtimeError ("Provided incorrect method: ".toList ++ option ++
    ". Use following syntax package/class.method".toList)

/-- The error for options that do not name a method. -/
def methodMissing : StdException :=
  .runtimeError ("Method name must be provided." ++
    "Use following syntax: method=x/y/z/Class.method,period=1000").toList

/-- `parseMethod`: the name of the class and of the method. -/
def parseMethod (option : List Char) : Except StdException (List Char × List Char) :=
  match find option '.' 0 with
  | none => .error (incorrectMethod option)
  | some methodDelimiter => do
    let className ← substr option 0 methodDelimiter
    let methodName ← substrFrom option (methodDelimiter + 1)
    return (className, methodName)

/-- `parsePeriod`. -/
def parsePeriod (option : List Char) : Except StdException ℤ :=
  stoi option

/-- `parseThreshold`: milliseconds, as nanoseconds. -/
def parseThreshold (option : List Char) : Except StdException ℤ :=
  (stoi option).map (· * 1000000)

/-- `parseJarPath`. -/
def parseJarPath (option : List Char) : List Char :=
  option

/-- `parseOutputPath`. -/
def parseOutputPath (option : List Char) : List Char :=
  option

/-- What an iteration does with the key and the value that it has taken. Unknown keys are ignored.
-/
def setOption (settings : Settings) (key value : List Char) : Except StdException Settings :=
  if key = "method".toList then
    (parseMethod value).map fun info =>
      { settings with method := some info.2, klass := some info.1 }
  else if key = "period".toList then
    (parsePeriod value).map fun period => { settings with period := period }
  else if key = "jarPath".toList then
    .ok { settings with jarPath := some (parseJarPath value) }
  else if key = "outputPath".toList then
    .ok { settings with outputPath := some (parseOutputPath value) }
  else if key = "threshold".toList then
    (parseThreshold value).map fun threshold => { settings with threshold := threshold }
  else
    .ok settings

/-- `delimiter_position`: the next comma, or the end of the text. -/
def delimiterPosition (options : List Char) (currentPosition : ℕ) : ℕ :=
  (find options ',' currentPosition).getD options.length

/-- One iteration: the position after the next comma and the settings after it. The lengths of the
key and of the value are differences of values of type `size_t`. -/
def iteration (options : List Char) (currentPosition : ℕ) (settings : Settings) :
    Except StdException (ℕ × Settings) :=
  let delimiter := delimiterPosition options currentPosition
  -- this search goes on behind the comma
  match find options '=' currentPosition with
  | none => .error (incorrectOptions options)
  | some keyValueDelimiter => do
    let key ← substr options currentPosition (sizeSub keyValueDelimiter currentPosition)
    let value ← substr options (keyValueDelimiter + 1)
      (sizeSub (sizeSub delimiter keyValueDelimiter) 1)
    let settings ← setOption settings key value
    return (delimiter + 1, settings)

/-- The state of the loop, and the exception that has left it. -/
structure ParserState where
  currentPosition : ℕ := 0
  settings : Settings := {}
  thrown : Option StdException := none
deriving DecidableEq

/-- What the loop ends with. -/
def ParserState.result (state : ParserState) : Except StdException Settings :=
  match state.thrown with
  | some exception => .error exception
  | none => .ok state.settings

/-- The body of the loop, with its condition at the end. -/
def parserBody (options : List Char) (state : ParserState) : Option (ForInStep ParserState) :=
  match iteration options state.currentPosition state.settings with
  | .error exception => some (.done { state with thrown := some exception })
  | .ok (position, settings) =>
    let next := { state with currentPosition := position, settings := settings }
    if position < options.length then some (.yield next) else some (.done next)

/-- What comes after the loop. -/
def buildOptions (currentPath : List Char) (settings : Settings) :
    Except StdException ProfilerOptions :=
  match settings.method with
  | none => .error methodMissing
  | some method =>
    .ok
      { className := settings.klass
        methodName := some method
        profilingPeriod := settings.period
        threshold := settings.threshold
        jarPath := settings.jarPath
        outputPath := some (settings.outputPath.getD currentPath) }

/-- `parseProfilerOptions`: what it returns or throws. Every iteration takes a character of the
text, so that their number is bounded. -/
def parseProfilerOptions (currentPath options : List Char) :
    Option (Except StdException ProfilerOptions) :=
  (Loop.run (parserBody options) (options.length + 1) {}).map fun state =>
    state.result.bind (buildOptions currentPath)

/-- An iteration goes on after the next comma, if it does not throw. -/
lemma currentPosition_of_iteration {options : List Char} {pos position : ℕ}
    {settings settings' : Settings}
    (h : iteration options pos settings = .ok (position, settings')) :
    position = delimiterPosition options pos + 1 := by
  rw [iteration] at h
  cases hfind : find options '=' pos with
  | none => rw [hfind] at h; cases h
  | some keyValue =>
    rw [hfind] at h
    dsimp only at h
    generalize substr options pos (sizeSub keyValue pos) = key at h
    generalize substr options (keyValue + 1) _ = value at h
    cases key with
    | error exception => cases h
    | ok key =>
      cases value with
      | error exception => cases h
      | ok value =>
        change (setOption settings key value).bind _ = _ at h
        cases hset : setOption settings key value with
        | error exception => rw [hset] at h; cases h
        | ok settings'' =>
          rw [hset] at h
          exact (congrArg Prod.fst (Except.ok.inj h)).symm

/-- The next comma, or the end, does not come before the position. -/
lemma le_delimiterPosition {options : List Char} {pos : ℕ} (hpos : pos ≤ options.length) :
    pos ≤ delimiterPosition options pos := by
  rw [delimiterPosition]
  cases hfind : find options ',' pos with
  | none => exact hpos
  | some delimiter => exact le_of_find_eq_some hfind

/-- **The parser ends.** For every text it returns or throws. -/
theorem exists_parseProfilerOptions (currentPath options : List Char) :
    ∃ result, parseProfilerOptions currentPath options = some result := by
  obtain ⟨state, hrun⟩ : ∃ state, Loop.run (parserBody options) (options.length + 1) {} =
      some state := by
    -- every iteration that goes on has moved the position, which stays in the text
    refine Loop.exists_run_of_measure (I := fun state => state.currentPosition ≤ options.length)
      (μ := fun state => options.length - state.currentPosition) ?_ (Nat.zero_le _)
      (Nat.lt_succ_self _)
    intro state hinside
    cases hiteration : iteration options state.currentPosition state.settings with
    | error exception => exact Or.inl ⟨_, by rw [parserBody, hiteration]⟩
    | ok next =>
      obtain ⟨position, settings⟩ := next
      have hmoved : position = delimiterPosition options state.currentPosition + 1 :=
        currentPosition_of_iteration hiteration
      have hle := le_delimiterPosition hinside
      by_cases hmore : position < options.length
      · have hbody : parserBody options state = some (.yield
            { state with currentPosition := position, settings := settings }) := by
          rw [parserBody, hiteration]
          exact if_pos hmore
        refine Or.inr ⟨_, hbody, Nat.le_of_lt hmore, ?_⟩
        dsimp only
        omega
      · exact Or.inl ⟨_, by rw [parserBody, hiteration]; exact if_neg hmore⟩
  exact ⟨_, by rw [parseProfilerOptions, hrun]; rfl⟩

/-! ## The reference parser -/

/-- The keys that the agent knows. -/
inductive OptionKey
  | method
  | period
  | jarPath
  | outputPath
  | threshold
deriving DecidableEq

/-- The key with the given name. -/
def OptionKey.ofName (name : List Char) : Option OptionKey :=
  if name = "method".toList then some method
  else if name = "period".toList then some period
  else if name = "jarPath".toList then some jarPath
  else if name = "outputPath".toList then some outputPath
  else if name = "threshold".toList then some threshold
  else none

/-- What one pair sets: a method is split at its first dot, numbers are read by `stoi`. -/
def referenceStep (settings : Settings) (pair : List Char × List Char) :
    Except StdException Settings :=
  match OptionKey.ofName pair.1 with
  | none => .ok settings
  | some .method =>
    match List.splitFirst '.' pair.2 with
    | none => .error (.runtimeError ("Provided incorrect method: ".toList ++ pair.2 ++
        ". Use following syntax package/class.method".toList))
    | some (klass, method) => .ok { settings with method := some method, klass := some klass }
  | some .period => (stoi pair.2).map fun n => { settings with period := n }
  | some .threshold => (stoi pair.2).map fun n => { settings with threshold := n * 1000000 }
  | some .jarPath => .ok { settings with jarPath := some pair.2 }
  | some .outputPath => .ok { settings with outputPath := some pair.2 }

/-- The reference parser: the pairs from left to right, a period of a millisecond and no threshold
if none is given, an error if there is no method, and the current directory if there is no output
path. -/
def referenceParse (currentPath : List Char) (pairs : List (List Char × List Char)) :
    Except StdException ProfilerOptions := do
  let given ← pairs.foldlM referenceStep ⟨1000000, 0, none, none, none, none⟩
  match given.method, given.outputPath with
  | none, _ => .error (.runtimeError ("Method name must be provided." ++
      "Use following syntax: method=x/y/z/Class.method,period=1000").toList)
  | some method, some outputPath =>
    .ok ⟨given.klass, some method, given.period, given.threshold, given.jarPath, some outputPath⟩
  | some method, none =>
    .ok ⟨given.klass, some method, given.period, given.threshold, given.jarPath, some currentPath⟩

/-- What comes after the loop is what comes after the pairs. -/
lemma referenceParse_eq (currentPath : List Char) (pairs : List (List Char × List Char)) :
    referenceParse currentPath pairs =
      (pairs.foldlM referenceStep {}).bind (buildOptions currentPath) := by
  refine congrArg (Except.bind (pairs.foldlM referenceStep {})) (funext fun given => ?_)
  obtain ⟨period, threshold, method, klass, jarPath, outputPath⟩ := given
  cases method <;> cases outputPath <;> rfl

/-- The text of a pair. -/
def pairSegment (pair : List Char × List Char) : List Char :=
  pair.1 ++ '=' :: pair.2

/-- `parseMethod` splits at the first dot. -/
lemma parseMethod_eq (option : List Char) :
    parseMethod option =
      match List.splitFirst '.' option with
      | none => .error (incorrectMethod option)
      | some info => .ok info := by
  by_cases hdot : '.' ∈ option
  · obtain ⟨a, b, rfl, ha, hsplit⟩ := List.exists_splitFirst hdot
    have hfind : find (a ++ '.' :: b) '.' 0 = some a.length := by
      rw [find_append (List.drop_zero) ha, Nat.zero_add]
    have hclass : substr (a ++ '.' :: b) 0 a.length = .ok a :=
      substr_append List.drop_zero (Nat.zero_le _)
    have hmethod : substrFrom (a ++ '.' :: b) (a.length + 1) = .ok b := by
      refine substrFrom_eq ?_ ?_
      · rw [← List.drop_drop, List.drop_left, List.drop_one, List.tail_cons]
      · simp only [List.length_append, List.length_cons]
        omega
    rw [parseMethod, hfind, hsplit]
    dsimp only
    rw [hclass, hmethod]
    rfl
  · rw [parseMethod, find_eq_none_iff.mpr (by rwa [List.drop_zero]),
      List.splitFirst_eq_none hdot]

/-- An iteration sets what the reference parser sets for the key and the value that it takes. -/
lemma setOption_eq (settings : Settings) (key value : List Char) :
    setOption settings key value = referenceStep settings (key, value) := by
  rw [setOption, referenceStep, OptionKey.ofName, parseMethod_eq, parsePeriod, parseThreshold,
    parseJarPath, parseOutputPath]
  dsimp only
  by_cases hmethod : key = "method".toList
  · rw [if_pos hmethod, if_pos hmethod]
    dsimp only
    cases List.splitFirst '.' value <;> rfl
  rw [if_neg hmethod, if_neg hmethod]
  by_cases hperiod : key = "period".toList
  · rw [if_pos hperiod, if_pos hperiod]
  rw [if_neg hperiod, if_neg hperiod]
  by_cases hjarPath : key = "jarPath".toList
  · rw [if_pos hjarPath, if_pos hjarPath]
  rw [if_neg hjarPath, if_neg hjarPath]
  by_cases houtputPath : key = "outputPath".toList
  · rw [if_pos houtputPath, if_pos houtputPath]
  rw [if_neg houtputPath, if_neg houtputPath]
  by_cases hthreshold : key = "threshold".toList
  · rw [if_pos hthreshold, if_pos hthreshold]
    cases stoi value <;> rfl
  · rw [if_neg hthreshold, if_neg hthreshold]

/-! ## Iterations over segments -/

section

variable {options : List Char} {pos : ℕ} {seg : List Char} {rest : List (List Char)}
  {terminated : Bool} {settings settings' : Settings} {pair : List Char × List Char}
  {pairs : List (List Char × List Char)} {exception : StdException} {n : ℕ}

/-- The text from `pos` on consists of the segments `segs`, and the loop has an iteration for every
one of them. -/
structure AtSegments (options : List Char) (pos : ℕ) (segs : List (List Char))
    (terminated : Bool) : Prop where
  inside : pos ≤ options.length
  drop_eq : options.drop pos = List.joined ',' segs terminated
  noComma : ∀ seg ∈ segs, ',' ∉ seg
  more : ∀ pre rest, segs = pre ++ rest → pre ≠ [] → rest ≠ [] →
    List.joined ',' rest terminated ≠ []

/-- The next comma ends the segment. -/
lemma AtSegments.delimiterPosition_eq (h : AtSegments options pos (seg :: rest) terminated) :
    delimiterPosition options pos = pos + seg.length := by
  have hcomma : ',' ∉ seg := h.noComma seg List.mem_cons_self
  obtain ⟨after, heq, hafter⟩ := List.exists_joined_cons ',' seg rest terminated
  have hdrop := h.drop_eq.trans heq
  rw [delimiterPosition]
  rcases hafter with rfl | ⟨tail, rfl⟩
  · have hnone : find options ',' pos = none := by
      rw [find_eq_none_iff, hdrop, List.append_nil]
      exact hcomma
    have hlength := congrArg List.length hdrop
    rw [List.length_drop, List.append_nil] at hlength
    have hinside := h.inside
    rw [hnone, Option.getD_none]
    omega
  · rw [find_append hdrop hcomma, Option.getD_some]

/-- After the comma come the other segments. -/
lemma AtSegments.tail (h : AtSegments options pos (seg :: rest) terminated) (hrest : rest ≠ []) :
    AtSegments options (pos + seg.length + 1) rest terminated := by
  obtain ⟨seg', rest', rfl⟩ := List.exists_cons_of_ne_nil hrest
  have hdrop := h.drop_eq
  rw [List.joined_cons_cons] at hdrop
  have hafter : options.drop (pos + seg.length + 1) =
      List.joined ',' (seg' :: rest') terminated := by
    rw [← List.drop_drop, drop_add_length hdrop, List.drop_one, List.tail_cons]
  refine ⟨?_, hafter, fun s hs => h.noComma s (List.mem_cons_of_mem _ hs), ?_⟩
  · exact le_length_of_drop hafter (h.more [seg] _ rfl (List.cons_ne_nil _ _) hrest)
  · intro pre rest hsplit hpre hne
    refine h.more (seg :: pre) rest ?_ (List.cons_ne_nil _ _) hne
    rw [hsplit, List.cons_append]

/-- The loop goes on as long as there are segments. -/
lemma AtSegments.lt_length_iff (h : AtSegments options pos (seg :: rest) terminated) :
    pos + seg.length + 1 < options.length ↔ rest ≠ [] := by
  constructor
  · rintro hlt rfl
    have hlength := congrArg List.length (h.drop_eq.trans List.joined_singleton)
    rw [List.length_drop, List.length_append] at hlength
    have hend : (if terminated then [','] else []).length ≤ 1 := by
      cases terminated
      · exact Nat.zero_le _
      · exact Nat.le_refl _
    omega
  · intro hrest
    have hafter := (h.tail hrest).drop_eq
    have hne := h.more [seg] rest rfl (List.cons_ne_nil _ _) hrest
    by_contra hle
    rw [List.drop_eq_nil_of_le (Nat.le_of_not_lt hle)] at hafter
    exact hne hafter.symm

/-- An iteration at the segment of a pair takes the key and the value of that pair. -/
lemma iteration_of_pair (h : AtSegments options pos (pairSegment pair :: rest) terminated)
    (hkey : '=' ∉ pair.1) :
    iteration options pos settings = (referenceStep settings pair).map fun settings' =>
      (pos + (pairSegment pair).length + 1, settings') := by
  obtain ⟨after, heq, -⟩ := List.exists_joined_cons ',' (pairSegment pair) rest terminated
  have hdrop : options.drop pos = pair.1 ++ '=' :: (pair.2 ++ after) := by
    rw [h.drop_eq, heq, pairSegment, List.append_assoc, List.cons_append]
  have hvalueDrop : options.drop (pos + pair.1.length + 1) = pair.2 ++ after := by
    rw [← List.drop_drop, drop_add_length hdrop, List.drop_one, List.tail_cons]
  have hlength : (pairSegment pair).length = pair.1.length + 1 + pair.2.length := by
    rw [pairSegment, List.length_append, List.length_cons]
    omega
  have hinside : pos + pair.1.length + 1 ≤ options.length := by
    have htotal := congrArg List.length hdrop
    rw [List.length_drop, List.length_append, List.length_cons] at htotal
    omega
  have hkeyPart : substr options pos (sizeSub (pos + pair.1.length) pos) = .ok pair.1 := by
    rw [sizeSub_of_le (Nat.le_add_right _ _), Nat.add_sub_cancel_left]
    exact substr_append hdrop h.inside
  have hvaluePart : substr options (pos + pair.1.length + 1)
      (sizeSub (sizeSub (pos + (pairSegment pair).length) (pos + pair.1.length)) 1) =
        .ok pair.2 := by
    have hcount : sizeSub (pos + (pairSegment pair).length) (pos + pair.1.length) =
        pair.2.length + 1 := by
      rw [sizeSub_of_le (by omega)]
      omega
    rw [hcount, sizeSub_of_le (Nat.le_add_left _ _), Nat.add_sub_cancel]
    exact substr_append hvalueDrop hinside
  rw [iteration, find_append hdrop hkey, h.delimiterPosition_eq]
  dsimp only
  rw [hkeyPart, hvaluePart]
  change (setOption settings pair.1 pair.2).bind _ = _
  rw [setOption_eq]
  cases referenceStep settings pair <;> rfl

/-- The loop is left by an exception if the pair is not accepted. -/
lemma body_of_pair_error (h : AtSegments options pos (pairSegment pair :: rest) terminated)
    (hkey : '=' ∉ pair.1) (hstep : referenceStep settings pair = .error exception) :
    parserBody options ⟨pos, settings, none⟩ = some (.done ⟨pos, settings, some exception⟩) := by
  rw [parserBody, iteration_of_pair h hkey, hstep]
  rfl

/-- The loop is left after the last pair. -/
lemma body_of_last_pair (h : AtSegments options pos [pairSegment pair] terminated)
    (hkey : '=' ∉ pair.1) (hstep : referenceStep settings pair = .ok settings') :
    parserBody options ⟨pos, settings, none⟩ =
      some (.done ⟨pos + (pairSegment pair).length + 1, settings', none⟩) := by
  have hend : ¬ pos + (pairSegment pair).length + 1 < options.length :=
    fun hlt => h.lt_length_iff.mp hlt rfl
  rw [parserBody, iteration_of_pair h hkey, hstep]
  exact if_neg hend

/-- The loop goes on at the next segment. -/
lemma body_of_pair (h : AtSegments options pos (pairSegment pair :: rest) terminated)
    (hkey : '=' ∉ pair.1) (hrest : rest ≠ [])
    (hstep : referenceStep settings pair = .ok settings') :
    parserBody options ⟨pos, settings, none⟩ =
      some (.yield ⟨pos + (pairSegment pair).length + 1, settings', none⟩) := by
  rw [parserBody, iteration_of_pair h hkey, hstep]
  exact if_pos (h.lt_length_iff.mpr hrest)

/-- The loop over segments of pairs, with other segments after them: if all pairs are accepted, it
comes to the segments after them with what the pairs have set. -/
lemma visits_pairs (hrest : rest ≠ [])
    (h : AtSegments options pos (pairs.map pairSegment ++ rest) terminated)
    (hkeys : ∀ pair ∈ pairs, '=' ∉ pair.1)
    (hfold : pairs.foldlM referenceStep settings = .ok settings') :
    ∃ pos', AtSegments options pos' rest terminated ∧
      Loop.Visits (parserBody options) ⟨pos, settings, none⟩ ⟨pos', settings', none⟩ ∧
      ∀ n, Loop.run (parserBody options) (pairs.length + n) ⟨pos, settings, none⟩ =
        Loop.run (parserBody options) n ⟨pos', settings', none⟩ := by
  induction pairs generalizing pos settings with
  | nil =>
    obtain rfl : settings = settings' := Except.ok.inj hfold
    refine ⟨pos, h, Loop.Visits.refl _ _, fun n => ?_⟩
    rw [List.length_nil, Nat.zero_add]
  | cons pair pairs ih =>
    rw [List.map_cons, List.cons_append] at h
    rw [List.foldlM_cons] at hfold
    cases hstep : referenceStep settings pair with
    | error exception => rw [hstep] at hfold; cases hfold
    | ok next =>
      rw [hstep] at hfold
      have hmore : pairs.map pairSegment ++ rest ≠ [] := List.append_ne_nil_of_right_ne_nil _ hrest
      have hbody := body_of_pair h (hkeys pair List.mem_cons_self) hmore hstep
      obtain ⟨pos', hat, hvisits, hrun⟩ := ih (h.tail hmore)
        (fun p hp => hkeys p (List.mem_cons_of_mem _ hp)) hfold
      refine ⟨pos', hat, Relation.ReflTransGen.head hbody hvisits, fun n => ?_⟩
      rw [List.length_cons, Nat.add_right_comm, Loop.run_of_yield hbody]
      exact hrun n

/-- The loop over segments of pairs: if a pair is not accepted, the loop is left by the exception of
the first such pair. -/
lemma run_pairs_error (h : AtSegments options pos (pairs.map pairSegment ++ rest) terminated)
    (hkeys : ∀ pair ∈ pairs, '=' ∉ pair.1)
    (hfold : pairs.foldlM referenceStep settings = .error exception) :
    ∃ state, state.thrown = some exception ∧
      ∀ n, Loop.run (parserBody options) (pairs.length + n) ⟨pos, settings, none⟩ = some state := by
  induction pairs generalizing pos settings with
  | nil => cases hfold
  | cons pair pairs ih =>
    rw [List.map_cons, List.cons_append] at h
    rw [List.foldlM_cons] at hfold
    have hkey : '=' ∉ pair.1 := hkeys pair List.mem_cons_self
    cases hstep : referenceStep settings pair with
    | error exception' =>
      rw [hstep] at hfold
      obtain rfl : exception' = exception := Except.error.inj hfold
      refine ⟨⟨pos, settings, some exception'⟩, rfl, fun n => ?_⟩
      rw [List.length_cons, Nat.add_right_comm]
      exact Loop.run_of_done (body_of_pair_error h hkey hstep)
    | ok next =>
      rw [hstep] at hfold
      have hmore : pairs.map pairSegment ++ rest ≠ [] := by
        intro hnil
        obtain rfl : pairs = [] := List.map_eq_nil_iff.mp (List.append_eq_nil_iff.mp hnil).1
        cases hfold
      obtain ⟨state, hthrown, hrun⟩ := ih (h.tail hmore)
        (fun p hp => hkeys p (List.mem_cons_of_mem _ hp)) hfold
      refine ⟨state, hthrown, fun n => ?_⟩
      rw [List.length_cons, Nat.add_right_comm, Loop.run_of_yield (body_of_pair h hkey hmore hstep)]
      exact hrun n

/-- **The loop over pairs.** It ends with the fold over the pairs.

**Proof sketch.** If the pairs before the last one are all accepted, the loop comes to the last one
by `visits_pairs`, and its iteration is the last step of the fold. -/
theorem run_pairs (hne : pairs ≠ [])
    (h : AtSegments options pos (pairs.map pairSegment) terminated)
    (hkeys : ∀ pair ∈ pairs, '=' ∉ pair.1) (n : ℕ) :
    (Loop.run (parserBody options) (pairs.length + n) ⟨pos, settings, none⟩).map
      ParserState.result = some (pairs.foldlM referenceStep settings) := by
  cases hfold : pairs.foldlM referenceStep settings with
  | error exception =>
    rw [← List.append_nil (pairs.map pairSegment)] at h
    obtain ⟨state, hthrown, hrun⟩ := run_pairs_error h hkeys hfold
    rw [hrun, Option.map_some, ParserState.result, hthrown]
  | ok settings' =>
    obtain ⟨pairs, last, rfl⟩ := (List.eq_nil_or_concat' pairs).resolve_left hne
    rw [List.foldlM_append] at hfold
    cases hbefore : pairs.foldlM referenceStep settings with
    | error exception => rw [hbefore] at hfold; cases hfold
    | ok next =>
      have hlast : referenceStep next last = .ok settings' := by
        rw [hbefore] at hfold
        change (referenceStep next last).bind pure = _ at hfold
        cases hstep : referenceStep next last with
        | error exception => rw [hstep] at hfold; cases hfold
        | ok settings'' => rw [hstep] at hfold; exact hfold
      rw [List.map_append, List.map_singleton] at h
      obtain ⟨pos', hat, -, hrun⟩ := visits_pairs (List.cons_ne_nil _ _) h
        (fun pair hpair => hkeys pair (List.mem_append_left _ hpair)) hbefore
      have hkey : '=' ∉ last.1 := hkeys last (List.mem_append_right _ (List.mem_singleton_self _))
      rw [List.length_append, List.length_singleton, Nat.add_assoc, hrun, Nat.add_comm 1 n,
        Loop.run_of_done (body_of_last_pair hat hkey hlast)]
      rfl

/-- A text of pairs starts at the first one. -/
lemma atSegments_pairs (terminated : Bool)
    (hkeys : ∀ pair ∈ pairs, ',' ∉ pair.1 ∧ '=' ∉ pair.1) (hvalues : ∀ pair ∈ pairs, ',' ∉ pair.2) :
    AtSegments (List.joined ',' (pairs.map pairSegment) terminated) 0 (pairs.map pairSegment)
      terminated := by
  refine ⟨Nat.zero_le _, List.drop_zero, ?_, ?_⟩
  · intro seg hseg
    obtain ⟨pair, hpair, rfl⟩ := List.mem_map.mp hseg
    rw [pairSegment, List.mem_append, List.mem_cons, not_or, not_or]
    exact ⟨(hkeys pair hpair).1, by decide, hvalues pair hpair⟩
  · intro pre rest hsplit _ hrest hnil
    -- the only text of no characters is a single empty segment, which has no `=`
    obtain ⟨rfl, -⟩ := List.eq_of_joined_eq_nil hrest hnil
    obtain ⟨pair, -, hpair⟩ : ∃ pair ∈ pairs, pairSegment pair = [] := by
      rw [← List.mem_map, hsplit]
      exact List.mem_append_right _ (List.mem_singleton_self _)
    exact absurd hpair (List.append_ne_nil_of_right_ne_nil _ (List.cons_ne_nil _ _))

end

/-- **The parser is the reference parser** on the texts of pairs: for every list of pairs, with or
without a comma at the end, it returns what the reference parser returns, or throws the same
exception. -/
theorem parseProfilerOptions_joined (currentPath : List Char)
    (pairs : List (List Char × List Char)) (hne : pairs ≠ [])
    (hkeys : ∀ pair ∈ pairs, ',' ∉ pair.1 ∧ '=' ∉ pair.1) (hvalues : ∀ pair ∈ pairs, ',' ∉ pair.2)
    (terminated : Bool) :
    parseProfilerOptions currentPath (List.joined ',' (pairs.map pairSegment) terminated) =
      some (referenceParse currentPath pairs) := by
  set options := List.joined ',' (pairs.map pairSegment) terminated with hoptions
  have hfuel : ∃ n, options.length + 1 = pairs.length + n := by
    refine Nat.exists_eq_add_of_le ?_
    rw [hoptions, ← List.length_map pairSegment]
    exact List.length_le_length_joined
  obtain ⟨n, hn⟩ := hfuel
  have hrun : (Loop.run (parserBody options) (pairs.length + n) {}).map ParserState.result =
      some (pairs.foldlM referenceStep {}) :=
    run_pairs hne (atSegments_pairs terminated hkeys hvalues)
      (fun pair hpair => (hkeys pair hpair).2) n
  rw [← hn] at hrun
  rw [parseProfilerOptions, referenceParse_eq]
  obtain ⟨state, hstate, hresult⟩ := Option.map_eq_some_iff.mp hrun
  rw [hstate, Option.map_some, hresult]

/-- Options with an empty value, an unknown key, a value with a `=` and a key given twice. -/
def samplePairs : List (List Char × List Char) :=
  [("period".toList, "7".toList), ("jarPath".toList, []), ("color".toList, "a=b".toList),
    ("method".toList, "x/Class.run".toList), ("period".toList, "1000".toList)]

/-- The options `samplePairs`, with a comma at the end; options with an output path and no period;
and options without a method. -/
theorem parseProfilerOptions_samplePairs :
    List.joined ',' (samplePairs.map pairSegment) true =
        "period=7,jarPath=,color=a=b,method=x/Class.run,period=1000,".toList ∧
      parseProfilerOptions "/home".toList
          (List.joined ',' (samplePairs.map pairSegment) true) =
        some (.ok
          { className := some "x/Class".toList
            methodName := some "run".toList
            profilingPeriod := 1000
            threshold := 0
            jarPath := some []
            outputPath := some "/home".toList }) ∧
      parseProfilerOptions "/home".toList "method=A.f,outputPath=/var,threshold=5".toList =
        some (.ok
          { className := some "A".toList
            methodName := some "f".toList
            profilingPeriod := 1000000
            threshold := 5000000
            jarPath := none
            outputPath := some "/var".toList }) ∧
      parseProfilerOptions "/home".toList "period=1000".toList =
        some (.error (.runtimeError ("Method name must be provided." ++
          "Use following syntax: method=x/y/z/Class.method,period=1000").toList)) := by
  refine ⟨by decide, ?_, ?_, ?_⟩
  · rw [parseProfilerOptions_joined "/home".toList samplePairs (by decide) (by decide) (by decide)
      true]
    decide
  · have htext : "method=A.f,outputPath=/var,threshold=5".toList =
        List.joined ',' ([("method".toList, "A.f".toList), ("outputPath".toList, "/var".toList),
          ("threshold".toList, "5".toList)].map pairSegment) false := by decide
    rw [htext, parseProfilerOptions_joined _ _ (by decide) (by decide) (by decide)]
    decide
  · have htext : "period=1000".toList =
        List.joined ',' ([("period".toList, "1000".toList)].map pairSegment) false := by decide
    rw [htext, parseProfilerOptions_joined _ _ (by decide) (by decide) (by decide)]
    decide

end ArgsParser

end KotlinTracer
