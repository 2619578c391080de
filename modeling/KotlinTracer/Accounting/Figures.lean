import KotlinTracer.Profiler.Steps

set_option relaxedAutoImplicit false
set_option autoImplicit false

/-!
# The figures of a coroutine

The record of a coroutine holds five figures: three running times and two numbers of context
switches. They start at zero with the record and change only by what `calculate_resource_usage`
adds, so they are what was credited to the coroutine since its record was created.

## Main definitions

* `KotlinTracer.Figures`, `KotlinTracer.CoroutineInfo.figures` — the five figures of a record.
* `KotlinTracer.accumulated` — what a log credits to a coroutine.
* `KotlinTracer.AccumulatedSince` — what a log credits to a coroutine since its record was created.

## Main results

* `KotlinTracer.figures_step` — one step adds what it credits.
* `KotlinTracer.figures_of_run` — the figures of a record are what was credited since it was
  created.
-/

namespace KotlinTracer

/-- The figures of a coroutine: times in nanoseconds and microseconds, and `uint64_t` counts. -/
@[ext] structure Figures where
  wall : TraceTime := 0
  user : TraceTime := 0
  system : TraceTime := 0
  voluntary : ℕ := 0
  involuntary : ℕ := 0
deriving DecidableEq

/-- The figures of a record. -/
def CoroutineInfo.figures (info : CoroutineInfo) : Figures where
  wall := info.wallClockRunningTime
  user := info.cpuUserClockRunningTimeUs
  system := info.cpuSystemClockRunningTimeUs
  voluntary := info.voluntarySwitches
  involuntary := info.involuntarySwitches

namespace Figures

/-- The figures with a credit added. -/
def add (f : Figures) (credit : Credit) : Figures where
  wall := f.wall + credit.wall
  user := f.user + credit.user
  system := f.system + credit.system
  voluntary := addUInt64 f.voluntary credit.voluntary
  involuntary := addUInt64 f.involuntary credit.involuntary

/-- The figures of `c` after an effect. -/
def addEffect (c : JLong) (f : Figures) : Effect → Figures
  | .credited d credit => if d = c then f.add credit else f
  | _ => f

end Figures

/-- What the effects of a log credit to a coroutine. -/
def accumulated (c : JLong) (l : Log) : Figures :=
  (l.flatMap Prod.snd).foldl (Figures.addEffect c) {}

/-- `f` is what was credited to `c` in the log `l` since its record was created: there was no record
before, and there is one ever since. -/
def AccumulatedSince (env : Env) (c : JLong) (l : Log) (f : Figures) : Prop :=
  ∃ before since q, l = before ++ since ∧ Run env before q ∧ q.storage.getCoroutineInfo c = none ∧
    (∀ l₁ l₂ q', since = l₁ ++ l₂ → l₁ ≠ [] → Run env (before ++ l₁) q' →
      (q'.storage.getCoroutineInfo c).isSome) ∧
    f = accumulated c since

/-! ## One step -/

section Step

variable {env : Env} {p p' : Profiler} {e : Event} {o : List Effect} {c : JLong}

/-- The figures of a record after a suspension: credited, if the coroutine was running. -/
lemma figures_suspendedInfo (last : RUsage) (ctx : Context) (c : JLong)
    (frames : Option (List StackFrame)) (info : CoroutineInfo) :
    (suspendedInfo last ctx c frames info).figures = if 0 < info.lastResume then
      info.figures.add (resourceCredit info last ctx.rusage ctx.now) else info.figures := by
  have hrecord : ∀ info : CoroutineInfo,
      (recordSuspension c ctx.now frames info).figures = info.figures := by
    intro info
    cases frames <;> rfl
  rw [suspendedInfo, hrecord, pausedInfo]
  split_ifs <;> rfl

/-- Effects without a credit to a coroutine leave its figures alone. -/
lemma foldl_addEffect_of_not_mem (h : ∀ credit, .credited c credit ∉ o) (f : Figures) :
    o.foldl (Figures.addEffect c) f = f := by
  induction o generalizing f with
  | nil => rfl
  | cons x o ih =>
    have hx : f.addEffect c x = f := by
      cases x with
      | credited d credit =>
        have hne : d ≠ c := fun heq => h credit (by rw [heq]; exact List.mem_cons_self)
        exact if_neg hne
      | _ => rfl
    rw [List.foldl_cons, hx]
    exact ih (fun credit hmem => h credit (List.mem_cons_of_mem x hmem)) f

/-- The figures after the credits of `coroutineCompleted` and `traceEnd`. -/
lemma foldl_addEffect_infoCredits {ctx : Context} {info : CoroutineInfo}
    (hinfo : p.storage.getCoroutineInfo c = some info) (f : Figures) :
    (p.infoCredits ctx c).foldl (Figures.addEffect c) f = f.add (p.creditOf ctx info) := by
  rw [Profiler.infoCredits, hinfo]
  exact if_pos rfl

/-- The figures after the credits of `coroutineSuspended`. -/
lemma foldl_addEffect_suspendedCredits {ctx : Context} {info : CoroutineInfo}
    (hinfo : p.storage.getCoroutineInfo c = some info) (f : Figures) :
    (p.suspendedCredits ctx c).foldl (Figures.addEffect c) f =
      if 0 < info.lastResume then f.add (p.creditOf ctx info) else f := by
  rw [Profiler.suspendedCredits, hinfo]
  dsimp only
  split_ifs
  · exact if_pos rfl
  · rfl

/-- The figures of the record of a coroutine; zero if there is none. -/
def Profiler.figuresOf (p : Profiler) (c : JLong) : Figures :=
  ((p.storage.getCoroutineInfo c).map CoroutineInfo.figures).getD {}

/-- The figures of a record there is. -/
lemma Profiler.figuresOf_of_some {info : CoroutineInfo}
    (h : p.storage.getCoroutineInfo c = some info) : p.figuresOf c = info.figures := by
  rw [figuresOf, h]
  rfl

/-- `coroutineCompleted` and `traceEnd` credit their own coroutine only. -/
lemma eq_of_mem_infoCredits {ctx : Context} {d : JLong} {credit : Credit}
    (h : .credited c credit ∈ p.infoCredits ctx d) : c = d := by
  obtain ⟨_, -, heq⟩ := Profiler.mem_infoCredits h
  exact (Effect.credited.inj heq).1

/-- `coroutineSuspended` credits its own coroutine only. -/
lemma eq_of_mem_suspendedCredits {ctx : Context} {d : JLong} {credit : Credit}
    (h : .credited c credit ∈ p.suspendedCredits ctx d) : c = d := by
  obtain ⟨_, -, heq⟩ := Profiler.mem_suspendedCredits h
  exact (Effect.credited.inj heq).1

/-- A record that is created has the figures there were, or zero. -/
lemma figures_create {info' : CoroutineInfo} {now : TraceTime}
    (h : (p.storage.getCoroutineInfo c).getD (TraceStorage.newCoroutineInfo now) = info') :
    info'.figures = p.figuresOf c := by
  rw [← h, Profiler.figuresOf]
  cases p.storage.getCoroutineInfo c <;> rfl

/-- **One step adds to the figures of a coroutine what it credits to it**, unless it drops the
record. -/
lemma figures_step (hstep : p.step env e = some (p', o)) {info' : CoroutineInfo}
    (h : p'.storage.getCoroutineInfo c = some info') :
    info'.figures = o.foldl (Figures.addEffect c) (p.figuresOf c) := by
  -- a record that keeps its figures, in a step without a credit
  have hkeep : (∀ credit, .credited c credit ∉ o) → info'.figures = p.figuresOf c →
      info'.figures = o.foldl (Figures.addEffect c) (p.figuresOf c) := by
    intro hnone heq
    rw [foldl_addEffect_of_not_mem hnone, heq]
  have hsame : p.storage.getCoroutineInfo c = some info' → info'.figures = p.figuresOf c :=
    fun hinfo => (Profiler.figuresOf_of_some hinfo).symm
  obtain ⟨frames, hupdate⟩ := Profiler.step_info hstep
  have hrecord := (hupdate c).symm.trans h
  cases Profiler.step_spec hstep with
  | coroutineCreated ctx d =>
    refine hkeep (fun _ => List.not_mem_nil) ?_
    simp only [infoUpdate] at hrecord
    split_ifs at hrecord
    · exact figures_create (Option.some.inj hrecord)
    · exact hsame hrecord
  | @coroutineSuspended ctx d _ _ frames hinfo hthreads hlocals =>
    simp only [infoUpdate] at hrecord
    split_ifs at hrecord with hc
    · subst hc
      obtain ⟨info, hinfo, rfl⟩ := Option.map_eq_some_iff.mp hrecord
      rw [figures_suspendedInfo, foldl_addEffect_suspendedCredits hinfo,
        Profiler.figuresOf_of_some hinfo]
      rfl
    · exact hkeep (fun credit hmem => hc (eq_of_mem_suspendedCredits hmem)) (hsame hrecord)
  | coroutineResumed ctx d =>
    refine hkeep (fun _ => List.not_mem_nil) ?_
    simp only [infoUpdate] at hrecord
    split_ifs at hrecord
    · obtain ⟨info, hinfo, rfl⟩ := Option.map_eq_some_iff.mp hrecord
      rw [Profiler.figuresOf_of_some hinfo]
      rfl
    · exact hsame hrecord
  | coroutineCompleted ctx d =>
    simp only [infoUpdate] at hrecord
    split_ifs at hrecord with hc
    · subst hc
      obtain ⟨info, hinfo, rfl⟩ := Option.map_eq_some_iff.mp hrecord
      rw [foldl_addEffect_infoCredits hinfo, Profiler.figuresOf_of_some hinfo]
      rfl
    · exact hkeep (fun credit hmem => hc (eq_of_mem_infoCredits hmem)) (hsame hrecord)
  | @traceStart ctx d _ _ hspec =>
    refine hkeep (fun credit hmem => ?_) ?_
    · rw [hspec.effects] at hmem
      split_ifs at hmem <;> simp at hmem
    · simp only [infoUpdate] at hrecord
      split_ifs at hrecord
      · exact figures_create (Option.some.inj hrecord)
      · exact hsame hrecord
  | @traceEnd ctx d _ _ hspec =>
    simp only [infoUpdate] at hrecord
    split_ifs at hrecord with hc
    · obtain ⟨info, hinfo, rfl⟩ := Option.map_eq_some_iff.mp hrecord
      rw [hspec.effects, List.foldl_append, ← hc, foldl_addEffect_infoCredits hinfo,
        foldl_addEffect_of_not_mem, Profiler.figuresOf_of_some hinfo]
      · rfl
      · intro credit hmem
        split_ifs at hmem <;> simp at hmem
    · exact hkeep (fun credit hmem => hc (eq_of_mem_infoCredits (hspec.credited_mem hmem)))
        (hsame hrecord)
  | processTraces hspec =>
    refine hkeep (fun credit hmem => ?_) (hsame hrecord)
    obtain ⟨_, _, heq⟩ := hspec.effects _ hmem
    cases heq
  | clean hgc =>
    refine hkeep (fun credit hmem => by simp at hmem) ?_
    simp only [infoUpdate] at hrecord
    split_ifs at hrecord
    exact hsame hrecord
  | _ => exact hkeep (fun credit hmem => by simp at hmem) (hsame hrecord)

end Step

/-! ## Runs -/

/-- One more step. -/
lemma accumulated_concat (c : JLong) (l : Log) (e : Event) (o : List Effect) :
    accumulated c (l ++ [(e, o)]) = o.foldl (Figures.addEffect c) (accumulated c l) := by
  simp [accumulated, List.flatMap_append, List.foldl_append]

/-- **The figures of a record are what was credited to the coroutine since its record was
created**, in every run.

**Proof sketch.** Induction on the run. A step that finds a record adds what it credits
(`figures_step`); a step that finds none makes one with what it credits, which is nothing. -/
theorem figures_of_run {env : Env} {l : Log} {p : Profiler} (hrun : Run env l p) {c : JLong}
    {info : CoroutineInfo} (h : p.storage.getCoroutineInfo c = some info) :
    AccumulatedSince env c l info.figures := by
  refine LogMachine.RunFrom.invariant (I := fun l p => ∀ info,
    p.storage.getCoroutineInfo c = some info → AccumulatedSince env c l info.figures) ?_ ?_ hrun
    info h
  · intro info h
    cases h
  · intro l p e o p' hrun ih hstep info' hinfo'
    have hnext : Run env (l ++ [(e, o)]) p' := (machine env).runFrom_concat.mpr ⟨p, hrun, hstep⟩
    have hfigures := figures_step hstep hinfo'
    cases hinfo : p.storage.getCoroutineInfo c with
    | none =>
      -- the record is new
      refine ⟨l, [(e, o)], p, rfl, hrun, hinfo, ?_, ?_⟩
      · intro l₁ l₂ q' hsplit hne hq'
        rcases List.append_eq_singleton_iff.mp hsplit.symm with ⟨hnil, -⟩ | ⟨rfl, -⟩
        · exact absurd hnil hne
        · rw [hq'.unique hnext, hinfo']
          rfl
      · rw [hfigures, Profiler.figuresOf, hinfo]
        simp [accumulated]
    | some info =>
      obtain ⟨before, since, q, rfl, hq, hnone, hever, hsum⟩ := ih info hinfo
      refine ⟨before, since ++ [(e, o)], q, List.append_assoc _ _ _, hq, hnone, ?_, ?_⟩
      · intro l₁ l₂ q' hsplit hne hq'
        rcases List.append_eq_append_iff.mp hsplit with ⟨m, rfl, hm⟩ | ⟨m, rfl, hm⟩
        · rcases List.append_eq_singleton_iff.mp hm.symm with ⟨rfl, -⟩ | ⟨rfl, -⟩
          · rw [List.append_nil] at hne hq'
            exact hever since [] q' (List.append_nil since).symm hne hq'
          · rw [← List.append_assoc] at hq'
            rw [hq'.unique hnext, hinfo']
            rfl
        · exact hever l₁ m q' rfl hne hq'
      · rw [accumulated_concat, ← hsum, hfigures, Profiler.figuresOf_of_some hinfo]

/-- A record was created at one moment only, so what was credited since then is determined. -/
lemma AccumulatedSince.unique {env : Env} {c : JLong} {l : Log} {f f' : Figures}
    (h : AccumulatedSince env c l f) (h' : AccumulatedSince env c l f') : f = f' := by
  obtain ⟨before, since, q, rfl, hq, hnone, hever, rfl⟩ := h
  obtain ⟨before', since', q', hsplit, hq', hnone', hever', rfl⟩ := h'
  rcases List.append_eq_append_iff.mp hsplit with ⟨m, rfl, rfl⟩ | ⟨m, rfl, rfl⟩
  · by_cases hm : m = []
    · rw [hm, List.nil_append]
    · have hsome := hever m since' q' rfl hm hq'
      rw [hnone'] at hsome
      cases hsome
  · by_cases hm : m = []
    · rw [hm, List.nil_append]
    · have hsome := hever' m since q rfl hm hq
      rw [hnone] at hsome
      cases hsome

end KotlinTracer
