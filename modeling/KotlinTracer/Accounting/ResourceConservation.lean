import KotlinTracer.Profiler.Steps
import Mathlib.Algebra.BigOperators.Group.Finset.Piecewise
import Mathlib.Algebra.Order.BigOperators.Group.Finset

set_option relaxedAutoImplicit false
set_option autoImplicit false

/-!
# Conservation of CPU time and context switches

Every credit to a coroutine is the difference of two answers of `getrusage` on the thread that
makes it, and moves the thread's baseline to the later one. So what all coroutines were credited
with on a thread never exceeds the last answer there: no unit is credited to two coroutines, nor
twice to one.

## Main definitions

* `KotlinTracer.UsageClock` — what the answers of `getrusage` in a run satisfy.
* `KotlinTracer.creditedIn`, `KotlinTracer.creditedOn` — what a step credited, and what all steps
  on one thread credited.
* `KotlinTracer.everCredited` — what all records ever created were credited with.
* `KotlinTracer.Balanced` — what a step adds to the records is credited, and what it credits is
  added to the baseline of its thread.
* `KotlinTracer.Account` — the same over a run.

## Main results

* `KotlinTracer.step_account` — the accounting of one step.
* `KotlinTracer.Account.step`, `KotlinTracer.cpu_conservation` — the accounting of a run.
-/

namespace KotlinTracer

/-- What `getrusage` promises about the answers in a run: they are valid, and those of one thread
do not decrease. -/
structure UsageClock (es : List Event) : Prop where
  valid : ∀ e ∈ es, e.rusage.Valid
  mono : es.Pairwise fun e e' => e.thread = e'.thread → e.rusage.Le e'.rusage

instance (es : List Event) : Decidable (UsageClock es) :=
  decidable_of_iff ((∀ e ∈ es, e.rusage.Valid) ∧
      es.Pairwise fun e e' => e.thread = e'.thread → e.rusage.Le e'.rusage)
    ⟨fun h => ⟨h.1, h.2⟩, fun h => ⟨h.valid, h.mono⟩⟩

/-! ## Amounts -/

/-- What an effect credits of a quantity. -/
def Effect.credit (r : Resource) : Effect → ℤ
  | .credited _ credit => credit.amount r
  | _ => 0

/-- What was credited to a record that an effect drops. -/
def Effect.release (r : Resource) : Effect → ℤ
  | .released info => info.amount r
  | _ => 0

/-- What the effects of a step credit. -/
def creditedIn (r : Resource) (o : List Effect) : ℤ := (o.map (Effect.credit r)).sum

/-- What was credited to the records that a step drops. -/
def releasedIn (r : Resource) (o : List Effect) : ℤ := (o.map (Effect.release r)).sum

/-- What the steps of a run on one thread credit. -/
def creditedOn (r : Resource) (thread : PThread) (l : Log) : ℤ :=
  ((l.filter fun x => x.1.thread = thread).map fun x => creditedIn r x.2).sum

/-- What the records in the storage were credited with. -/
def TraceStorage.credited (s : TraceStorage) (r : Resource) : ℤ :=
  s.coroutineInfoMap.sum fun info => info.amount r

/-- What all records ever created were credited with: those in the storage, and those that the
cleaner dropped. -/
def everCredited (r : Resource) (l : Log) (p : Profiler) : ℤ :=
  p.storage.credited r + (l.map fun x => releasedIn r x.2).sum

/-- The threads on which a run executes calls. -/
def threadsOf (l : Log) : Finset PThread := (l.map fun x => x.1.thread).toFinset

@[simp] lemma creditedIn_nil (r : Resource) : creditedIn r [] = 0 := rfl

@[simp] lemma releasedIn_nil (r : Resource) : releasedIn r [] = 0 := rfl

@[simp] lemma creditedIn_append (r : Resource) (o₁ o₂ : List Effect) :
    creditedIn r (o₁ ++ o₂) = creditedIn r o₁ + creditedIn r o₂ := by
  simp [creditedIn]

@[simp] lemma releasedIn_append (r : Resource) (o₁ o₂ : List Effect) :
    releasedIn r (o₁ ++ o₂) = releasedIn r o₁ + releasedIn r o₂ := by
  simp [releasedIn]

/-! ## The accounting of one step -/

namespace TraceStorage

variable {s s' : TraceStorage} {c : JLong} {f : CoroutineInfo → CoroutineInfo}

/-- The credits in the storage depend on the records only. -/
lemma credited_congr (h : ∀ c, s'.getCoroutineInfo c = s.getCoroutineInfo c) (r : Resource) :
    s'.credited r = s.credited r := by
  refine ConcurrentCleanableMap.sum_congr (fun k => ?_) _
  rw [← getCoroutineInfo_eq, ← getCoroutineInfo_eq, h]

/-- An update of a record changes the credits by the change of the record. -/
lemma credited_le
    (h : ∀ c', s'.getCoroutineInfo c' =
      if c' = c then (s.getCoroutineInfo c).map f else s.getCoroutineInfo c')
    {r : Resource} {k : ℤ} (hk : 0 ≤ k)
    (hf : ∀ info, s.getCoroutineInfo c = some info → (f info).amount r ≤ info.amount r + k) :
    s'.credited r ≤ s.credited r + k := by
  have hsum : s'.credited r = (s.coroutineInfoMap.modify c f).sum fun info => info.amount r := by
    refine ConcurrentCleanableMap.sum_congr (fun c' => ?_) _
    rw [← getCoroutineInfo_eq, h, ConcurrentCleanableMap.at?_modify, getCoroutineInfo_eq,
      getCoroutineInfo_eq]
  rw [hsum, credited]
  cases hinfo : s.coroutineInfoMap.at? c with
  | none =>
    have hsame : s.coroutineInfoMap.modify c f = s.coroutineInfoMap := by
      rw [ConcurrentCleanableMap.at?] at hinfo
      rw [ConcurrentCleanableMap.modify, hinfo]
    rw [hsame]
    linarith
  | some info =>
    have hle := hf info ((s.getCoroutineInfo_eq c).trans hinfo)
    rw [ConcurrentCleanableMap.sum_modify hinfo]
    linarith

/-- Creating a record, if there is none, does not change the credits. -/
lemma credited_create {d : JLong} (now : TraceTime)
    (h : ∀ c', s'.getCoroutineInfo c' = if c' = d ∧ s.getCoroutineInfo d = none then
      some (newCoroutineInfo now) else s.getCoroutineInfo c') (r : Resource) :
    s'.credited r = s.credited r := by
  cases hd : s.coroutineInfoMap.at? d with
  | some info =>
    refine credited_congr (fun c' => ?_) r
    rw [h, getCoroutineInfo_eq s d, hd]
    simp
  | none =>
    have hsum : s'.credited r =
        (s.coroutineInfoMap.insert d (newCoroutineInfo now)).2.sum fun info => info.amount r := by
      refine ConcurrentCleanableMap.sum_congr (fun c' => ?_) _
      rw [← getCoroutineInfo_eq, h, ConcurrentCleanableMap.at?_insert, getCoroutineInfo_eq,
        getCoroutineInfo_eq]
    have hzero : (newCoroutineInfo now).amount r = 0 := by cases r <;> rfl
    rw [hsum, ConcurrentCleanableMap.sum_insert hd, hzero, zero_add, credited]

end TraceStorage

section Step

variable {env : Env} {p p' : Profiler} {e : Event} {o : List Effect} {r : Resource}

/-- A suspension, with the credit it makes or without. -/
lemma amount_suspendedInfo (last : RUsage) (ctx : Context) (c : JLong)
    (frames : Option (List StackFrame)) (info : CoroutineInfo) (r : Resource) :
    (suspendedInfo last ctx c frames info).amount r =
      if 0 < info.lastResume then (creditedInfo last ctx info).amount r else info.amount r := by
  have hrecord : ∀ info', (recordSuspension c ctx.now frames info').amount r = info'.amount r := by
    intro info'
    cases frames <;> cases r <;> rfl
  rw [suspendedInfo, hrecord, pausedInfo]
  split_ifs
  · cases r <;> rfl
  · rfl

/-- The credit of a step in terms of the answers of `getrusage`. -/
lemma amount_creditOf (p : Profiler) (ctx : Context) (info : CoroutineInfo) (r : Resource) :
    (p.creditOf ctx info).amount r =
      ctx.rusage.amount r - (p.locals ctx.thread).currentRusage.amount r :=
  Credit.amount_eq _ _ _ _ _

/-- A credited record, when the answers of the thread do not decrease. -/
lemma amount_creditedInfo_le {ctx : Context} (info : CoroutineInfo)
    (hle : (p.locals ctx.thread).currentRusage.amount r ≤ ctx.rusage.amount r) :
    (creditedInfo (p.locals ctx.thread).currentRusage ctx info).amount r ≤
      info.amount r + (p.creditOf ctx info).amount r := by
  refine CoroutineInfo.amount_addCredit_le ?_
  have hamount := amount_creditOf p ctx info r
  rw [Profiler.creditOf] at hamount
  rw [hamount]
  linarith

/-- The books of a step on thread `t` with the effects `o` balance: what the records gain, dropped
ones included, is at most what the step credits, and that is at most what the baseline of the
thread gains. -/
def Balanced (r : Resource) (t : PThread) (p : Profiler) (o : List Effect) (p' : Profiler) : Prop :=
  p'.storage.credited r + releasedIn r o ≤ p.storage.credited r + creditedIn r o ∧
    creditedIn r o ≤
      (p'.locals t).currentRusage.amount r - (p.locals t).currentRusage.amount r

/-- Credits drop no records. -/
lemma releasedIn_infoCredits (p : Profiler) (ctx : Context) (c : JLong) (r : Resource) :
    releasedIn r (p.infoCredits ctx c) = 0 := by
  rw [Profiler.infoCredits]
  cases p.storage.getCoroutineInfo c <;> rfl

/-- Stored samples neither credit nor drop. -/
lemma amounts_of_recorded (h : ∀ x ∈ o, ∃ c record, x = .recorded c record) (r : Resource) :
    creditedIn r o = 0 ∧ releasedIn r o = 0 := by
  constructor
  · refine List.sum_eq_zero fun x hx => ?_
    obtain ⟨y, hy, rfl⟩ := List.mem_map.mp hx
    obtain ⟨_, _, rfl⟩ := h y hy
    rfl
  · refine List.sum_eq_zero fun x hx => ?_
    obtain ⟨y, hy, rfl⟩ := List.mem_map.mp hx
    obtain ⟨_, _, rfl⟩ := h y hy
    rfl

/-- A step that neither credits nor drops balances. -/
lemma balanced_keep (h : p.step env e = some (p', o))
    (hle : (p.locals e.thread).currentRusage.amount r ≤ e.rusage.amount r)
    (hamounts : creditedIn r o = 0 ∧ releasedIn r o = 0)
    (hsum : p'.storage.credited r ≤ p.storage.credited r) : Balanced r e.thread p o p' := by
  rw [Balanced, hamounts.1, hamounts.2]
  refine ⟨by linarith, ?_⟩
  rcases Profiler.step_currentRusage h e.thread with hsame | ⟨_, hread⟩
  · rw [hsame]
    linarith
  · rw [hread]
    linarith

/-- A step that credits the record of `c` in one go balances. -/
lemma balanced_credit {ctx : Context} {c : JLong} {f : CoroutineInfo → CoroutineInfo}
    (hle : (p.locals ctx.thread).currentRusage.amount r ≤ ctx.rusage.amount r)
    (hinfo : ∀ c', p'.storage.getCoroutineInfo c' =
      if c' = c then (p.storage.getCoroutineInfo c).map f else p.storage.getCoroutineInfo c')
    (hf : ∀ info, p.storage.getCoroutineInfo c = some info →
      (f info).amount r ≤ info.amount r + (p.creditOf ctx info).amount r)
    (hlocals : (p'.locals ctx.thread).currentRusage =
      if (p.storage.getCoroutineInfo c).isSome then ctx.rusage
      else (p.locals ctx.thread).currentRusage) :
    Balanced r ctx.thread p (p.infoCredits ctx c) p' := by
  rw [Balanced, releasedIn_infoCredits, add_zero]
  cases hc : p.storage.getCoroutineInfo c with
  | none =>
    rw [hc] at hlocals
    have hcredits : p.infoCredits ctx c = [] := by simp [Profiler.infoCredits, hc]
    rw [hcredits, hlocals]
    refine ⟨TraceStorage.credited_le hinfo le_rfl fun info h => ?_, by simp⟩
    rw [hc] at h
    cases h
  | some info =>
    rw [hc] at hlocals
    have hcredits : creditedIn r (p.infoCredits ctx c) = (p.creditOf ctx info).amount r := by
      simp [Profiler.infoCredits, hc, creditedIn, Effect.credit]
    have hamount := amount_creditOf p ctx info r
    rw [hcredits, hlocals]
    refine ⟨TraceStorage.credited_le hinfo (by rw [hamount]; linarith) fun info' h => ?_,
      hamount.le⟩
    rw [hc, Option.some.injEq] at h
    subst h
    exact hf info hc

/-- A suspension balances: it credits a coroutine that runs, and only such a one. -/
lemma balanced_suspended {ctx : Context} {c : JLong} {stack : Option (List JMethodID)}
    {frames : Option (List StackFrame)}
    (h : p.step env ⟨ctx, .coroutineSuspended c stack⟩ = some (p', p.suspendedCredits ctx c))
    (hle : (p.locals ctx.thread).currentRusage.amount r ≤ ctx.rusage.amount r)
    (hinfo : p.storage.UpdatesInfo p'.storage c
      (suspendedInfo (p.locals ctx.thread).currentRusage ctx c frames))
    (hlocals : p'.locals = p.suspendedLocals ctx c) :
    Balanced r ctx.thread p (p.suspendedCredits ctx c) p' := by
  by_cases hrun : ∃ info, p.storage.getCoroutineInfo c = some info ∧ 0 < info.lastResume
  · obtain ⟨info, hc, hpos⟩ := hrun
    have hcredits : p.suspendedCredits ctx c = p.infoCredits ctx c := by
      simp [Profiler.suspendedCredits, Profiler.infoCredits, hc, hpos]
    rw [hcredits]
    refine balanced_credit hle hinfo.info (fun info' h => ?_) ?_
    · rw [hc, Option.some.injEq] at h
      subst h
      rw [amount_suspendedInfo, if_pos hpos]
      exact amount_creditedInfo_le info hle
    · rw [hlocals]
      simp [Profiler.suspendedLocals, Profiler.isRunning, hc, hpos]
  · have hcredits : p.suspendedCredits ctx c = [] := by
      rw [Profiler.suspendedCredits]
      cases hc : p.storage.getCoroutineInfo c with
      | none => rfl
      | some info => exact if_neg fun hpos => hrun ⟨info, hc, hpos⟩
    have hsum := TraceStorage.credited_le (r := r) hinfo.info le_rfl fun info hc => by
      rw [amount_suspendedInfo, if_neg fun hpos => hrun ⟨info, hc, hpos⟩, add_zero]
    have hamounts : creditedIn r (p.suspendedCredits ctx c) = 0 ∧
        releasedIn r (p.suspendedCredits ctx c) = 0 := by
      rw [hcredits]
      exact ⟨rfl, rfl⟩
    exact balanced_keep (e := ⟨ctx, .coroutineSuspended c stack⟩) h hle hamounts
      (by simpa using hsum)

/-- The start of a trace does not change the credits: a record that it creates has none. -/
lemma credited_traceStart {ctx : Context} {c : JLong}
    (h : Profiler.TraceStartSpec env p ctx c p' o) (r : Resource) :
    p'.storage.credited r = p.storage.credited r := by
  by_cases hc : c = -2
  · refine TraceStorage.credited_create (d := Profiler.traceId env ctx.thread c) ctx.now
      (fun c' => ?_) r
    rw [h.info]
    simp [hc]
  · refine TraceStorage.credited_congr (fun c' => ?_) r
    rw [h.info]
    simp [hc]

/-- The end of a trace balances: writing the trace neither credits nor drops. -/
lemma balanced_traceEnd {ctx : Context} {c : JLong} (h : Profiler.TraceEndSpec env p ctx c p' o)
    (hle : (p.locals ctx.thread).currentRusage.amount r ≤ ctx.rusage.amount r) :
    Balanced r ctx.thread p o p' := by
  have hcredit : Balanced r ctx.thread p
      (p.infoCredits ctx (Profiler.traceId env ctx.thread c)) p' :=
    balanced_credit hle h.info (fun info _ => amount_creditedInfo_le info hle)
      (by rw [h.locals]; simp)
  have hcredited : creditedIn r o =
      creditedIn r (p.infoCredits ctx (Profiler.traceId env ctx.thread c)) := by
    rw [h.effects, creditedIn_append]
    split_ifs <;> simp [creditedIn, Effect.credit]
  have hreleased : releasedIn r o =
      releasedIn r (p.infoCredits ctx (Profiler.traceId env ctx.thread c)) := by
    rw [h.effects, releasedIn_append]
    split_ifs <;> simp [releasedIn, Effect.release]
  rw [Balanced, hcredited, hreleased]
  exact hcredit

/-- A clean balances: what the storage loses is what the dropped records hold. -/
lemma balanced_clean (p : Profiler) (t : PThread) (gcEvents : ConcurrentList GCEventPtr)
    (r : Resource) :
    Balanced r t p (p.storage.coroutineInfoMap.dropped.map .released)
      (p.withStorage { p.storage with
        processedMap := p.storage.processedMap.clean
        childCoroutinesMap := p.storage.childCoroutinesMap.clean
        coroutineInfoMap := p.storage.coroutineInfoMap.clean
        gcEvents := gcEvents }) := by
  have hsum := p.storage.coroutineInfoMap.sum_clean fun info => info.amount r
  have hreleased : releasedIn r (p.storage.coroutineInfoMap.dropped.map .released) =
      (p.storage.coroutineInfoMap.dropped.map fun info => info.amount r).sum := by
    rw [releasedIn, List.map_map]
    rfl
  have hcredited : creditedIn r (p.storage.coroutineInfoMap.dropped.map .released) = 0 := by
    refine List.sum_eq_zero fun x hx => ?_
    simp only [List.map_map, List.mem_map, Function.comp_apply] at hx
    obtain ⟨info, _, rfl⟩ := hx
    rfl
  rw [Balanced, hreleased, hcredited, add_zero]
  exact ⟨hsum.le, by simp⟩

/-- **The accounting of one step**: when the thread's answers of `getrusage` do not decrease, the
books of the step balance. -/
lemma step_account (h : p.step env e = some (p', o))
    (hle : (p.locals e.thread).currentRusage.amount r ≤ e.rusage.amount r) :
    Balanced r e.thread p o p' := by
  have hkeep := balanced_keep h hle
  cases Profiler.step_spec h with
  | coroutineCreated ctx c =>
    exact hkeep ⟨rfl, rfl⟩
      (TraceStorage.credited_create ctx.now (Profiler.coroutineCreated_spec p ctx c).2.1 r).le
  | coroutineSuspended frames hinfo hthreads hlocals =>
    exact balanced_suspended h hle hinfo hlocals
  | coroutineResumed ctx c =>
    have hsum := TraceStorage.credited_le (r := r) (Profiler.coroutineResumed_spec p ctx c).1.info
      le_rfl fun info _ => by cases r <;> simp [CoroutineInfo.amount]
    exact hkeep ⟨rfl, rfl⟩ (by simpa using hsum)
  | coroutineCompleted ctx c =>
    obtain ⟨hupdate, _, hlocals, _⟩ := Profiler.coroutineCompleted_spec p ctx c
    exact balanced_credit hle hupdate.info
      (fun info _ => amount_creditedInfo_le { info with endTime := ctx.now } hle)
      (by rw [hlocals]; simp)
  | traceStart hspec =>
    refine hkeep ?_ (credited_traceStart hspec r).le
    rw [hspec.effects]
    split_ifs
    · exact ⟨rfl, rfl⟩
    · exact ⟨rfl, rfl⟩
  | traceEnd hspec => exact balanced_traceEnd hspec hle
  | addProcessedTrace hspec =>
    refine hkeep ⟨rfl, rfl⟩ (TraceStorage.credited_congr (fun c => ?_) r).le
    rw [TraceStorage.getCoroutineInfo_eq, TraceStorage.getCoroutineInfo_eq, hspec.fields.2.2.1]
  | processTraces hspec =>
    refine hkeep (amounts_of_recorded hspec.effects r)
      (TraceStorage.credited_congr (fun c => ?_) r).le
    rw [TraceStorage.getCoroutineInfo_eq, TraceStorage.getCoroutineInfo_eq, hspec.fields.2.2.1]
  | gcFinish hgc =>
    obtain ⟨_, _, rfl⟩ := Option.map_eq_some_iff.mp hgc
    exact hkeep ⟨rfl, rfl⟩ le_rfl
  | clean hgc => exact balanced_clean p _ _ r
  | _ => exact hkeep ⟨rfl, rfl⟩ le_rfl

end Step

/-! ## The accounting of a run -/

section Run

variable {env : Env} {l : Log} {p p' : Profiler} {e : Event} {o : List Effect} {r : Resource}

/-- What the steps of a longer run on a thread credit. -/
lemma creditedOn_concat (r : Resource) (t : PThread) (l : Log) (e : Event) (o : List Effect) :
    creditedOn r t (l ++ [(e, o)]) =
      creditedOn r t l + if e.thread = t then creditedIn r o else 0 := by
  rw [creditedOn, List.filter_append, List.map_append, List.sum_append, ← creditedOn]
  by_cases ht : e.thread = t
  · simp [ht]
  · simp [ht]

/-- The credits of a run, thread by thread. -/
lemma sum_creditedOn (r : Resource) (l : Log) :
    ∑ t ∈ threadsOf l, creditedOn r t l = (l.map fun x => creditedIn r x.2).sum := by
  have hsum : ∀ (T : Finset PThread) (l : Log), (∀ x ∈ l, x.1.thread ∈ T) →
      ∑ t ∈ T, creditedOn r t l = (l.map fun x => creditedIn r x.2).sum := by
    intro T l hT
    induction l using List.reverseRecOn with
    | nil => simp [creditedOn]
    | append_singleton l x ih =>
      obtain ⟨e, o⟩ := x
      have he : e.thread ∈ T := hT (e, o) (by simp)
      simp only [creditedOn_concat, Finset.sum_add_distrib, Finset.sum_ite_eq, he, if_true,
        List.map_append, List.sum_append, List.map_cons, List.map_nil, List.sum_cons,
        List.sum_nil, add_zero]
      rw [ih fun y hy => hT y (by simp [hy])]
  refine hsum _ l fun x hx => ?_
  rw [threadsOf, List.mem_toFinset]
  exact List.mem_map_of_mem hx

/-- The baseline of a thread is an answer of `getrusage` on that thread, or still zero. -/
lemma currentRusage_origin (hrun : Run env l p) (t : PThread) :
    (p.locals t).currentRusage = {} ∨
      ∃ e ∈ l.map Prod.fst, e.thread = t ∧ (p.locals t).currentRusage = e.rusage := by
  refine LogMachine.RunFrom.invariant (I := fun l p => (p.locals t).currentRusage = {} ∨
    ∃ e ∈ l.map Prod.fst, e.thread = t ∧ (p.locals t).currentRusage = e.rusage) ?_ ?_ hrun
  · exact Or.inl rfl
  · intro l p e o p' _ ih hstep
    rcases Profiler.step_currentRusage hstep t with hsame | ⟨ht, hread⟩
    · rw [hsame]
      refine ih.imp_right ?_
      rintro ⟨e', he', hthread, heq⟩
      exact ⟨e', by simp only [List.map_append, List.mem_append]; exact Or.inl he', hthread, heq⟩
    · exact Or.inr ⟨e, by simp, ht.symm, hread⟩

/-- The next answer of `getrusage` on a thread is not before its baseline. -/
lemma currentRusage_le (hrun : Run env l p) {e : Event}
    (husage : UsageClock (l.map Prod.fst ++ [e])) (r : Resource) :
    (p.locals e.thread).currentRusage.amount r ≤ e.rusage.amount r := by
  have he : e.rusage.Valid := husage.valid e (by simp)
  rcases currentRusage_origin hrun e.thread with hzero | ⟨e', he', hthread, heq⟩
  · rw [hzero]
    exact he.default_le.amount_le RUsage.valid_default he r
  · have hle := (List.pairwise_append.mp husage.mono).2.2 e' he' e (by simp) hthread
    rw [heq]
    exact hle.amount_le (husage.valid e' (by simp [he'])) he r

/-- The answers of a run before its last step. -/
lemma UsageClock.of_append {es es' : List Event} (h : UsageClock (es ++ es')) : UsageClock es :=
  ⟨fun e he => h.valid e (by simp [he]), (List.pairwise_append.mp h.mono).1⟩

/-- The books of a run. -/
structure Account (r : Resource) (l : Log) (p : Profiler) : Prop where
  nonneg : ∀ x ∈ l, ∀ c k, .credited c k ∈ x.2 → 0 ≤ k.amount r
  /-- What was credited on a thread is in its baseline. -/
  threads : ∀ t, creditedOn r t l ≤ (p.locals t).currentRusage.amount r
  /-- What the records ever gained was credited. -/
  total : everCredited r l p ≤ (l.map fun x => creditedIn r x.2).sum

/-- **One step keeps the books**: the credits of its thread grow by at most what its baseline gains,
and the baselines of the others stay. -/
lemma Account.step (h : Account r l p) (hstep : p.step env e = some (p', o))
    (hle : (p.locals e.thread).currentRusage.amount r ≤ e.rusage.amount r) :
    Account r (l ++ [(e, o)]) p' := by
  obtain ⟨hgain, hbase⟩ := step_account hstep hle
  refine ⟨?_, fun t => ?_, ?_⟩
  · intro x hx c k hk
    rcases List.mem_append.mp hx with hx | hx
    · exact h.nonneg x hx c k hk
    · rw [List.mem_singleton] at hx
      subst hx
      obtain ⟨info, -, rfl⟩ := Profiler.mem_credited hstep hk
      rw [amount_creditOf]
      exact sub_nonneg.mpr hle
  · rw [creditedOn_concat]
    have ht := h.threads t
    split_ifs with hthread
    · subst hthread
      linarith
    · rcases Profiler.step_currentRusage hstep t with hsame | ⟨heq, -⟩
      · rw [hsame]
        linarith
      · exact absurd heq.symm hthread
  · have htotal := h.total
    rw [everCredited] at htotal ⊢
    simp only [List.map_append, List.sum_append, List.map_cons, List.map_nil, List.sum_cons,
      List.sum_nil, add_zero]
    linarith

/-- The books of every run in which `getrusage` keeps its promise. -/
lemma account_of_run (hrun : Run env l p) (husage : UsageClock (l.map Prod.fst)) (r : Resource) :
    Account r l p := by
  refine LogMachine.RunFrom.invariant
    (I := fun l p => UsageClock (l.map Prod.fst) → Account r l p) ?_ ?_ hrun husage
  · intro _
    have hzero : ({} : RUsage).amount r = 0 := by cases r <;> rfl
    exact ⟨by simp, fun t => hzero.ge, le_of_eq rfl⟩
  · intro l p e o p' hrun ih hstep husage
    rw [List.map_append] at husage
    exact (ih husage.of_append).step hstep (currentRusage_le hrun husage r)

/-- **Conservation of CPU time and context switches.** In every run of the machine, cleaner steps
included, in which `getrusage` keeps its promise: every credit is non-negative; what was credited
on a thread is at most what `getrusage` last answered there; and what all records ever created
were credited with is at most the sum of the last answers over all threads.

**Proof sketch.** By `step_account` a step credits at most what it adds to the baseline of its
thread, so the credits of a thread telescope to at most its baseline. The records gain at most
what is credited. -/
theorem cpu_conservation (hrun : Run env l p) (husage : UsageClock (l.map Prod.fst))
    (r : Resource) :
    (∀ x ∈ l, ∀ c k, .credited c k ∈ x.2 → 0 ≤ k.amount r) ∧
      (∀ t, creditedOn r t l ≤ (p.locals t).currentRusage.amount r) ∧
      everCredited r l p ≤ ∑ t ∈ threadsOf l, (p.locals t).currentRusage.amount r := by
  have haccount := account_of_run hrun husage r
  refine ⟨haccount.nonneg, haccount.threads, ?_⟩
  calc everCredited r l p ≤ (l.map fun x => creditedIn r x.2).sum := haccount.total
    _ = ∑ t ∈ threadsOf l, creditedOn r t l := (sum_creditedOn r l).symm
    _ ≤ ∑ t ∈ threadsOf l, (p.locals t).currentRusage.amount r :=
      Finset.sum_le_sum fun t _ => haccount.threads t

/-- A usage of user time only. -/
def RUsage.ofUser (tvSec tvUsec : ℤ) : RUsage := { ruUtime := ⟨tvSec, tvUsec⟩ }

/-- A coroutine that runs on one thread, over the end of a second of CPU time, and then on
another. -/
def migratedRun : List Event :=
  [⟨⟨1, 1, .ofUser 1 800000⟩, .coroutineCreated 7⟩, ⟨⟨1, 2, .ofUser 1 900000⟩, .coroutineResumed 7⟩,
    ⟨⟨1, 5, .ofUser 2 100000⟩, .coroutineSuspended 7 none⟩,
    ⟨⟨2, 6, .ofUser 0 500⟩, .coroutineResumed 7⟩, ⟨⟨2, 9, .ofUser 0 700⟩, .coroutineCompleted 7⟩]

/-- In that run 200 ms and 200 μs are credited, of the 2.1 s and 700 μs that the threads used. -/
theorem cpu_conservation_migratedRun :
    ∃ l p, Run .sample l p ∧ l.map Prod.fst = migratedRun ∧ UsageClock (l.map Prod.fst) ∧
      everCredited .user l p = 200200 ∧
      everCredited .user l p ≤ ∑ t ∈ threadsOf l, (p.locals t).currentRusage.amount .user := by
  have hexec : ((machine .sample).exec (machine .sample).init migratedRun).map
      (fun q => everCredited .user q.2 q.1) = some 200200 := by decide
  obtain ⟨l, p, hrun, hes, hcredited⟩ := LogMachine.exists_run_of_map_exec hexec
  have husage : UsageClock (l.map Prod.fst) := by rw [hes]; decide
  exact ⟨l, p, hrun, hes, husage, hcredited, (cpu_conservation hrun husage .user).2.2⟩

end Run

end KotlinTracer
