import KotlinTracer.Accounting.Books

set_option relaxedAutoImplicit false
set_option autoImplicit false

/-!
# Traces of plain functions

A traced function that is no coroutine is traced under the id of its thread: `traceStart(-2)`
creates a record for the thread, if it has none, and `traceEnd(-2)` credits it. The credit is taken
from `last_resume` of the record and from the usage that the thread read last, and `traceStart`
refreshes neither of the two. So whether the record grows between the two calls by the time and
the usage between them depends on everything that ran before: earlier traces on the thread, the
callbacks with its id, and the cleaner. The books of the calls say exactly when it does.

## Main definitions

* `KotlinTracer.RecordGrows` — how the record of an id compares at two points of a run.
* `KotlinTracer.MeterGrows` — how its meter compares, from the calls.

## Main results

* `KotlinTracer.kept_iff` — the calls say whether the record is kept.
* `KotlinTracer.plainTrace_exact_iff` — the calls say whether the growth of the record is right.
* `KotlinTracer.plainTrace_counts_twice` — the second trace on a thread counts the time since the
  first one began.
-/

namespace KotlinTracer

variable {env : Env}

/-! ## Growth of a record, and of its meter -/

/-- From `p₀` along `l₁` and up to `p₂` the record of `c` is kept, and `P` compares the record at
`p₀` with that at `p₂`. -/
def RecordGrows (env : Env) (c : JLong) (p₀ : Profiler) (l₁ : Log) (p₂ : Profiler)
    (P : CoroutineInfo → CoroutineInfo → Prop) : Prop :=
  (machine env).Throughout p₀ (fun _ p => (p.storage.getCoroutineInfo c).isSome) l₁ ∧
    ∃ info₀ info₂, p₀.storage.getCoroutineInfo c = some info₀ ∧
      p₂.storage.getCoroutineInfo c = some info₂ ∧ P info₀ info₂

/-- By the calls `es` and then `es₁`, the record of `c` is never dropped by one of `es₁`. -/
def Kept (env : Env) (c : JLong) (es es₁ : List Event) : Prop :=
  ∀ m, m <+: es₁ → ((books env (es ++ m)).meter c).isSome

instance (c : JLong) (es es₁ : List Event) : Decidable (Kept env c es es₁) :=
  decidable_of_iff (∀ m ∈ es₁.inits, ((books env (es ++ m)).meter c).isSome)
    (forall_congr' fun m => by rw [List.mem_inits])

/-- By the calls `es` and then `es₁`, the record of `c` is kept along `es₁`, and `P` compares its
meter before `es₁` with that after `es₁`. -/
def MeterGrows (env : Env) (c : JLong) (es es₁ : List Event) (P : Meter → Meter → Prop) : Prop :=
  Kept env c es es₁ ∧ ∃ w₀ w, (books env es).meter c = some w₀ ∧
    (books env (es ++ es₁)).meter c = some w ∧ P w₀ w

/-- **The calls say whether the record is kept.** -/
lemma kept_iff {c : JLong} {l l₁ : Log} {p₀ p₁ : Profiler} (hrun : Run env l p₀)
    (hrun₁ : (machine env).RunFrom p₀ l₁ p₁) :
    (machine env).Throughout p₀ (fun _ p => (p.storage.getCoroutineInfo c).isSome) l₁ ↔
      Kept env c (l.map Prod.fst) (l₁.map Prod.fst) := by
  -- the meter after a part of the calls tells of the record after that part of the run
  have hpart : ∀ m p, (machine env).RunFrom p₀ m p →
      ((books env (l.map Prod.fst ++ m.map Prod.fst)).meter c).isSome =
        (p.storage.getCoroutineInfo c).isSome := by
    intro m p hm
    rw [← List.map_append]
    exact ((books_describe ((machine env).runFrom_append.mpr ⟨p₀, hrun, hm⟩)).meter c).isSome_eq
  constructor
  · intro h m ⟨m', hm⟩
    obtain ⟨a, a', rfl, rfl, rfl⟩ := List.map_eq_append_iff.mp hm.symm
    obtain ⟨p, hp, -⟩ := (machine env).runFrom_append.mp hrun₁
    rw [hpart a p hp]
    exact h a a' p rfl hp
  · rintro h m m' p rfl hp
    rw [← hpart m p hp]
    exact h _ (by rw [List.map_append]; exact List.prefix_append _ _)

/-- The comparison of a record that is kept. -/
lemma recordGrows_iff {c : JLong} {p₀ p₂ : Profiler} {l₁ : Log} {info₀ info₂ : CoroutineInfo}
    (hkept : (machine env).Throughout p₀ (fun _ p => (p.storage.getCoroutineInfo c).isSome) l₁)
    (hinfo₀ : p₀.storage.getCoroutineInfo c = some info₀)
    (hinfo₂ : p₂.storage.getCoroutineInfo c = some info₂)
    (P : CoroutineInfo → CoroutineInfo → Prop) :
    RecordGrows env c p₀ l₁ p₂ P ↔ P info₀ info₂ := by
  simp [RecordGrows, hkept, hinfo₀, hinfo₂]

/-- The comparison of the meter of a record that is kept. -/
lemma meterGrows_iff {c : JLong} {es es₁ : List Event} {w₀ w : Meter} (hkept : Kept env c es es₁)
    (hw₀ : (books env es).meter c = some w₀) (hw : (books env (es ++ es₁)).meter c = some w)
    (P : Meter → Meter → Prop) : MeterGrows env c es es₁ P ↔ P w₀ w := by
  simp [MeterGrows, hkept, hw₀, hw]

/-! ## Calls that are not for an id -/

/-- Whether an event is for the record of `c`: a suspension, resumption or completion of `c`, and
the end of a trace of `c`. -/
def Event.changesInfo (env : Env) (c : JLong) (e : Event) : Bool :=
  match e.call with
  | .coroutineSuspended d _ => d = c
  | .coroutineResumed d => d = c
  | .coroutineCompleted d => d = c
  | .traceEnd d => Profiler.traceId env e.thread d = c
  | _ => false

/-- A call that is not for `c` leaves what the meter of `c` shows, unless it drops the record. -/
lemma Books.meterStep_of_not_changesInfo {b : Books} {e : Event} {c : JLong} {w w' : Meter}
    (he : e.changesInfo env c = false) (hw : b.meter c = some w)
    (hw' : b.meterStep env e c = some w') : w'.since = w.since ∧ w'.counted = w.counted := by
  rw [Event.changesInfo] at he
  rw [Books.meterStep] at hw'
  cases hcall : e.call <;>
    simp only [hcall, hw, Option.map_some, Option.getD_some] at he hw' <;> grind [Meter.mark]

/-- Calls that are not for `c` leave what the meter of `c` shows, if they keep the record. -/
lemma Kept.meter_eq {c : JLong} {es es₁ : List Event} {w₀ : Meter} (hkept : Kept env c es es₁)
    (hnone : ∀ e ∈ es₁, e.changesInfo env c = false) (hw₀ : (books env es).meter c = some w₀) :
    ∃ w, (books env (es ++ es₁)).meter c = some w ∧ w.since = w₀.since ∧
      w.counted = w₀.counted := by
  induction es₁ using List.reverseRecOn with
  | nil => exact ⟨w₀, by rw [List.append_nil]; exact hw₀, rfl, rfl⟩
  | append_singleton es₁ e ih =>
    obtain ⟨w, hw, hsince, hcounted⟩ := ih
      (fun m hm => hkept m (hm.trans (List.prefix_append _ _)))
      (fun e' he' => hnone e' (by simp [he']))
    obtain ⟨w', hw'⟩ := Option.isSome_iff_exists.mp (hkept _ List.prefix_rfl)
    refine ⟨w', hw', ?_⟩
    rw [← List.append_assoc, books_concat] at hw'
    obtain ⟨hsince', hcounted'⟩ := Books.meterStep_of_not_changesInfo (hnone e (by simp)) hw hw'
    exact ⟨hsince'.trans hsince, hcounted'.trans hcounted⟩

/-! ## The two calls -/

/-- The meter after a `traceStart` of the thread: a new one starts at the call, another one goes
on. -/
lemma meter_of_traceStart (env : Env) (b : Books) {e₀ : Event}
    (hcall : e₀.call = .traceStart (-2)) :
    (b.step env e₀).meter (env.hashThreadId e₀.thread) =
      some ((b.meter (env.hashThreadId e₀.thread)).getD { since := e₀.now }) := by
  change b.meterStep env e₀ _ = _
  rw [Books.meterStep, hcall]
  exact if_pos ⟨rfl, rfl⟩

/-- The meter after a `traceEnd` of the thread. -/
lemma meter_of_traceEnd (env : Env) (b : Books) {e₁ : Event} (hcall : e₁.call = .traceEnd (-2)) :
    (b.step env e₁).meter (env.hashThreadId e₁.thread) =
      (b.meter (env.hashThreadId e₁.thread)).map
        (.count (b.read e₁.thread) e₁.toContext) := by
  change b.meterStep env e₁ _ = _
  rw [Books.meterStep, hcall]
  exact if_pos rfl

section Pair

variable {l₀ l₁ : Log} {s p₀ p₁ p₂ : Profiler} {e₀ e₁ : Event} {o₀ o₁ : List Effect} {c : JLong}
  {es₀ es₁ : List Event}

/-- **The growth of a record from a point of a run to the `traceEnd` of its thread**, if no `clean`
drops it: what the meter has counted, and what the `traceEnd` counts. -/
lemma growth_of_kept (hrun : Run env l₀ p₀) (hes₀ : l₀.map Prod.fst = es₀)
    (hrun₁ : (machine env).RunFrom p₀ l₁ p₁) (hes₁ : l₁.map Prod.fst = es₁)
    (hend : p₁.step env e₁ = some (p₂, o₁)) (hcall₁ : e₁.call = .traceEnd (-2))
    (hc : env.hashThreadId e₁.thread = c) (husage : UsageClock (es₀ ++ es₁ ++ [e₁]))
    (hkept : Kept env c es₀ es₁) :
    ∃ w₀ w info₀ info₂, (books env es₀).meter c = some w₀ ∧
      (books env (es₀ ++ es₁)).meter c = some w ∧
      p₀.storage.getCoroutineInfo c = some info₀ ∧ p₂.storage.getCoroutineInfo c = some info₂ ∧
      info₂.wallClockRunningTime - info₀.wallClockRunningTime =
        w.counted - w₀.counted + (e₁.now - w.since) ∧
      ∀ r, info₂.amount r - info₀.amount r ≤ w.used r - w₀.used r +
          (e₁.rusage.amount r - ((books env (es₀ ++ es₁)).read e₁.thread).amount r) ∧
        ((r = .user ∨ r = .system ∨
          ∀ w ∈ (books env (es₀ ++ es₁ ++ [e₁])).meter c, w.used r < 2 ^ 64) →
          info₂.amount r - info₀.amount r = w.used r - w₀.used r +
            (e₁.rusage.amount r - ((books env (es₀ ++ es₁)).read e₁.thread).amount r)) := by
  subst hes₀ hes₁ hc
  have hrun' : Run env (l₀ ++ l₁) p₁ := (machine env).runFrom_append.mpr ⟨p₀, hrun, hrun₁⟩
  rw [← List.map_append] at husage ⊢
  obtain ⟨w₀, hw₀⟩ := Option.isSome_iff_exists.mp (hkept [] List.nil_prefix)
  rw [List.append_nil] at hw₀
  have hused := fun r => used_le_of_run (r := r) hrun hw₀ hrun₁ husage.of_append hkept
  obtain ⟨w, hw, -⟩ := hused .user
  simp only [hw, Option.some.injEq, exists_eq_left'] at hused
  -- the books after the end
  have hbooks := books_describe hrun'
  have hbooks' := hbooks.step hend
  have hlast := meter_of_traceEnd env (books env ((l₀ ++ l₁).map Prod.fst)) hcall₁
  rw [hw, Option.map_some] at hlast
  have hread := fun r => currentRusage_le hrun' husage r
  simp only [hbooks.read] at hread
  have hle : ∀ r, w₀.used r ≤ (w.count ((books env ((l₀ ++ l₁).map Prod.fst)).read e₁.thread)
      e₁.toContext).used r := by
    intro r
    exact (hused r).trans (le_add_of_nonneg_right (sub_nonneg.mpr (hread r)))
  -- the records that the meters describe
  have hinfo₀ := (books_describe hrun).meter (env.hashThreadId e₁.thread)
  have hinfo₂ := hbooks'.meter (env.hashThreadId e₁.thread)
  rw [hw₀] at hinfo₀
  rw [hlast] at hinfo₂
  generalize hrecord₀ : p₀.storage.getCoroutineInfo (env.hashThreadId e₁.thread) = x₀ at hinfo₀
  generalize hrecord₂ : p₂.storage.getCoroutineInfo (env.hashThreadId e₁.thread) = x₂ at hinfo₂
  cases hinfo₀ with
  | @some _ info₀ hinfo₀ =>
  cases hinfo₂ with
  | @some _ info₂ hinfo₂ =>
  refine ⟨w₀, w, info₀, info₂, hw₀, hw, rfl, rfl, ?_, fun r => ⟨?_, fun hr => ?_⟩⟩
  · rw [hinfo₀.counted, hinfo₂.counted, Meter.count]
    ring
  · rw [hinfo₀.used, hinfo₂.used, sub_add_eq_add_sub]
    exact r.stored_sub_le (hle r)
  · have hnonneg := used_nonneg_of_run hrun (by
      rw [List.map_append] at husage
      exact husage.of_append.of_append) hw₀ r
    rw [books_concat, hlast] at hr
    rw [hinfo₀.used, hinfo₂.used, sub_add_eq_add_sub]
    exact Resource.stored_sub_eq hnonneg (hle r) (by simpa using hr)

/-- **When the record of a plain function grows by what the function took.** A `traceStart(-2)` is
executed on a thread after the calls `es₀`, and later, after the calls `es₁`, a `traceEnd(-2)` on
it. The calls, which are arbitrary, decide whether the growth of the record of the thread is
right:

* the record is kept and its wall clock grows by the time between the two calls if and only if no
  `clean` in `es₁` drops it and the `traceEnd` counts from the moment up to which the calls in
  `es₁` have counted: `e₀.now` plus what they have counted;
* if no call of `es₁` is for the record, that is the case if and only if the record did not exist
  before the `traceStart`, or was created or last resumed at the very time of the `traceStart`;
* the record is kept and a quantity of the usage grows by at most what the thread used between the
  two calls if no `clean` in `es₁` drops it and the usage that the thread read last, before the
  `traceEnd`, is at least its usage at the `traceStart` plus what the calls in `es₁` have counted.
  For the two times the condition is also necessary, and for a number of switches as long as its
  count does not wrap.

**Proof sketch.** The books of the calls describe the state before and after each of the two calls
(`books_describe`), and the `traceEnd` counts from what they say. -/
theorem plainTrace_exact_iff (hrun₀ : Run env l₀ s) (hes₀ : l₀.map Prod.fst = es₀)
    (hstart : s.step env e₀ = some (p₀, o₀)) (hcall₀ : e₀.call = .traceStart (-2))
    (hc : env.hashThreadId e₀.thread = c)
    (hrun₁ : (machine env).RunFrom p₀ l₁ p₁) (hes₁ : l₁.map Prod.fst = es₁)
    (hend : p₁.step env e₁ = some (p₂, o₁)) (hcall₁ : e₁.call = .traceEnd (-2))
    (hthread : e₁.thread = e₀.thread) (husage : UsageClock (es₀ ++ [e₀] ++ es₁ ++ [e₁])) :
    (RecordGrows env c p₀ l₁ p₂ (fun info₀ info₂ =>
        info₂.wallClockRunningTime - info₀.wallClockRunningTime = e₁.now - e₀.now) ↔
      MeterGrows env c (es₀ ++ [e₀]) es₁ fun w₀ w =>
        w.since = e₀.now + (w.counted - w₀.counted)) ∧
    (Kept env c (es₀ ++ [e₀]) es₁ → (∀ e ∈ es₁, e.changesInfo env c = false) →
      (RecordGrows env c p₀ l₁ p₂ (fun info₀ info₂ =>
          info₂.wallClockRunningTime - info₀.wallClockRunningTime = e₁.now - e₀.now) ↔
        ∀ w ∈ (books env es₀).meter c, w.since = e₀.now)) ∧
    (∀ r, MeterGrows env c (es₀ ++ [e₀]) es₁ (fun w₀ w =>
        e₀.rusage.amount r + (w.used r - w₀.used r) ≤
          ((books env (es₀ ++ [e₀] ++ es₁)).read e₀.thread).amount r) →
      RecordGrows env c p₀ l₁ p₂ fun info₀ info₂ =>
        info₂.amount r - info₀.amount r ≤ e₁.rusage.amount r - e₀.rusage.amount r) ∧
    ∀ r, (r = .user ∨ r = .system ∨
        ∀ w ∈ (books env (es₀ ++ [e₀] ++ es₁ ++ [e₁])).meter c, w.used r < 2 ^ 64) →
      (RecordGrows env c p₀ l₁ p₂ (fun info₀ info₂ =>
          info₂.amount r - info₀.amount r ≤ e₁.rusage.amount r - e₀.rusage.amount r) ↔
        MeterGrows env c (es₀ ++ [e₀]) es₁ fun w₀ w =>
          e₀.rusage.amount r + (w.used r - w₀.used r) ≤
            ((books env (es₀ ++ [e₀] ++ es₁)).read e₀.thread).amount r) := by
  have hrun : Run env (l₀ ++ [(e₀, o₀)]) p₀ := (machine env).runFrom_concat.mpr ⟨s, hrun₀, hstart⟩
  have hes : (l₀ ++ [(e₀, o₀)]).map Prod.fst = es₀ ++ [e₀] := by rw [List.map_append, hes₀]; rfl
  have hthrough := kept_iff (c := c) hrun hrun₁
  rw [hes, hes₁] at hthrough
  by_cases hkept : Kept env c (es₀ ++ [e₀]) es₁
  · obtain ⟨w₀, w, info₀, info₂, hw₀, hw, hinfo₀, hinfo₂, hwall, hamount⟩ :=
      growth_of_kept hrun hes hrun₁ hes₁ hend hcall₁ (by rw [hthread, hc]) husage hkept
    rw [hthread] at hamount
    have hfirst := meter_of_traceStart env (books env es₀) hcall₀
    rw [hc, ← books_concat, hw₀, Option.some.injEq] at hfirst
    have hrecord := fun P => recordGrows_iff (hthrough.mpr hkept) hinfo₀ hinfo₂ P
    have hmeter := fun P => meterGrows_iff hkept hw₀ hw P
    simp only [hrecord, hmeter]
    refine ⟨?_, fun _ hnone => ?_, fun r hr => ?_, fun r hr => ?_⟩
    · rw [hwall]
      constructor <;> intro h <;> linarith
    · obtain ⟨w', hw', hsince, hcounted⟩ := hkept.meter_eq hnone hw₀
      obtain rfl : w = w' := Option.some.inj (hw.symm.trans hw')
      have hold : (∀ v ∈ (books env es₀).meter c, v.since = e₀.now) ↔ w₀.since = e₀.now := by
        rw [hfirst]
        cases (books env es₀).meter c <;> simp
      rw [hold, hwall, hsince, hcounted]
      constructor <;> intro h <;> linarith
    · have hle := (hamount r).1
      linarith
    · rw [(hamount r).2 hr]
      constructor <;> intro h <;> linarith
  · have hrecord : ∀ P, ¬ RecordGrows env c p₀ l₁ p₂ P := fun P h => hkept (hthrough.mp h.1)
    have hmeter : ∀ P, ¬ MeterGrows env c (es₀ ++ [e₀]) es₁ P := fun P h => hkept h.1
    simp only [hrecord, hmeter, hkept]
    simp

end Pair

/-! ## Concrete runs -/

/-- The calls before a traced function on a thread. -/
def beforePlainTrace : List Event := [⟨⟨1, 1, .ofUser 0 0⟩, .threadStart "main" 0 0⟩]

/-- The calls inside of it: a suspension and a resumption with the id of the thread, and the
creation of a coroutine. -/
def insidePlainTrace : List Event :=
  [⟨⟨1, 3, .ofUser 1 0⟩, .coroutineSuspended 1001 none⟩,
    ⟨⟨1, 3, .ofUser 1 0⟩, .coroutineResumed 1001⟩, ⟨⟨1, 4, .ofUser 2 0⟩, .coroutineCreated 7⟩]

/-- From time 2 to 5 the wall clock of the record grows by 3, and its CPU time by no more than the
three seconds that the thread used. -/
theorem plainTrace_exact_insidePlainTrace :
    ∃ l₀ p₀ l₁ p₁ p₂ o₁, Run .sample l₀ p₀ ∧
      l₀.map Prod.fst = beforePlainTrace ++ [⟨⟨1, 2, .ofUser 0 0⟩, .traceStart (-2)⟩] ∧
      (machine .sample).RunFrom p₀ l₁ p₁ ∧ l₁.map Prod.fst = insidePlainTrace ∧
      p₁.step .sample ⟨⟨1, 5, .ofUser 3 0⟩, .traceEnd (-2)⟩ = some (p₂, o₁) ∧
      RecordGrows .sample 1001 p₀ l₁ p₂ (fun info₀ info₂ =>
        info₂.wallClockRunningTime - info₀.wallClockRunningTime = 5 - 2) ∧
      RecordGrows .sample 1001 p₀ l₁ p₂ fun info₀ info₂ =>
        info₂.amount .user - info₀.amount .user ≤ 3000000 := by
  have hexec : ((machine .sample).exec (machine .sample).init
      (beforePlainTrace ++ [⟨⟨1, 2, .ofUser 0 0⟩, .traceStart (-2)⟩])).map
      (fun q => ((machine .sample).exec q.1 insidePlainTrace).map fun r =>
        (r.1.step .sample ⟨⟨1, 5, .ofUser 3 0⟩, .traceEnd (-2)⟩).isSome) =
      some (some true) := by decide
  obtain ⟨l₀, s, o₀, p₀, hrun₀, hes₀, hstart, hrest⟩ := LogMachine.exists_last_of_map_exec hexec
  obtain ⟨⟨p₁, l₁⟩, hexec₁, hend⟩ := Option.map_eq_some_iff.mp hrest
  obtain ⟨⟨p₂, o₁⟩, hend⟩ := Option.isSome_iff_exists.mp hend
  have hrun₁ := (machine .sample).runFrom_of_exec hexec₁
  have hes₁ := (machine .sample).map_fst_of_exec hexec₁
  have hstep : s.step .sample ⟨⟨1, 2, .ofUser 0 0⟩, .traceStart (-2)⟩ = some (p₀, o₀) := hstart
  obtain ⟨hwall, -, husage, -⟩ := plainTrace_exact_iff hrun₀ hes₀ hstep rfl rfl hrun₁ hes₁ hend
    rfl rfl (by decide)
  refine ⟨_, p₀, l₁, p₁, p₂, o₁, (machine .sample).runFrom_concat.mpr ⟨s, hrun₀, hstart⟩,
    by rw [List.map_append, hes₀]; rfl, hrun₁, hes₁, hend, ?_, ?_⟩
  · exact hwall.mpr ⟨by decide, _, _, rfl, rfl, by decide⟩
  · exact husage .user ⟨by decide, _, _, rfl, rfl, by decide⟩

/-- Two traced functions on a thread, from time 1 to 3 and from 5 to 6, each of which uses a second
of CPU time, like the code between and before them. -/
def secondPlainTrace : List Event :=
  [⟨⟨1, 1, .ofUser 0 0⟩, .threadStart "main" 0 0⟩, ⟨⟨1, 1, .ofUser 1 0⟩, .traceStart (-2)⟩,
    ⟨⟨1, 3, .ofUser 2 0⟩, .traceEnd (-2)⟩, ⟨⟨1, 5, .ofUser 3 0⟩, .traceStart (-2)⟩,
    ⟨⟨1, 6, .ofUser 4 0⟩, .traceEnd (-2)⟩]

/-- **The second traced function on a thread counts the time since the first one began**: from 5
to 6 the wall clock of the record grows by 5, and its CPU time by two seconds although the thread
used one. -/
theorem plainTrace_counts_twice :
    ∃ l₀ p₀ l₁ p₂ info₀ info₂, Run .sample l₀ p₀ ∧
      l₀.map Prod.fst = secondPlainTrace.take 4 ∧ (machine .sample).RunFrom p₀ l₁ p₂ ∧
      l₁.map Prod.fst = secondPlainTrace.drop 4 ∧ PositiveClock secondPlainTrace ∧
      UsageClock secondPlainTrace ∧
      p₀.storage.getCoroutineInfo 1001 = some info₀ ∧
      p₂.storage.getCoroutineInfo 1001 = some info₂ ∧
      info₂.wallClockRunningTime - info₀.wallClockRunningTime = 5 ∧
      info₂.amount .user - info₀.amount .user = 2000000 := by
  have hexec : ((machine .sample).exec (machine .sample).init (secondPlainTrace.take 4)).map
      (fun q => ((q.1.storage.getCoroutineInfo 1001).map fun info =>
          (info.wallClockRunningTime, info.amount .user),
        ((machine .sample).exec q.1 (secondPlainTrace.drop 4)).map fun r =>
          (r.1.storage.getCoroutineInfo 1001).map fun info =>
            (info.wallClockRunningTime, info.amount .user))) =
      some (some (2, 2000000), some (some (7, 4000000))) := by decide
  obtain ⟨l₀, p₀, hrun₀, hes₀, hfacts⟩ := LogMachine.exists_run_of_map_exec hexec
  simp only [Prod.mk.injEq] at hfacts
  obtain ⟨hfirst, hrest⟩ := hfacts
  obtain ⟨⟨p₂, l₁⟩, hexec₁, hsecond⟩ := Option.map_eq_some_iff.mp hrest
  obtain ⟨info₀, hinfo₀, hamounts₀⟩ := Option.map_eq_some_iff.mp hfirst
  obtain ⟨info₂, hinfo₂, hamounts₂⟩ := Option.map_eq_some_iff.mp hsecond
  rw [Prod.mk.injEq] at hamounts₀ hamounts₂
  refine ⟨l₀, p₀, l₁, p₂, info₀, info₂, hrun₀, hes₀, (machine .sample).runFrom_of_exec hexec₁,
    (machine .sample).map_fst_of_exec hexec₁, by decide, by decide, hinfo₀, hinfo₂, ?_, ?_⟩
  · rw [hamounts₀.1, hamounts₂.1]
    rfl
  · rw [hamounts₀.2, hamounts₂.2]
    rfl

end KotlinTracer
