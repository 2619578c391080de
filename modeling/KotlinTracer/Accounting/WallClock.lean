import KotlinTracer.Profiler.Steps

set_option relaxedAutoImplicit false
set_option autoImplicit false

/-!
# The wall clock of a coroutine

`wall_clock_running_time` should be the time a coroutine was running: from its creation, or from
the latest resumption, to the first suspension or completion after it. Three callbacks add to it
the time since `last_resume`, but only `coroutineSuspended` clears `last_resume`, so a stretch of
time that was already added is added again by the next call. This file computes the running time
from the events alone and proves exactly which calls keep the two equal.

## Main definitions

* `KotlinTracer.RunningTime`, `KotlinTracer.runningTime` — the running time of a coroutine, from
  the events.
* `KotlinTracer.Phase`, `KotlinTracer.phase` — where in its life a coroutine is, from the events.
* `KotlinTracer.Phase.Allows` — the calls that add the time since `last_resume` for the first
  time.

## Main results

* `KotlinTracer.wallClock_exact_iff` — the wall clock is the running time after every suspension,
  completion and end of a trace, if and only if every such call is allowed by the phase.
* `KotlinTracer.wallClock_exceeds_running_time` — a trace that ends while the coroutine runs, and
  the suspension after it, count the same time twice.
-/

namespace KotlinTracer

/-! ## The running time, from the events -/

/-- What the events say about the running time of a coroutine: when it was created, the length of
the running intervals that have ended, and the begin of the open one. -/
structure RunningTime where
  created : Option TraceTime := none
  closed : TraceTime := 0
  opened : Option TraceTime := none
deriving DecidableEq

namespace RunningTime

/-- The length of the open interval at `now`. -/
def openLength (r : RunningTime) (now : TraceTime) : TraceTime :=
  match r.opened with
  | none => 0
  | some t => now - t

/-- The total length of the running intervals, the open one counting up to `now`. -/
def total (r : RunningTime) (now : TraceTime) : TraceTime := r.closed + r.openLength now

/-- The coroutine is created: the first interval begins. -/
def create (r : RunningTime) (now : TraceTime) : RunningTime :=
  match r.created with
  | none => ⟨some now, 0, some now⟩
  | some _ => r

/-- The coroutine is resumed: an interval begins. -/
def resume (r : RunningTime) (now : TraceTime) : RunningTime :=
  match r.created with
  | none => r
  | some _ => { r with opened := some now }

/-- The coroutine is suspended or completed: the open interval ends. -/
def close (r : RunningTime) (now : TraceTime) : RunningTime :=
  { r with closed := r.total now, opened := none }

/-- What one event says about the running time of `c`. -/
def step (env : Env) (c : JLong) (r : RunningTime) (e : Event) : RunningTime :=
  match e.call with
  | .coroutineCreated d => if c = d then r.create e.now else r
  -- a traced function that is no coroutine gets a record of its thread
  | .traceStart d =>
    if d = -2 ∧ c = Profiler.traceId env e.thread d then r.create e.now else r
  | .coroutineResumed d => if c = d then r.resume e.now else r
  | .coroutineSuspended d _ => if c = d then r.close e.now else r
  | .coroutineCompleted d => if c = d then r.close e.now else r
  | _ => r

end RunningTime

/-- The running time of `c` after the events. -/
def runningTime (env : Env) (c : JLong) (es : List Event) : RunningTime :=
  es.foldl (RunningTime.step env c) {}

/-! ## The phases of a coroutine, from the events -/

/-- Where in its life a coroutine is. -/
inductive Phase
  /-- It was not created yet. -/
  | absent
  /-- It runs since the given time. -/
  | running (since : TraceTime)
  /-- It runs since the given time, and a trace of it ended later than its running began. -/
  | traced (since : TraceTime)
  /-- It is suspended. -/
  | suspended
  /-- It was completed, and its last running interval began at the given time. -/
  | completed (since : TraceTime)
deriving DecidableEq

namespace Phase

/-- The phase after a creation. -/
def create (now : TraceTime) : Phase → Phase
  | absent => running now
  | ph => ph

/-- The phase after a resumption. A trace that ended inside of the running interval that the
resumption cuts off stays credited. -/
def resume (now : TraceTime) : Phase → Phase
  | absent => absent
  | traced _ => traced now
  | _ => running now

/-- The phase after a suspension. -/
def suspend : Phase → Phase
  | absent => absent
  | _ => suspended

/-- The phase after a completion. -/
def complete : Phase → Phase
  | running t => completed t
  | traced t => completed t
  | ph => ph

/-- The phase after the end of a trace; a trace that ends at the very begin of the running
interval adds nothing. -/
def endTrace (now : TraceTime) : Phase → Phase
  | running t => if now = t then running t else traced t
  | ph => ph

/-- The phase of `c` after one event. -/
def step (env : Env) (c : JLong) (ph : Phase) (e : Event) : Phase :=
  match e.call with
  | .coroutineCreated d => if c = d then ph.create e.now else ph
  | .traceStart d =>
    if d = -2 ∧ c = Profiler.traceId env e.thread d then ph.create e.now else ph
  | .coroutineResumed d => if c = d then ph.resume e.now else ph
  | .coroutineSuspended d _ => if c = d then ph.suspend else ph
  | .coroutineCompleted d => if c = d then ph.complete else ph
  | .traceEnd d => if c = Profiler.traceId env e.thread d then ph.endTrace e.now else ph
  | _ => ph

/-- The calls that a phase allows, of those that may credit the coroutine: all of them while it
runs and no trace of it has ended; only suspensions while it is suspended; none once a trace has
ended; and after a completion only such that add nothing, at the time its last interval began. -/
def Allows (ph : Phase) (suspends : Bool) (now : TraceTime) : Prop :=
  match ph with
  | absent => True
  | running _ => True
  | traced _ => False
  | suspended => suspends = true
  | completed t => now = t

instance (ph : Phase) (suspends : Bool) (now : TraceTime) : Decidable (ph.Allows suspends now) :=
  match ph with
  | absent => isTrue trivial
  | running _ => isTrue trivial
  | traced _ => isFalse id
  | suspended => inferInstanceAs (Decidable (suspends = true))
  | completed t => inferInstanceAs (Decidable (now = t))

end Phase

/-- The phase of `c` after the events. -/
def phase (env : Env) (c : JLong) (es : List Event) : Phase :=
  es.foldl (Phase.step env c) .absent

/-- Whether an event is a suspension. -/
def Event.suspends (e : Event) : Bool :=
  match e.call with
  | .coroutineSuspended _ _ => true
  | _ => false

/-- Whether an event is a suspension, a completion or the end of a trace of `c`. -/
def Event.mayCredit (env : Env) (c : JLong) (e : Event) : Bool :=
  match e.call with
  | .coroutineSuspended d _ => c = d
  | .coroutineCompleted d => c = d
  | .traceEnd d => c = Profiler.traceId env e.thread d
  | _ => false

/-- After the event `e`, if it is a suspension, a completion or the end of a trace of `c`, the
wall clock of `c` is its running time, which is at most the time since its creation. -/
def WallClockExact (env : Env) (c : JLong) (es : List Event) (e : Event) : Prop :=
  e.mayCredit env c → ∀ p info, (machine env).Reaches (es ++ [e]) p →
    p.storage.getCoroutineInfo c = some info →
    info.wallClockRunningTime = (runningTime env c (es ++ [e])).total e.now ∧
      ∃ created, (runningTime env c (es ++ [e])).created = some created ∧
        info.wallClockRunningTime ≤ e.now - created

/-- The event `e` is allowed by the phase of `c`. -/
def CreditsOnce (env : Env) (c : JLong) (es : List Event) (e : Event) : Prop :=
  e.mayCredit env c → (phase env c es).Allows e.suspends e.now

instance (env : Env) (c : JLong) (es : List Event) (e : Event) :
    Decidable (CreditsOnce env c es e) :=
  inferInstanceAs (Decidable (_ → _))

/-! ## The record agrees with the events -/

/-- The record of a coroutine agrees with its phase and its running time, as long as every credit
was allowed. -/
def Agrees (ph : Phase) (r : RunningTime) : Option CoroutineInfo → Prop
  | none => ph = .absent ∧ r.created = none
  | some info => r.created ≠ none ∧ match ph with
    | .absent => False
    | .running t => 0 < t ∧ info.lastResume = t ∧ r.opened = some t ∧
        info.wallClockRunningTime = r.closed
    | .traced t => 0 < t ∧ info.lastResume = t ∧ r.opened = some t ∧
        r.closed < info.wallClockRunningTime
    | .suspended => info.lastResume = 0 ∧ r.opened = none ∧ info.wallClockRunningTime = r.closed
    | .completed t => 0 < t ∧ info.lastResume = t ∧ r.opened = none ∧
        info.wallClockRunningTime = r.closed

section Transitions

variable {ph : Phase} {r : RunningTime} {info : CoroutineInfo} {last : RUsage} {ctx : Context}

@[simp] lemma wallClockRunningTime_suspendedInfo (c : JLong) (frames : Option (List StackFrame)) :
    (suspendedInfo last ctx c frames info).wallClockRunningTime =
      if 0 < info.lastResume then info.wallClockRunningTime + (ctx.now - info.lastResume)
      else info.wallClockRunningTime := by
  cases frames <;> simp only [suspendedInfo, recordSuspension, pausedInfo] <;> split_ifs <;> rfl

@[simp] lemma lastResume_suspendedInfo (c : JLong) (frames : Option (List StackFrame)) :
    (suspendedInfo last ctx c frames info).lastResume =
      if 0 < info.lastResume then 0 else info.lastResume := by
  cases frames <;> simp only [suspendedInfo, recordSuspension, pausedInfo] <;> split_ifs <;> rfl

/-- A creation, of a coroutine that may exist already. -/
lemma Agrees.create {old : Option CoroutineInfo} {now : TraceTime} (hnow : 0 < now)
    (h : Agrees ph r old) :
    Agrees (ph.create now) (r.create now)
      (some (old.getD (TraceStorage.newCoroutineInfo now))) := by
  cases old with
  | none =>
    obtain ⟨rfl, hcreated⟩ := h
    simp [Agrees, Phase.create, RunningTime.create, hcreated, hnow]
  | some info =>
    obtain ⟨hcreated, hph⟩ := h
    obtain ⟨t, ht⟩ := Option.ne_none_iff_exists'.mp hcreated
    have hr : r.create now = r := by simp [RunningTime.create, ht]
    have hphase : ph.create now = ph := by
      cases ph with
      | absent => exact hph.elim
      | _ => rfl
    rw [hr, hphase]
    exact ⟨hcreated, hph⟩

/-- A resumption. -/
lemma Agrees.resume {now : TraceTime} (hnow : 0 < now) (h : Agrees ph r (some info)) :
    Agrees (ph.resume now) (r.resume now) (some (resumedInfo now info)) := by
  obtain ⟨hcreated, hph⟩ := h
  obtain ⟨t, ht⟩ := Option.ne_none_iff_exists'.mp hcreated
  have hr : r.resume now = { r with opened := some now } := by simp [RunningTime.resume, ht]
  rw [hr]
  refine ⟨hcreated, ?_⟩
  cases ph with
  | absent => exact hph.elim
  | running t => exact ⟨hnow, rfl, rfl, hph.2.2.2⟩
  | traced t => exact ⟨hnow, rfl, rfl, hph.2.2.2⟩
  | suspended => exact ⟨hnow, rfl, rfl, hph.2.2⟩
  | completed t => exact ⟨hnow, rfl, rfl, hph.2.2.2⟩

/-- Ending an interval does not change the total. -/
lemma RunningTime.total_close (r : RunningTime) (now : TraceTime) :
    (r.close now).total now = r.total now := by
  simp [close, total, openLength]

/-- The total with an open interval. -/
lemma RunningTime.total_of_opened {t : TraceTime} (h : r.opened = some t) (now : TraceTime) :
    r.total now = r.closed + (now - t) := by
  rw [total, openLength, h]

/-- The total without an open interval. -/
lemma RunningTime.total_of_not_opened (h : r.opened = none) (now : TraceTime) :
    r.total now = r.closed := by
  rw [total, openLength, h, add_zero]

/-- A suspension: the wall clock is right exactly if the suspension is allowed, and then the
record agrees again. -/
lemma Agrees.suspend (c : JLong) (frames : Option (List StackFrame))
    (h : Agrees ph r (some info)) :
    ((suspendedInfo last ctx c frames info).wallClockRunningTime =
        (r.close ctx.now).total ctx.now ↔ ph.Allows true ctx.now) ∧
      (ph.Allows true ctx.now →
        Agrees ph.suspend (r.close ctx.now) (some (suspendedInfo last ctx c frames info))) := by
  obtain ⟨hcreated, hph⟩ := h
  rw [RunningTime.total_close]
  cases ph with
  | absent => exact hph.elim
  | running t =>
    obtain ⟨ht, hlast, hopened, hwall⟩ := hph
    have hnew : (suspendedInfo last ctx c frames info).wallClockRunningTime = r.total ctx.now := by
      simp [hlast, ht, hwall, RunningTime.total_of_opened hopened]
    exact ⟨iff_of_true hnew trivial, fun _ => ⟨hcreated, by simp [hlast, ht], rfl, hnew⟩⟩
  | traced t =>
    obtain ⟨ht, hlast, hopened, hwall⟩ := hph
    refine ⟨iff_of_false ?_ id, False.elim⟩
    rw [wallClockRunningTime_suspendedInfo, hlast, if_pos ht, RunningTime.total_of_opened hopened]
    intro heq
    linarith
  | suspended =>
    obtain ⟨hlast, hopened, hwall⟩ := hph
    have hnew : (suspendedInfo last ctx c frames info).wallClockRunningTime = r.total ctx.now := by
      simp [hlast, hwall, RunningTime.total_of_not_opened hopened]
    exact ⟨iff_of_true hnew rfl, fun _ => ⟨hcreated, by simp [hlast], rfl, hnew⟩⟩
  | completed t =>
    obtain ⟨ht, hlast, hopened, hwall⟩ := hph
    have hnew : (suspendedInfo last ctx c frames info).wallClockRunningTime = r.total ctx.now ↔
        ctx.now = t := by
      rw [wallClockRunningTime_suspendedInfo, hlast, if_pos ht, hwall,
        RunningTime.total_of_not_opened hopened]
      constructor <;> intro heq <;> linarith
    exact ⟨hnew, fun heq => ⟨hcreated, by simp [hlast, ht], rfl, hnew.mpr heq⟩⟩

/-- A credit without a suspension, at a completion or at the end of a trace: the wall clock is
right exactly if the credit is allowed. -/
lemma Agrees.credit {info' : CoroutineInfo} {now : TraceTime} (hnow : 0 < now)
    (hwall' : info'.wallClockRunningTime = info.wallClockRunningTime + (now - info.lastResume))
    (h : Agrees ph r (some info)) :
    info'.wallClockRunningTime = r.total now ↔ ph.Allows false now := by
  obtain ⟨-, hph⟩ := h
  rw [hwall']
  cases ph with
  | absent => exact hph.elim
  | running t =>
    obtain ⟨ht, hlast, hopened, hwall⟩ := hph
    refine iff_of_true ?_ trivial
    rw [hlast, hwall, RunningTime.total_of_opened hopened]
  | traced t =>
    obtain ⟨ht, hlast, hopened, hwall⟩ := hph
    refine iff_of_false ?_ id
    rw [hlast, RunningTime.total_of_opened hopened]
    intro heq
    linarith
  | suspended =>
    obtain ⟨hlast, hopened, hwall⟩ := hph
    refine iff_of_false ?_ Bool.false_ne_true
    rw [hlast, hwall, RunningTime.total_of_not_opened hopened]
    intro heq
    linarith
  | completed t =>
    obtain ⟨ht, hlast, hopened, hwall⟩ := hph
    rw [hlast, hwall, RunningTime.total_of_not_opened hopened, Phase.Allows]
    constructor <;> intro heq <;> linarith

/-- A completion that is allowed. -/
lemma Agrees.complete (hnow : 0 < ctx.now) (h : Agrees ph r (some info))
    (hallows : ph.Allows false ctx.now) :
    Agrees ph.complete (r.close ctx.now) (some (completedInfo last ctx info)) := by
  have hcredit : (completedInfo last ctx info).wallClockRunningTime = _ := rfl
  have hwall := (h.credit hnow hcredit).mpr hallows
  obtain ⟨hcreated, hph⟩ := h
  refine ⟨hcreated, ?_⟩
  cases ph with
  | absent => exact hph.elim
  | running t => exact ⟨hph.1, hph.2.1, rfl, hwall⟩
  | traced t => exact hallows.elim
  | suspended => exact absurd hallows Bool.false_ne_true
  | completed t => exact ⟨hph.1, hph.2.1, rfl, hwall⟩

/-- The end of a trace that is allowed, at or after the begin of the running interval. -/
lemma Agrees.endTrace (hnow : 0 < ctx.now) (hle : ∀ t, r.opened = some t → t ≤ ctx.now)
    (h : Agrees ph r (some info)) (hallows : ph.Allows false ctx.now) :
    Agrees (ph.endTrace ctx.now) r (some (creditedInfo last ctx info)) := by
  have hcredit : (creditedInfo last ctx info).wallClockRunningTime = _ := rfl
  have hwall := (h.credit hnow hcredit).mpr hallows
  obtain ⟨hcreated, hph⟩ := h
  refine ⟨hcreated, ?_⟩
  cases ph with
  | absent => exact hph.elim
  | running t =>
    obtain ⟨ht, hlast, hopened, _⟩ := hph
    rw [RunningTime.total_of_opened hopened] at hwall
    rw [Phase.endTrace]
    split_ifs with heq
    · refine ⟨ht, hlast, hopened, ?_⟩
      rw [hwall, heq]
      ring
    · have hlt : t < ctx.now := lt_of_le_of_ne (hle t hopened) (Ne.symm heq)
      refine ⟨ht, hlast, hopened, ?_⟩
      rw [hwall]
      linarith
  | traced t => exact hallows.elim
  | suspended => exact absurd hallows Bool.false_ne_true
  | completed t =>
    obtain ⟨ht, hlast, hopened, _⟩ := hph
    rw [RunningTime.total_of_not_opened hopened] at hwall
    exact ⟨ht, hlast, hopened, hwall⟩

end Transitions

/-- **One step keeps the record in agreement**, if the credit it makes is allowed. -/
lemma Agrees.step {env : Env} {p p' : Profiler} {e : Event} {o : List Effect} {c : JLong}
    {ph : Phase} {r : RunningTime} (hstep : p.step env e = some (p', o)) (hnow : 0 < e.now)
    (hclean : e.call ≠ .clean) (hle : ∀ t, r.opened = some t → t ≤ e.now)
    (hallows : e.mayCredit env c → ph.Allows e.suspends e.now)
    (h : Agrees ph r (p.storage.getCoroutineInfo c)) :
    Agrees (ph.step env c e) (r.step env c e) (p'.storage.getCoroutineInfo c) := by
  obtain ⟨frames, hinfo⟩ := Profiler.step_info hstep
  rw [hinfo c]
  obtain ⟨ctx, call⟩ := e
  generalize (p.locals ctx.thread).currentRusage = last
  generalize p.storage.getCoroutineInfo c = old at h
  cases call with
  | coroutineCreated d =>
    simp only [infoUpdate, Phase.step, RunningTime.step]
    split_ifs
    · exact h.create hnow
    · exact h
  | traceStart d =>
    simp only [infoUpdate, Phase.step, RunningTime.step]
    split_ifs
    · exact h.create hnow
    · exact h
  | coroutineSuspended d stack =>
    simp only [infoUpdate, Phase.step, RunningTime.step]
    split_ifs with hc
    · cases old with
      | none => exact ⟨by rw [h.1]; rfl, h.2⟩
      | some info => exact (h.suspend c frames).2 (hallows (by simpa [Event.mayCredit] using hc))
    · exact h
  | coroutineResumed d =>
    simp only [infoUpdate, Phase.step, RunningTime.step]
    split_ifs
    · cases old with
      | none => exact ⟨by rw [h.1]; rfl, by simp [RunningTime.resume, h.2]⟩
      | some info => exact h.resume hnow
    · exact h
  | coroutineCompleted d =>
    simp only [infoUpdate, Phase.step, RunningTime.step]
    split_ifs with hc
    · cases old with
      | none => exact ⟨by rw [h.1]; rfl, h.2⟩
      | some info => exact h.complete hnow (hallows (by simpa [Event.mayCredit] using hc))
    · exact h
  | traceEnd d =>
    simp only [infoUpdate, Phase.step, RunningTime.step]
    split_ifs with hc
    · cases old with
      | none => exact ⟨by rw [h.1]; rfl, h.2⟩
      | some info => exact h.endTrace hnow hle (hallows (by simpa [Event.mayCredit] using hc))
    · exact h
  | clean => exact absurd rfl hclean
  | _ => exact h

/-- **One step makes the wall clock right exactly if its credit is allowed.** -/
lemma Agrees.exact_iff {env : Env} {p p' : Profiler} {e : Event} {o : List Effect} {c : JLong}
    {ph : Phase} {r : RunningTime} (hstep : p.step env e = some (p', o)) (hnow : 0 < e.now)
    (hcredit : e.mayCredit env c) (h : Agrees ph r (p.storage.getCoroutineInfo c)) :
    (∀ info, p'.storage.getCoroutineInfo c = some info →
      info.wallClockRunningTime = (r.step env c e).total e.now) ↔ ph.Allows e.suspends e.now := by
  obtain ⟨frames, hinfo⟩ := Profiler.step_info hstep
  rw [hinfo c]
  obtain ⟨ctx, call⟩ := e
  generalize (p.locals ctx.thread).currentRusage = last
  generalize p.storage.getCoroutineInfo c = old at h
  have hnone : old = none → ph.Allows (Event.suspends ⟨ctx, call⟩) ctx.now := by
    rintro rfl
    rw [h.1]
    trivial
  cases call with
  | coroutineSuspended d stack =>
    have hc : c = d := by simpa [Event.mayCredit] using hcredit
    simp only [infoUpdate, RunningTime.step, if_pos hc]
    cases old with
    | none => simpa using hnone rfl
    | some info =>
      simp only [Option.map_some, Option.some.injEq, forall_eq']
      exact (h.suspend c frames).1
  | coroutineCompleted d =>
    have hc : c = d := by simpa [Event.mayCredit] using hcredit
    simp only [infoUpdate, RunningTime.step, if_pos hc, RunningTime.total_close]
    cases old with
    | none => simpa using hnone rfl
    | some info =>
      simp only [Option.map_some, Option.some.injEq, forall_eq']
      exact h.credit hnow rfl
  | traceEnd d =>
    have hc : c = Profiler.traceId env ctx.thread d := by simpa [Event.mayCredit] using hcredit
    simp only [infoUpdate, RunningTime.step, if_pos hc]
    cases old with
    | none => simpa using hnone rfl
    | some info =>
      simp only [Option.map_some, Option.some.injEq, forall_eq']
      exact h.credit hnow rfl
  | _ => simp [Event.mayCredit] at hcredit

/-! ## Runs -/

/-- The running time so far is at most the time since the creation, and the open interval began
in the past. -/
def RunningTime.Bounded (r : RunningTime) (now : TraceTime) : Prop :=
  (∀ t, r.opened = some t → t ≤ now) ∧ ∀ t, r.created = some t → r.total now ≤ now - t

namespace RunningTime

variable {r : RunningTime} {now now' : TraceTime}

/-- The bound stays while time passes. -/
lemma Bounded.mono (h : r.Bounded now) (hle : now ≤ now') : r.Bounded now' := by
  refine ⟨fun t ht => (h.1 t ht).trans hle, fun t ht => ?_⟩
  have hbound := h.2 t ht
  cases hopened : r.opened with
  | none =>
    rw [total_of_not_opened hopened] at hbound ⊢
    linarith
  | some t' =>
    rw [total_of_opened hopened] at hbound ⊢
    linarith

/-- Ended intervals are not longer than all intervals. -/
lemma Bounded.closed_le (h : r.Bounded now) : r.closed ≤ r.total now := by
  cases hopened : r.opened with
  | none => rw [total_of_not_opened hopened]
  | some t =>
    have hle := h.1 t hopened
    rw [total_of_opened hopened]
    linarith

/-- One event keeps the bound. -/
lemma Bounded.step (env : Env) (c : JLong) {e : Event} (h : r.Bounded e.now) :
    (r.step env c e).Bounded e.now := by
  have hcreate : (r.create e.now).Bounded e.now := by
    cases hcreated : r.created with
    | none => simp [create, hcreated, Bounded, total, openLength]
    | some t => simpa [create, hcreated] using h
  have hresume : (r.resume e.now).Bounded e.now := by
    cases hcreated : r.created with
    | none => simpa [resume, hcreated] using h
    | some t =>
      have hclosed := h.closed_le.trans (h.2 t hcreated)
      refine ⟨?_, fun t' ht' => ?_⟩
      · simp [resume, hcreated]
      · simp only [resume, hcreated, Option.some.injEq] at ht'
        subst ht'
        simpa [resume, hcreated, total, openLength] using hclosed
  have hclose : (r.close e.now).Bounded e.now := by
    refine ⟨fun t ht => by simp [close] at ht, fun t ht => ?_⟩
    rw [total_close]
    exact h.2 t ht
  rw [RunningTime.step]
  split <;> first | exact h | (split_ifs <;> assumption)

end RunningTime

/-- The running time of a list with one more event. -/
lemma runningTime_concat (env : Env) (c : JLong) (es : List Event) (e : Event) :
    runningTime env c (es ++ [e]) = (runningTime env c es).step env c e := by
  simp [runningTime]

/-- The phase after one more event. -/
lemma phase_concat (env : Env) (c : JLong) (es : List Event) (e : Event) :
    phase env c (es ++ [e]) = (phase env c es).step env c e := by
  simp [phase]

/-- The running time is bounded at every time that is not before an event. -/
lemma runningTime_bounded (env : Env) (c : JLong) {es : List Event} (h : PositiveClock es)
    {now : TraceTime} (hnow : ∀ e ∈ es, e.now ≤ now) : (runningTime env c es).Bounded now := by
  induction es using List.reverseRecOn generalizing now with
  | nil => refine ⟨fun t ht => ?_, fun t ht => ?_⟩ <;> cases ht
  | append_singleton es e ih =>
    obtain ⟨hes, _, hle⟩ := h.of_concat
    rw [runningTime_concat]
    exact ((ih hes hle).step env c).mono (hnow e (by simp))

/-- **In every run whose credits are all allowed, the record agrees with the events.** -/
lemma agrees_of_reaches {env : Env} {c : JLong} {es : List Event} {p : Profiler}
    (hrun : (machine env).Reaches es p) (hclock : PositiveClock es)
    (hclean : ∀ e ∈ es, e.call ≠ .clean) (hcredits : es.AtEvery (CreditsOnce env c)) :
    Agrees (phase env c es) (runningTime env c es) (p.storage.getCoroutineInfo c) := by
  refine LogMachine.Reaches.invariant (I := fun es p => PositiveClock es →
    (∀ e ∈ es, e.call ≠ .clean) → es.AtEvery (CreditsOnce env c) →
    Agrees (phase env c es) (runningTime env c es) (p.storage.getCoroutineInfo c))
    ?_ ?_ hrun hclock hclean hcredits
  · intro _ _ _
    exact ⟨rfl, rfl⟩
  · intro es p e o p' _ ih hstep hclock hclean hcredits
    obtain ⟨hclock, hnow, hle⟩ := hclock.of_concat
    obtain ⟨hcredits, hcredit⟩ := List.atEvery_concat.mp hcredits
    have hagrees := ih hclock (fun e' he' => hclean e' (by simp [he'])) hcredits
    rw [phase_concat, runningTime_concat]
    exact hagrees.step hstep hnow (hclean e (by simp))
      (runningTime_bounded env c hclock hle).1 hcredit

/-- At the end of a run whose credits so far are all allowed, the next step leaves the wall clock
right exactly if its credit is allowed. -/
lemma wallClockExact_iff {env : Env} {c : JLong} {es : List Event} {e : Event} {p : Profiler}
    (hrun : (machine env).Reaches (es ++ [e]) p) (hclock : PositiveClock (es ++ [e]))
    (hclean : ∀ e' ∈ es ++ [e], e'.call ≠ .clean) (hcredits : es.AtEvery (CreditsOnce env c)) :
    WallClockExact env c es e ↔ CreditsOnce env c es e := by
  obtain ⟨q, o, hq, hstep⟩ := (machine env).reaches_concat.mp hrun
  obtain ⟨hclock', hnow, hle⟩ := hclock.of_concat
  have hagrees := agrees_of_reaches hq hclock' (fun e' he' => hclean e' (by simp [he'])) hcredits
  refine forall_congr' fun hcredit => ?_
  have hexact := hagrees.exact_iff hstep hnow hcredit
  rw [← runningTime_concat] at hexact
  rw [← hexact]
  constructor
  · intro h info hinfo
    exact (h p info hrun hinfo).1
  · intro h p' info hrun' hinfo
    rw [← hrun.unique hrun'] at hinfo
    have hwall := h info hinfo
    have hafter := hagrees.step hstep hnow (hclean e (by simp))
      (runningTime_bounded env c hclock' hle).1 fun _ => hexact.mp h
    rw [hinfo, ← runningTime_concat] at hafter
    obtain ⟨created, hcreated⟩ := Option.ne_none_iff_exists'.mp hafter.1
    have hle' : ∀ e' ∈ es ++ [e], e'.now ≤ e.now := by
      intro e' he'
      rcases List.mem_append.mp he' with he' | he'
      · exact hle e' he'
      · rw [List.mem_singleton.mp he']
    refine ⟨hwall, created, hcreated, ?_⟩
    rw [hwall]
    exact (runningTime_bounded env c hclock hle').2 created hcreated

/-- **When the wall clock is the running time.** In every run of the callbacks, after every
suspension, completion and end of a trace of `c` the wall clock of `c` is its running time, if and
only if each of these calls is allowed by the phase of `c`: a completion and the end of a trace
happen while `c` runs, and nothing credits `c` again once a trace of it ended, or once it was
completed, before it is resumed.

**Proof sketch.** As long as all credits were allowed the record agrees with the events
(`agrees_of_reaches`), and then the next one is right exactly if it is allowed. For the first
direction this shows by induction that all are allowed. -/
theorem wallClock_exact_iff {env : Env} {es : List Event} {p : Profiler}
    (hrun : (machine env).Reaches es p) (hclock : PositiveClock es)
    (hclean : ∀ e ∈ es, e.call ≠ .clean) (c : JLong) :
    es.AtEvery (WallClockExact env c) ↔ es.AtEvery (CreditsOnce env c) := by
  induction es using List.reverseRecOn generalizing p with
  | nil => simp
  | append_singleton es e ih =>
    obtain ⟨q, hq⟩ := hrun.of_append
    have hes := ih hq hclock.of_concat.1 fun e' he' => hclean e' (by simp [he'])
    rw [List.atEvery_concat, List.atEvery_concat, hes]
    refine and_congr_right fun hcredits => ?_
    exact wallClockExact_iff hrun hclock hclean hcredits

/-- A coroutine that is created, resumed, suspended with a known stack, resumed and completed. -/
def resumedRun : List Event :=
  [(Call.coroutineCreated 7).at 1 1, (Call.coroutineResumed 7).at 1 2,
    (Call.coroutineSuspended 7 (some [1])).at 1 5, (Call.coroutineResumed 7).at 2 8,
    (Call.coroutineCompleted 7).at 2 9]

/-- In that run the wall clock is right at the suspension and at the completion. -/
theorem wallClock_exact_resumedRun :
    ∃ p, (machine .sample).Reaches resumedRun p ∧
      resumedRun.AtEvery (WallClockExact .sample 7) := by
  have hexec : ((machine .sample).exec (machine .sample).init resumedRun).map (fun _ => ()) =
      some () := by decide
  obtain ⟨l, p, hrun, hes, -⟩ := LogMachine.exists_run_of_map_exec hexec
  have hreaches : (machine .sample).Reaches resumedRun p := ⟨l, hrun, hes⟩
  exact ⟨p, hreaches, (wallClock_exact_iff hreaches (by decide) (by decide) 7).mpr (by decide)⟩

/-- A coroutine whose trace ends one moment before it is suspended. -/
def tracedRun : List Event :=
  [(Call.threadStart "main" 0 0).at 1 1, (Call.coroutineCreated 7).at 1 1,
    (Call.traceStart 7).at 1 1, (Call.traceEnd 7).at 1 5,
    (Call.coroutineSuspended 7 (some [1])).at 1 6]

/-- **A trace that ends while the coroutine runs makes the wall clock wrong**: created at time 1
and suspended at time 6, the coroutine ran for 5, but its wall clock is 9, more than the time
since its creation. -/
theorem wallClock_exceeds_running_time :
    ∃ p, (machine .sample).Reaches tracedRun p ∧ PositiveClock tracedRun ∧
      (∀ e ∈ tracedRun, e.call ≠ .clean) ∧
      ¬ tracedRun.AtEvery (WallClockExact .sample 7) := by
  have hexec : ((machine .sample).exec (machine .sample).init tracedRun).map
      (fun q => (q.1.storage.getCoroutineInfo 7).map CoroutineInfo.wallClockRunningTime) =
      some (some 9) := by decide
  obtain ⟨l, p, hrun, hes, hwall⟩ := LogMachine.exists_run_of_map_exec hexec
  obtain ⟨info, hinfo, hwall⟩ := Option.map_eq_some_iff.mp hwall
  have hreaches : (machine .sample).Reaches tracedRun p := ⟨l, hrun, hes⟩
  refine ⟨p, hreaches, by decide, by decide, fun hexact => ?_⟩
  have hlast := hexact (tracedRun.take 4) ((Call.coroutineSuspended 7 (some [1])).at 1 6) [] rfl
    (by decide) p info hreaches hinfo
  rw [hwall] at hlast
  exact absurd hlast.1 (by decide)

end KotlinTracer
