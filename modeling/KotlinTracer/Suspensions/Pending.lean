import KotlinTracer.Accounting.WallClock
import KotlinTracer.Profiler.Names

set_option relaxedAutoImplicit false
set_option autoImplicit false

/-!
# Open suspensions

A coroutine that is suspended through several frames reports `coroutineSuspended` once for each of
them, and each call appends a suspension to the record of the coroutine. `coroutineResumed` ends
one suspension only, the first that is open. So a chain of more than one suspension leaves
suspensions open while the coroutine runs. This file counts the suspensions that are still open
from the calls alone, and proves that a resumption ends all of them exactly if there is at most
one.

## Main definitions

* `KotlinTracer.openSuspensions` — the suspensions of a record that are not ended.
* `KotlinTracer.Pending`, `KotlinTracer.pending` — how many suspensions are open, from the calls.
* `KotlinTracer.ResumesAll` — a resumption finds at most one open suspension.
* `KotlinTracer.RunsAt`, `KotlinTracer.SuspensionInfo.Covers` — a coroutine runs, and a suspension
  lasts, during a nanosecond.

## Main results

* `KotlinTracer.pendingAgrees_of_reaches` — the count from the calls is the number of open
  suspensions, in every run.
* `KotlinTracer.suspensions_closed_iff` — every resumption leaves no suspension open if and only if
  each finds at most one, and then no suspension covers time in which the coroutine runs.
* `KotlinTracer.suspension_left_open` — a chain of two suspensions leaves one open.
-/

namespace KotlinTracer

/-! ## The open suspensions of a record -/

/-- The suspensions of a record that are not ended. -/
def CoroutineInfo.openSuspensions (info : CoroutineInfo) : List SuspensionInfo :=
  info.suspensionsList.list.filter TraceStorage.nonEndedSuspension

/-- The recorded suspensions of a coroutine. -/
def suspensions (p : Profiler) (c : JLong) : List SuspensionInfo :=
  ((p.storage.getCoroutineInfo c).map fun info => info.suspensionsList.list).getD []

/-- The recorded suspensions of a coroutine that are not ended. -/
def openSuspensions (p : Profiler) (c : JLong) : List SuspensionInfo :=
  ((p.storage.getCoroutineInfo c).map CoroutineInfo.openSuspensions).getD []

/-- The suspension that an event records for `c`, if it knows the stack. -/
def newSuspension (c : JLong) (now : TraceTime) (frames : Option (List StackFrame)) :
    List SuspensionInfo :=
  match frames with
  | none => []
  | some frames => [⟨c, now, 0, frames⟩]

/-- The suspensions after a suspension. -/
lemma suspensionsList_suspendedInfo (last : RUsage) (ctx : Context) (c : JLong)
    (frames : Option (List StackFrame)) (info : CoroutineInfo) :
    (suspendedInfo last ctx c frames info).suspensionsList.list =
      info.suspensionsList.list ++ newSuspension c ctx.now frames := by
  have hpaused : (pausedInfo last ctx info).suspensionsList = info.suspensionsList := by
    rw [pausedInfo]
    split_ifs <;> rfl
  cases frames with
  | none =>
    rw [newSuspension, List.append_nil, suspendedInfo, recordSuspension, hpaused]
  | some frames =>
    rw [newSuspension, suspendedInfo, recordSuspension, ConcurrentList.list_pushBack, hpaused]

/-- The open suspensions after a suspension. -/
lemma openSuspensions_suspendedInfo (last : RUsage) (ctx : Context) (c : JLong)
    (frames : Option (List StackFrame)) (info : CoroutineInfo) :
    (suspendedInfo last ctx c frames info).openSuspensions =
      info.openSuspensions ++ newSuspension c ctx.now frames := by
  rw [CoroutineInfo.openSuspensions, suspensionsList_suspendedInfo, List.filter_append,
    ← CoroutineInfo.openSuspensions, List.append_cancel_left_eq]
  cases frames <;> rfl

/-- A resumption ends the first open suspension. -/
lemma openSuspensions_resumedInfo {now : TraceTime} (hnow : now ≠ 0) (info : CoroutineInfo) :
    (resumedInfo now info).openSuspensions = info.openSuspensions.tail := by
  refine ConcurrentList.filter_updateFirstIn_of_not (fun s => ?_) _
  simpa [TraceStorage.nonEndedSuspension] using hnow

/-- A resumption at time 0 ends nothing: the end `0` means that there is none. -/
lemma length_openSuspensions_resumedInfo_zero (info : CoroutineInfo) :
    (resumedInfo 0 info).openSuspensions.length = info.openSuspensions.length := by
  refine ConcurrentList.length_filter_updateFirstIn_of_pos (fun s _ => ?_) _
  rfl

/-! ## Counting from the calls -/

/-- What the calls say about the open suspensions of a coroutine: whether it has a record, whether
the record is marked for cleaning, and how many of its suspensions are open. -/
structure Pending where
  present : Bool := false
  marked : Bool := false
  count : ℕ := 0
deriving DecidableEq

namespace Pending

/-- A suspension adds one to the count if its stack is known. -/
def suspend (r : Pending) (frames : Option (List StackFrame)) : Pending :=
  if r.present ∧ frames.isSome then { r with count := r.count + 1 } else r

/-- A resumption takes one from the count. -/
def resume (r : Pending) (now : TraceTime) : Pending :=
  if now ≠ 0 then { r with count := r.count - 1 } else r

/-- One more event. -/
def step (env : Env) (c : JLong) (r : Pending) (e : Event) : Pending :=
  match e.call with
  | .coroutineCreated d => if c = d then { r with present := true } else r
  | .traceStart d =>
    if d = -2 ∧ c = Profiler.traceId env e.thread d then { r with present := true } else r
  | .coroutineSuspended d _ => if c = d then r.suspend (e.frames env) else r
  | .coroutineResumed d => if c = d then r.resume e.now else r
  | .markForClean => { r with marked := r.marked || r.present }
  | .clean => if r.marked then {} else r
  | _ => r

end Pending

/-- What the events say about the open suspensions of `c`. -/
def pending (env : Env) (c : JLong) (es : List Event) : Pending :=
  es.foldl (Pending.step env c) {}

/-- One more event. -/
lemma pending_concat (env : Env) (c : JLong) (es : List Event) (e : Event) :
    pending env c (es ++ [e]) = (pending env c es).step env c e := by
  simp [pending]

/-- The record of a coroutine agrees with what the calls say. -/
structure PendingAgrees (c : JLong) (r : Pending) (p : Profiler) : Prop where
  present : (p.storage.getCoroutineInfo c).isSome = r.present
  marked : c ∈ p.storage.coroutineInfoMap.cleanList ↔ r.marked = true
  count : (openSuspensions p c).length = r.count

section Step

variable {env : Env} {p p' : Profiler} {e : Event} {o : List Effect} {c : JLong} {r : Pending}

/-- The mark of a coroutine agrees after a step. -/
lemma PendingAgrees.step_marked (hstep : p.step env e = some (p', o)) (h : PendingAgrees c r p) :
    c ∈ p'.storage.coroutineInfoMap.cleanList ↔ (r.step env c e).marked = true := by
  rw [(Profiler.step_cleanList hstep c).1, h.marked, h.present]
  obtain ⟨ctx, call⟩ := e
  cases call with
  | clean =>
    rw [Pending.step]
    cases hmarked : r.marked
    · simp [hmarked]
    · simp
  | markForClean => simp [Pending.step]
  | coroutineSuspended d stack =>
    simp only [Pending.step, Pending.suspend]
    split_ifs <;> simp
  | coroutineResumed d =>
    simp only [Pending.step, Pending.resume]
    split_ifs <;> simp
  | coroutineCreated d =>
    simp only [Pending.step]
    split_ifs <;> simp
  | traceStart d =>
    simp only [Pending.step]
    split_ifs <;> simp
  | _ => simp [Pending.step]

/-- A record agrees with what the calls say about it: it is there, and so many of its suspensions
are open. -/
def RecordAgrees (r : Pending) (old : Option CoroutineInfo) : Prop :=
  old.isSome = r.present ∧ ((old.map CoroutineInfo.openSuspensions).getD []).length = r.count

section Record

variable {old : Option CoroutineInfo}

/-- A creation keeps a record that is there. -/
lemma RecordAgrees.create (h : RecordAgrees r old) (now : TraceTime) :
    RecordAgrees { r with present := true }
      (some (old.getD (TraceStorage.newCoroutineInfo now))) := by
  refine ⟨rfl, ?_⟩
  cases old with
  | none => exact h.2
  | some info => exact h.2

/-- A change that leaves the suspensions alone. -/
lemma RecordAgrees.map (h : RecordAgrees r old) {f : CoroutineInfo → CoroutineInfo}
    (hf : ∀ info, (f info).openSuspensions = info.openSuspensions) :
    RecordAgrees r (old.map f) := by
  cases old with
  | none => exact h
  | some info =>
    refine ⟨h.1, ?_⟩
    rw [Option.map_some, Option.map_some, Option.getD_some, hf]
    exact h.2

/-- A suspension. -/
lemma RecordAgrees.suspend (h : RecordAgrees r old) (last : RUsage) (ctx : Context) (c : JLong)
    (frames : Option (List StackFrame)) :
    RecordAgrees (r.suspend frames) (old.map (suspendedInfo last ctx c frames)) := by
  obtain ⟨hpresent, hcount⟩ := h
  rw [Pending.suspend, ← hpresent]
  cases old with
  | none => exact ⟨hpresent, hcount⟩
  | some info =>
    have hinfo : info.openSuspensions.length = r.count := hcount
    rw [RecordAgrees, Option.map_some, Option.map_some, Option.getD_some,
      openSuspensions_suspendedInfo, List.length_append]
    cases frames with
    | none => exact ⟨hpresent, hinfo⟩
    | some frames => exact ⟨rfl, by rw [hinfo]; rfl⟩

/-- A resumption. -/
lemma RecordAgrees.resume (h : RecordAgrees r old) (now : TraceTime) :
    RecordAgrees (r.resume now) (old.map (resumedInfo now)) := by
  obtain ⟨hpresent, hcount⟩ := h
  rw [Pending.resume]
  cases old with
  | none =>
    have hzero : r.count = 0 := hcount.symm
    split_ifs
    · exact ⟨hpresent, by rw [hzero]; rfl⟩
    · exact ⟨hpresent, hcount⟩
  | some info =>
    have hinfo : info.openSuspensions.length = r.count := hcount
    rw [RecordAgrees, Option.map_some, Option.map_some, Option.getD_some]
    split_ifs with hnow
    · refine ⟨hpresent, ?_⟩
      rw [openSuspensions_resumedInfo hnow, List.length_tail, hinfo]
    · obtain rfl := not_not.mp hnow
      refine ⟨hpresent, ?_⟩
      rw [length_openSuspensions_resumedInfo_zero, hinfo]

end Record

/-- The record of a coroutine agrees after a step. -/
lemma PendingAgrees.step_record (hnames : Profiler.NamesCoherent env p)
    (hstep : p.step env e = some (p', o)) (h : PendingAgrees c r p) :
    RecordAgrees (r.step env c e) (p'.storage.getCoroutineInfo c) := by
  have hmarked := h.marked
  have hrecord : RecordAgrees r (p.storage.getCoroutineInfo c) := ⟨h.present, h.count⟩
  rw [Profiler.step_info_frames hnames hstep c]
  generalize p.storage.getCoroutineInfo c = old at hrecord
  obtain ⟨ctx, call⟩ := e
  cases call with
  | coroutineCreated d =>
    simp only [infoUpdate, Pending.step]
    split_ifs
    · exact hrecord.create ctx.now
    · exact hrecord
  | traceStart d =>
    simp only [infoUpdate, Pending.step]
    split_ifs
    · exact hrecord.create ctx.now
    · exact hrecord
  | coroutineSuspended d stack =>
    simp only [infoUpdate, Pending.step]
    split_ifs
    · exact hrecord.suspend _ ctx c _
    · exact hrecord
  | coroutineResumed d =>
    simp only [infoUpdate, Pending.step]
    split_ifs
    · exact hrecord.resume ctx.now
    · exact hrecord
  | coroutineCompleted d =>
    simp only [infoUpdate, Pending.step]
    split_ifs
    · exact hrecord.map fun info => rfl
    · exact hrecord
  | traceEnd d =>
    simp only [infoUpdate, Pending.step]
    split_ifs
    · exact hrecord.map fun info => rfl
    · exact hrecord
  | clean =>
    simp only [infoUpdate, Pending.step, hmarked]
    cases r.marked
    · exact hrecord
    · exact ⟨rfl, rfl⟩
  | _ => exact hrecord

/-- **One step keeps the count.** -/
lemma PendingAgrees.step (hnames : Profiler.NamesCoherent env p)
    (hstep : p.step env e = some (p', o)) (h : PendingAgrees c r p) :
    PendingAgrees c (r.step env c e) p' where
  present := (h.step_record hnames hstep).1
  marked := h.step_marked hstep
  count := (h.step_record hnames hstep).2

end Step

/-- **The count from the calls is the number of open suspensions**, in every run. -/
theorem pendingAgrees_of_reaches {env : Env} {es : List Event} {p : Profiler}
    (hrun : (machine env).Reaches es p) (c : JLong) :
    PendingAgrees c (pending env c es) p := by
  refine LogMachine.Reaches.invariant
    (I := fun es p => PendingAgrees c (pending env c es) p) ?_ ?_ hrun
  · exact ⟨rfl, by simp [pending, machine], rfl⟩
  · intro es p e o p' hreaches h hstep
    rw [pending_concat]
    exact h.step (Profiler.namesCoherent_of_reaches hreaches) hstep

/-! ## Resumptions -/

/-- After the event `e`, if it resumes `c`, no suspension of `c` is open. -/
def SuspensionsClosed (env : Env) (c : JLong) (es : List Event) (e : Event) : Prop :=
  e.call = .coroutineResumed c → ∀ p, (machine env).Reaches (es ++ [e]) p →
    openSuspensions p c = []

/-- The event `e`, if it resumes `c`, finds at most one open suspension of `c`, and it can end it:
the clock is not at 0. -/
def ResumesAll (env : Env) (c : JLong) (es : List Event) (e : Event) : Prop :=
  e.call = .coroutineResumed c →
    (pending env c es).count = 0 ∨ (pending env c es).count = 1 ∧ e.now ≠ 0

instance (env : Env) (c : JLong) (es : List Event) (e : Event) :
    Decidable (ResumesAll env c es e) :=
  inferInstanceAs (Decidable (_ → _))

/-- A resumption ends all open suspensions exactly if it finds at most one. -/
lemma suspensionsClosed_iff {env : Env} {c : JLong} {es : List Event} {e : Event} {p : Profiler}
    (hrun : (machine env).Reaches (es ++ [e]) p) :
    SuspensionsClosed env c es e ↔ ResumesAll env c es e := by
  refine forall_congr' fun hcall => ?_
  have hcount := (pendingAgrees_of_reaches hrun c).count
  have hstep : (pending env c (es ++ [e])).count =
      if e.now ≠ 0 then (pending env c es).count - 1 else (pending env c es).count := by
    rw [pending_concat, Pending.step, hcall]
    dsimp only
    rw [if_pos rfl, Pending.resume]
    split_ifs <;> rfl
  have hclosed : (∀ p, (machine env).Reaches (es ++ [e]) p → openSuspensions p c = []) ↔
      (pending env c (es ++ [e])).count = 0 := by
    rw [← hcount, List.length_eq_zero_iff]
    constructor
    · exact fun h => h p hrun
    · intro h p' hp'
      rw [← hrun.unique hp']
      exact h
  rw [hclosed, hstep]
  generalize (pending env c es).count = n
  split_ifs with hnow
  · have hiff : n - 1 = 0 ↔ n = 0 ∨ n = 1 := by omega
    rw [hiff, and_iff_left hnow]
  · rw [or_iff_left fun hand => hnow hand.2]

/-! ## Suspensions and running time -/

/-- `c` runs during the nanosecond from `x`: it runs before some event, the earlier events are not
later than `x`, and the event is later than `x`. -/
def RunsAt (env : Env) (c : JLong) (es : List Event) (x : TraceTime) : Prop :=
  es.Somewhere fun before e => (runningTime env c before).opened.isSome ∧
    (∀ e' ∈ before, e'.now ≤ x) ∧ x < e.now

/-- A suspension lasts during the nanosecond from `x`; one that is not ended lasts forever. -/
def SuspensionInfo.Covers (s : SuspensionInfo) (x : TraceTime) : Prop :=
  s.start ≤ x ∧ (s.endTime = 0 ∨ x < s.endTime)

/-- One more event. -/
lemma runsAt_concat {env : Env} {c : JLong} {es : List Event} {e : Event} {x : TraceTime} :
    RunsAt env c (es ++ [e]) x ↔ RunsAt env c es x ∨
      ((runningTime env c es).opened.isSome ∧ (∀ e' ∈ es, e'.now ≤ x) ∧ x < e.now) :=
  List.somewhere_concat

/-- Running time lies before some event. -/
lemma RunsAt.exists_lt {env : Env} {c : JLong} {es : List Event} {x : TraceTime}
    (h : RunsAt env c es x) : ∃ e ∈ es, x < e.now := by
  obtain ⟨before, e, after, rfl, -, -, hlt⟩ := h
  exact ⟨e, by simp, hlt⟩

/-- Only a resumption opens a running interval of a coroutine that was created. -/
lemma RunningTime.opened_step {env : Env} {c : JLong} {r : RunningTime} {e : Event}
    (hcreated : r.created ≠ none) (hopened : r.opened = none)
    (hcall : e.call ≠ .coroutineResumed c) : (r.step env c e).opened = none := by
  obtain ⟨t, ht⟩ := Option.ne_none_iff_exists'.mp hcreated
  have hcreate : ∀ now, (r.create now).opened = none := by
    intro now
    rw [create, ht]
    exact hopened
  obtain ⟨ctx, call⟩ := e
  cases call with
  | coroutineResumed d =>
    have hd : c ≠ d := fun hd => hcall (by rw [hd])
    simp only [RunningTime.step, if_neg hd]
    exact hopened
  | coroutineCreated d =>
    simp only [RunningTime.step]
    split_ifs
    · exact hcreate _
    · exact hopened
  | traceStart d =>
    simp only [RunningTime.step]
    split_ifs
    · exact hcreate _
    · exact hopened
  | coroutineSuspended d stack =>
    simp only [RunningTime.step]
    split_ifs
    · rfl
    · exact hopened
  | coroutineCompleted d =>
    simp only [RunningTime.step]
    split_ifs
    · rfl
    · exact hopened
  | _ => exact hopened

/-- A created coroutine stays created. -/
lemma RunningTime.created_step {env : Env} {c : JLong} {r : RunningTime} {e : Event}
    (h : r.created ≠ none) : (r.step env c e).created ≠ none := by
  obtain ⟨t, ht⟩ := Option.ne_none_iff_exists'.mp h
  have hsame : (r.step env c e).created = r.created := by
    rw [RunningTime.step]
    split <;> first | rfl | (split_ifs <;> simp [create, resume, close, ht])
  rw [hsame]
  exact h

/-- A coroutine with a record was created. -/
lemma created_of_info {env : Env} {c : JLong} {es : List Event} {p : Profiler}
    (hrun : (machine env).Reaches es p) (hinfo : (p.storage.getCoroutineInfo c).isSome) :
    (runningTime env c es).created ≠ none := by
  refine LogMachine.Reaches.invariant (I := fun es p =>
    (p.storage.getCoroutineInfo c).isSome → (runningTime env c es).created ≠ none) ?_ ?_ hrun hinfo
  · intro h
    cases h
  · intro es p e o p' _ ih hstep hinfo
    rw [runningTime_concat]
    by_cases hold : (p.storage.getCoroutineInfo c).isSome
    · exact RunningTime.created_step (ih hold)
    · -- only a creation makes a record
      rw [Bool.not_eq_true, Option.isSome_eq_false_iff, Option.isNone_iff_eq_none] at hold
      obtain ⟨frames, hupdate⟩ := Profiler.step_info hstep
      rw [hupdate c, hold] at hinfo
      have hcreate : ∀ now, ((runningTime env c es).create now).created ≠ none := by
        intro now
        rw [RunningTime.create]
        cases hcreated : (runningTime env c es).created with
        | none => simp
        | some t => simp [hcreated]
      obtain ⟨ctx, call⟩ := e
      cases call with
      | coroutineCreated d =>
        simp only [infoUpdate] at hinfo
        split_ifs at hinfo with hc
        · simp only [RunningTime.step, if_pos hc]
          exact hcreate _
        · cases hinfo
      | traceStart d =>
        simp only [infoUpdate] at hinfo
        split_ifs at hinfo with hc
        · simp only [RunningTime.step, if_pos hc]
          exact hcreate _
        · cases hinfo
      | _ => simp [infoUpdate] at hinfo

/-- **The suspensions after a step**: those before it, the one that a suspension records, and the
one that a resumption ends. -/
lemma mem_suspensions_of_step {env : Env} {c : JLong} {p p' : Profiler} {e : Event}
    {o : List Effect} (hstep : p.step env e = some (p', o)) {s : SuspensionInfo}
    (hs : s ∈ suspensions p' c) :
    s ∈ suspensions p c ∨
      ((∃ stack, e.call = .coroutineSuspended c stack) ∧ s.start = e.now ∧ s.endTime = 0) ∨
      (e.call = .coroutineResumed c ∧ ∃ s₀ ∈ suspensions p c, s₀.endTime = 0 ∧
        s = { s₀ with endTime := e.now }) := by
  obtain ⟨frames, hupdate⟩ := Profiler.step_info hstep
  rw [suspensions, hupdate c] at hs
  rw [suspensions]
  have hchange := infoChange_infoUpdate env e (p.locals e.thread).currentRusage frames
    (c ∈ p.storage.coroutineInfoMap.cleanList) c (p.storage.getCoroutineInfo c)
  generalize infoUpdate env e _ frames _ c _ = new at hs hchange
  generalize p.storage.getCoroutineInfo c = old at hchange ⊢
  cases hchange with
  | keep => exact Or.inl hs
  | create =>
    cases old with
    | none => cases hs
    | some info => exact Or.inl hs
  | @suspend stack hcall =>
    cases old with
    | none => cases hs
    | some info =>
      rw [Option.map_some, Option.map_some, Option.getD_some, suspensionsList_suspendedInfo,
        List.mem_append] at hs
      rcases hs with hs | hs
      · exact Or.inl hs
      · refine Or.inr (Or.inl ⟨⟨stack, hcall⟩, ?_⟩)
        cases frames with
        | none => cases hs
        | some frames =>
          rw [List.mem_singleton.mp hs]
          exact ⟨rfl, rfl⟩
  | resume hcall =>
    cases old with
    | none => cases hs
    | some info =>
      rcases ConcurrentList.mem_updateFirstIn hs with hs | ⟨s₀, hs₀, hopen, rfl⟩
      · exact Or.inl hs
      · refine Or.inr (Or.inr ⟨hcall, s₀, hs₀, ?_, rfl⟩)
        simpa [TraceStorage.nonEndedSuspension] using hopen
  | complete =>
    cases old with
    | none => cases hs
    | some info => exact Or.inl hs
  | credit =>
    cases old with
    | none => cases hs
    | some info => exact Or.inl hs
  | remove => cases hs

/-- A suspension is apart from the running time: it covers none of it, the coroutine does not run
while the suspension is open, and it does not end in the future. -/
structure Apart (env : Env) (c : JLong) (es : List Event) (s : SuspensionInfo) : Prop where
  running : ∀ x, RunsAt env c es x → ¬ s.Covers x
  opened : s.endTime = 0 → (runningTime env c es).opened = none
  ended : s.endTime ≠ 0 → ∃ e ∈ es, s.endTime ≤ e.now

/-- A suspension stays apart from the running time, if after the event it is ended or the
coroutine does not run. -/
lemma Apart.concat {env : Env} {c : JLong} {es : List Event} {e : Event} {s : SuspensionInfo}
    (h : Apart env c es s)
    (hopened : s.endTime = 0 → (runningTime env c (es ++ [e])).opened = none) :
    Apart env c (es ++ [e]) s := by
  refine ⟨fun x hx hcovers => ?_, hopened, fun hend => ?_⟩
  · rcases runsAt_concat.mp hx with hx | ⟨hrunning, hle, -⟩
    · exact h.running x hx hcovers
    · -- the coroutine runs before the event, so the suspension was ended
      have hend : s.endTime ≠ 0 := by
        intro hzero
        rw [h.opened hzero] at hrunning
        cases hrunning
      obtain ⟨e', he', hle'⟩ := h.ended hend
      have hlt := hcovers.2.resolve_left hend
      exact absurd (hle'.trans (hle e' he')) (not_le.mpr hlt)
  · obtain ⟨e', he', hle⟩ := h.ended hend
    exact ⟨e', List.mem_append_left _ he', hle⟩

/-- A suspension that an event records is apart from the running time. -/
lemma Apart.of_suspended {env : Env} {c : JLong} {es : List Event} {e : Event}
    {s : SuspensionInfo} (hclock : PositiveClock (es ++ [e]))
    (hcall : ∃ stack, e.call = .coroutineSuspended c stack) (hstart : s.start = e.now)
    (hend : s.endTime = 0) : Apart env c (es ++ [e]) s := by
  refine ⟨fun x hx hcovers => ?_, fun _ => ?_, fun hne => absurd hend hne⟩
  · obtain ⟨e', he', hlt⟩ := hx.exists_lt
    have hle : e'.now ≤ e.now := by
      rcases List.mem_append.mp he' with he' | he'
      · exact hclock.of_concat.2.2 e' he'
      · rw [List.mem_singleton.mp he']
    have hstart' := hcovers.1
    rw [hstart] at hstart'
    linarith
  · obtain ⟨stack, hcall⟩ := hcall
    rw [runningTime_concat, RunningTime.step, hcall]
    dsimp only
    rw [if_pos rfl]
    rfl

/-- A suspension that an event ends is apart from the running time. -/
lemma Apart.of_resumed {env : Env} {c : JLong} {es : List Event} {e : Event}
    {s : SuspensionInfo} (h : Apart env c es s) (hopen : s.endTime = 0) (hnow : 0 < e.now) :
    Apart env c (es ++ [e]) { s with endTime := e.now } := by
  refine ⟨fun x hx hcovers => ?_, fun hzero => absurd hzero hnow.ne', fun _ => ⟨e, by simp, le_rfl⟩⟩
  rcases runsAt_concat.mp hx with hx | ⟨hrunning, -⟩
  · exact h.running x hx ⟨hcovers.1, Or.inl hopen⟩
  · rw [h.opened hopen] at hrunning
    cases hrunning

/-- An ended suspension is not among the open ones. -/
lemma endTime_ne_zero {p : Profiler} {c : JLong} (h : openSuspensions p c = [])
    {s : SuspensionInfo} (hs : s ∈ suspensions p c) : s.endTime ≠ 0 := by
  rw [openSuspensions] at h
  rw [suspensions] at hs
  cases hinfo : p.storage.getCoroutineInfo c with
  | none =>
    rw [hinfo] at hs
    cases hs
  | some info =>
    rw [hinfo] at h hs
    intro hzero
    have hmem : s ∈ info.openSuspensions :=
      List.mem_filter.mpr ⟨hs, by simp [TraceStorage.nonEndedSuspension, hzero]⟩
    have hnil : info.openSuspensions = [] := h
    rw [hnil] at hmem
    cases hmem

/-- **Suspensions are apart from the running time**, in every run whose resumptions find at most
one open suspension.

**Proof sketch.** A suspension starts when the coroutine stops running. While it is open the
coroutine is not resumed, except by the event that ends it, because that one leaves nothing open;
so the coroutine does not run before the suspension is ended, and afterwards the suspension lies in
the past. -/
lemma apart_of_reaches {env : Env} {c : JLong} {es : List Event} {p : Profiler}
    (hrun : (machine env).Reaches es p) (hclock : PositiveClock es)
    (hall : es.AtEvery (ResumesAll env c)) : ∀ s ∈ suspensions p c, Apart env c es s := by
  refine LogMachine.Reaches.invariant (I := fun es p => PositiveClock es →
    es.AtEvery (ResumesAll env c) → ∀ s ∈ suspensions p c, Apart env c es s) ?_ ?_ hrun hclock hall
  · intro _ _ s hs
    cases hs
  · intro es p e o p' hreaches ih hstep hclock hall s hs
    obtain ⟨hall, hresumes⟩ := List.atEvery_concat.mp hall
    have hreaches' : (machine env).Reaches (es ++ [e]) p' :=
      (machine env).reaches_concat.mpr ⟨p, o, hreaches, hstep⟩
    have hapart := ih hclock.of_concat.1 hall
    rcases mem_suspensions_of_step hstep hs with hold | ⟨hcall, hstart, hend⟩ | ⟨hcall, hended⟩
    · refine (hapart s hold).concat fun hopen => ?_
      by_cases hcall : e.call = .coroutineResumed c
      · have hclosed := (suspensionsClosed_iff hreaches').mpr hresumes hcall p' hreaches'
        exact absurd hopen (endTime_ne_zero hclosed hs)
      · have hinfo : (p.storage.getCoroutineInfo c).isSome := by
          rw [suspensions] at hold
          cases hinfo : p.storage.getCoroutineInfo c with
          | none =>
            rw [hinfo] at hold
            cases hold
          | some info => rfl
        rw [runningTime_concat]
        exact RunningTime.opened_step (created_of_info hreaches hinfo)
          ((hapart s hold).opened hopen) hcall
    · exact Apart.of_suspended hclock hcall hstart hend
    · obtain ⟨s₀, hs₀, hopen, rfl⟩ := hended
      exact (hapart s₀ hs₀).of_resumed hopen hclock.of_concat.2.1

/-- **When resumptions end all suspensions.** In every run, each resumption of `c` leaves no
suspension of `c` open if and only if each finds at most one open suspension; and then, with a
clock that is positive and does not decrease, no recorded suspension of `c` covers time in which
`c` runs. -/
theorem suspensions_closed_iff {env : Env} {es : List Event} {p : Profiler}
    (hrun : (machine env).Reaches es p) (c : JLong) :
    (es.AtEvery (SuspensionsClosed env c) ↔ es.AtEvery (ResumesAll env c)) ∧
      (PositiveClock es → es.AtEvery (ResumesAll env c) →
        ∀ s ∈ suspensions p c, ∀ x, RunsAt env c es x → ¬ s.Covers x) := by
  refine ⟨?_, fun hclock hall s hs => (apart_of_reaches hrun hclock hall s hs).running⟩
  induction es using List.reverseRecOn generalizing p with
  | nil => simp
  | append_singleton es e ih =>
    obtain ⟨q, hq⟩ := hrun.of_append
    rw [List.atEvery_concat, List.atEvery_concat, ih hq, suspensionsClosed_iff hrun]

/-- In the run of a coroutine that is suspended once, its resumption leaves nothing open. -/
theorem suspensions_closed_resumedRun :
    ∃ p, (machine .sample).Reaches resumedRun p ∧
      resumedRun.AtEvery (SuspensionsClosed .sample 7) ∧
      ∀ s ∈ suspensions p 7, ∀ x, RunsAt .sample 7 resumedRun x → ¬ s.Covers x := by
  have hexec : ((machine .sample).exec (machine .sample).init resumedRun).map (fun _ => ()) =
      some () := by decide
  obtain ⟨l, p, hrun, hes, -⟩ := LogMachine.exists_run_of_map_exec hexec
  have hreaches : (machine .sample).Reaches resumedRun p := ⟨l, hrun, hes⟩
  obtain ⟨hclosed, hapart⟩ := suspensions_closed_iff hreaches 7
  exact ⟨p, hreaches, hclosed.mpr (by decide), hapart (by decide) (by decide)⟩

/-- A coroutine that is suspended twice in a row, resumed, and completed. -/
def chainedRun : List Event :=
  [(Call.coroutineCreated 7).at 1 1, (Call.coroutineSuspended 7 (some [1])).at 1 3,
    (Call.coroutineSuspended 7 (some [1])).at 1 3, (Call.coroutineResumed 7).at 1 5,
    (Call.coroutineCompleted 7).at 1 8]

/-- **A chain of two suspensions leaves one open**: the resumption at time 5 ends the first of the
two, so the second is still open after it, and covers the time from 5 to 8 in which the coroutine
runs. -/
theorem suspension_left_open :
    ∃ p, (machine .sample).Reaches chainedRun p ∧ PositiveClock chainedRun ∧
      ¬ chainedRun.AtEvery (SuspensionsClosed .sample 7) ∧
      ∃ s ∈ suspensions p 7, ∃ x, RunsAt .sample 7 chainedRun x ∧ s.Covers x := by
  have hexec : ((machine .sample).exec (machine .sample).init chainedRun).map
      (fun q => (suspensions q.1 7).map fun s => (s.start, s.endTime)) =
      some [(3, 5), (3, 0)] := by decide
  have hexec' : ((machine .sample).exec (machine .sample).init (chainedRun.take 4)).map
      (fun q => (openSuspensions q.1 7).length) = some 1 := by decide
  obtain ⟨l, p, hrun, hes, hlist⟩ := LogMachine.exists_run_of_map_exec hexec
  obtain ⟨l', q, hrun', hes', hlength⟩ := LogMachine.exists_run_of_map_exec hexec'
  refine ⟨p, ⟨l, hrun, hes⟩, by decide, fun hclosed => ?_, ?_⟩
  · have hnil := hclosed (chainedRun.take 3) ((Call.coroutineResumed 7).at 1 5)
      [(Call.coroutineCompleted 7).at 1 8] rfl rfl q ⟨l', hrun', hes'⟩
    rw [hnil] at hlength
    cases hlength
  · have hmem : ((3 : TraceTime), (0 : TraceTime)) ∈
        (suspensions p 7).map fun s => (s.start, s.endTime) := by
      rw [hlist]
      decide
    obtain ⟨s, hs, heq⟩ := List.mem_map.mp hmem
    rw [Prod.mk.injEq] at heq
    refine ⟨s, hs, 6, ?_, by rw [heq.1]; decide, Or.inl heq.2⟩
    exact ⟨chainedRun.take 4, (Call.coroutineCompleted 7).at 1 8, [], rfl, by decide, by decide,
      by decide⟩

end KotlinTracer
