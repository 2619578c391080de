import KotlinTracer.Accounting.ResourceConservation
import KotlinTracer.Accounting.WallClock

set_option relaxedAutoImplicit false
set_option autoImplicit false

/-!
# The books of a run

What the calls alone say about the record of an id and about the usage that a thread read last. The
books keep one meter for every id that has a record: from when on the next call counts, what the
calls have counted, and whether the next `clean` drops the record. They are a fold over the calls
and name no part of the state; this file proves that they describe the state in every run.

## Main definitions

* `KotlinTracer.Meter`, `KotlinTracer.Books`, `KotlinTracer.books` — the books after a list of
  calls.
* `KotlinTracer.Books.Describe` — the books say what the profiler has recorded.

## Main results

* `KotlinTracer.Books.Describe.step`, `KotlinTracer.books_describe` — they do, step by step and in
  every run.
* `KotlinTracer.used_le_of_run` — what is counted of the usage does not decrease while the record
  is kept.
-/

namespace Option.Rel

variable {α β : Type*} {R : α → β → Prop} {x : Option α} {y : Option β}

/-- Related options stay related when related functions are applied to them. -/
lemma map_map {f : α → α} {g : β → β} (hfg : ∀ a b, R a b → R (f a) (g b))
    (h : Option.Rel R x y) : Option.Rel R (x.map f) (y.map g) := by
  cases h with
  | none => exact .none
  | some h => exact .some (hfg _ _ h)

/-- Related options have related values, or related defaults. -/
lemma getD_getD {a : α} {b : β} (hab : R a b) (h : Option.Rel R x y) :
    R (x.getD a) (y.getD b) := by
  cases h with
  | none => exact hab
  | some h => exact h

/-- Related options stay related when they are replaced by related ones on a condition. -/
lemma ite {p : Prop} [Decidable p] {x' : Option α} {y' : Option β} (h : Option.Rel R x y)
    (h' : Option.Rel R x' y') : Option.Rel R (if p then x' else x) (if p then y' else y) := by
  split_ifs
  · exact h'
  · exact h

/-- Related options have both a value or both none. -/
lemma isSome_eq (h : Option.Rel R x y) : x.isSome = y.isSome := by
  cases h <;> rfl

end Option.Rel

namespace KotlinTracer

/-! ## The books, from the calls -/

/-- What the calls say about the record of an id. -/
structure Meter where
  /-- From when on the next call counts the time: the creation or the latest resumption, and zero
  after a suspension. -/
  since : TraceTime
  /-- The time counted so far. -/
  counted : TraceTime := 0
  /-- The usage counted so far. -/
  used : Resource → ℤ := fun _ => 0
  /-- Whether the next `clean` drops the record. -/
  marked : Bool := false

namespace Meter

/-- A call counts the time since `since`, and what its thread used since it read `last`. -/
def count (last : RUsage) (ctx : Context) (w : Meter) : Meter :=
  { w with
    counted := w.counted + (ctx.now - w.since)
    used := fun r => w.used r + (ctx.rusage.amount r - last.amount r) }

/-- A suspension counts and stops the meter, if it runs. -/
def suspend (last : RUsage) (ctx : Context) (w : Meter) : Meter :=
  if 0 < w.since then { w.count last ctx with since := 0 } else w

/-- A resumption starts the meter again, without counting. -/
def resume (now : TraceTime) (w : Meter) : Meter := { w with since := now }

/-- The meter of a record that is marked for cleaning. -/
def mark (w : Meter) : Meter := { w with marked := true }

end Meter

/-- What the calls say about all records, and about the usage that the threads read last. -/
structure Books where
  meter : JLong → Option Meter := fun _ => none
  read : PThread → RUsage := fun _ => {}

namespace Books

/-- What a call makes of the meter of `c`. -/
def meterStep (env : Env) (b : Books) (e : Event) (c : JLong) : Option Meter :=
  match e.call with
  | .coroutineCreated d => if c = d then some ((b.meter c).getD { since := e.now }) else b.meter c
  | .coroutineSuspended d _ =>
    if c = d then (b.meter c).map (.suspend (b.read e.thread) e.toContext) else b.meter c
  | .coroutineResumed d => if c = d then (b.meter c).map (.resume e.now) else b.meter c
  | .coroutineCompleted d =>
    if c = d then (b.meter c).map (.count (b.read e.thread) e.toContext) else b.meter c
  | .traceStart d =>
    if d = -2 ∧ c = Profiler.traceId env e.thread d then
      some ((b.meter c).getD { since := e.now })
    else b.meter c
  | .traceEnd d =>
    if c = Profiler.traceId env e.thread d then
      (b.meter c).map (.count (b.read e.thread) e.toContext)
    else b.meter c
  | .markForClean => (b.meter c).map .mark
  | .clean => (b.meter c).filter fun w => !w.marked
  | _ => b.meter c

/-- Whether a call reads the usage of its thread. A suspension does so only if the meter runs, the
other calls if there is a record. -/
def reads (env : Env) (b : Books) (e : Event) : Bool :=
  match e.call with
  | .coroutineSuspended c _ => (b.meter c).any fun w => 0 < w.since
  | .coroutineResumed c => (b.meter c).isSome
  | .coroutineCompleted c => (b.meter c).isSome
  | .traceEnd c => (b.meter (Profiler.traceId env e.thread c)).isSome
  | _ => false

/-- The books after one more call. -/
def step (env : Env) (b : Books) (e : Event) : Books where
  meter := b.meterStep env e
  read := if b.reads env e then Function.update b.read e.thread e.rusage else b.read

end Books

/-- The books after the calls `es`. -/
def books (env : Env) (es : List Event) : Books := es.foldl (Books.step env) {}

lemma books_concat (env : Env) (es : List Event) (e : Event) :
    books env (es ++ [e]) = (books env es).step env e := by
  rw [books, List.foldl_append]
  rfl

/-! ## The books describe the state -/

/-- What a record holds when `x` was counted of a quantity: the switches are counted modulo the
range of their type. -/
def Resource.stored : Resource → ℤ → ℤ
  | .user, x => x
  | .system, x => x
  | .voluntary, x => x % 2 ^ 64
  | .involuntary, x => x % 2 ^ 64

/-- What is stored after an amount is added to what is stored. -/
lemma Resource.stored_stored_add (r : Resource) (x a : ℤ) :
    r.stored (r.stored x + a) = r.stored (x + a) := by
  cases r with
  | user => rfl
  | system => rfl
  | voluntary => exact Int.emod_add_emod x (2 ^ 64) a
  | involuntary => exact Int.emod_add_emod x (2 ^ 64) a

/-- What is stored grows by at most what is counted. -/
lemma Resource.stored_sub_le (r : Resource) {x y : ℤ} (h : x ≤ y) :
    r.stored y - r.stored x ≤ y - x := by
  cases r <;> simp only [stored] <;> omega

/-- What is stored grows by what is counted: always for a time, and for switches as long as the
count does not wrap. -/
lemma Resource.stored_sub_eq {r : Resource} {x y : ℤ} (hx : 0 ≤ x) (h : x ≤ y)
    (hr : r = .user ∨ r = .system ∨ y < 2 ^ 64) : r.stored y - r.stored x = y - x := by
  cases r <;> simp only [stored] <;> simp at hr <;> omega

/-- The quantities of a record after a credit. -/
lemma amount_creditedInfo (last : RUsage) (ctx : Context) (info : CoroutineInfo) (r : Resource) :
    (creditedInfo last ctx info).amount r =
      if r = .user ∨ r = .system then info.amount r + (ctx.rusage.amount r - last.amount r)
      else (info.amount r + (ctx.rusage.amount r - last.amount r)) % 2 ^ 64 := by
  have haddUInt64 : ∀ (x : ℕ) (a : ℤ), (addUInt64 x a : ℤ) = (x + a) % 2 ^ 64 := fun x a =>
    Int.toNat_of_nonneg (Int.emod_nonneg _ (by norm_num))
  rw [← Credit.amount_eq info last ctx.rusage ctx.now]
  cases r with
  | user => rfl
  | system => rfl
  | voluntary => exact haddUInt64 _ _
  | involuntary => exact haddUInt64 _ _

namespace Meter

variable {w : Meter} {info : CoroutineInfo}

/-- The meter says what the record holds. -/
structure Describes (w : Meter) (info : CoroutineInfo) : Prop where
  since : info.lastResume = w.since
  counted : info.wallClockRunningTime = w.counted
  used : ∀ r, info.amount r = r.stored (w.used r)

/-- A new record. -/
lemma describes_new (now : TraceTime) :
    ({ since := now } : Meter).Describes (TraceStorage.newCoroutineInfo now) :=
  ⟨rfl, rfl, fun r => by cases r <;> rfl⟩

/-- A call that counts. -/
lemma Describes.count (h : w.Describes info) (last : RUsage) (ctx : Context) :
    (w.count last ctx).Describes (creditedInfo last ctx info) := by
  refine ⟨h.since, ?_, fun r => ?_⟩
  · rw [creditedInfo_wallClockRunningTime, resourceCredit, h.counted, h.since]
    rfl
  · have hstored := r.stored_stored_add (w.used r) (ctx.rusage.amount r - last.amount r)
    rw [← h.used r] at hstored
    rw [amount_creditedInfo, Meter.count, ← hstored]
    cases r <;> rfl

/-- A call that counts and ends the coroutine. -/
lemma Describes.complete (h : w.Describes info) (last : RUsage) (ctx : Context) :
    (w.count last ctx).Describes (completedInfo last ctx info) := by
  have hended : w.Describes { info with endTime := ctx.now } :=
    ⟨h.since, h.counted, fun r => by rw [← h.used r]; cases r <;> rfl⟩
  exact hended.count last ctx

/-- A suspension. -/
lemma Describes.suspend (h : w.Describes info) (last : RUsage) (ctx : Context) (c : JLong)
    (frames : Option (List StackFrame)) :
    (w.suspend last ctx).Describes (suspendedInfo last ctx c frames info) := by
  have hcount := h.count last ctx
  refine ⟨?_, ?_, fun r => ?_⟩
  · rw [lastResume_suspendedInfo, h.since, Meter.suspend]
    split_ifs <;> rfl
  · rw [wallClockRunningTime_suspendedInfo, h.since, h.counted, Meter.suspend]
    split_ifs <;> rfl
  · rw [amount_suspendedInfo, h.since, hcount.used r, h.used r, Meter.suspend]
    split_ifs <;> rfl

/-- A resumption. -/
lemma Describes.resume (h : w.Describes info) (now : TraceTime) :
    (w.resume now).Describes (resumedInfo now info) :=
  ⟨rfl, h.counted, fun r => by rw [Meter.resume, ← h.used r]; cases r <;> rfl⟩

/-- A mark is not part of the record. -/
lemma Describes.mark (h : w.Describes info) : w.mark.Describes info := ⟨h.since, h.counted, h.used⟩

end Meter

namespace Books

variable {env : Env} {b : Books} {p p' : Profiler} {e : Event} {o : List Effect}

/-- The books say what the profiler has recorded. -/
structure Describe (b : Books) (p : Profiler) : Prop where
  meter : ∀ c, Option.Rel Meter.Describes (b.meter c) (p.storage.getCoroutineInfo c)
  marked : ∀ c, c ∈ p.storage.coroutineInfoMap.cleanList ↔ ∃ w ∈ b.meter c, w.marked = true
  read : ∀ t, (p.locals t).currentRusage = b.read t

/-- The meters after a step describe the records. -/
lemma Describe.meter_step (h : b.Describe p) (hstep : p.step env e = some (p', o)) (c : JLong) :
    Option.Rel Meter.Describes (b.meterStep env e c) (p'.storage.getCoroutineInfo c) := by
  obtain ⟨frames, hinfo⟩ := Profiler.step_info hstep
  have hc := h.meter c
  have hcreate := hc.getD_getD (Meter.describes_new e.now)
  rw [hinfo c, h.read]
  obtain ⟨ctx, call⟩ := e
  cases call with
  | coroutineCreated d => exact hc.ite (.some hcreate)
  | coroutineSuspended d stack => exact hc.ite (hc.map_map fun _ _ hw => hw.suspend _ _ _ _)
  | coroutineResumed d => exact hc.ite (hc.map_map fun _ _ hw => hw.resume _)
  | coroutineCompleted d => exact hc.ite (hc.map_map fun _ _ hw => hw.complete _ _)
  | traceStart d => exact hc.ite (.some hcreate)
  | traceEnd d => exact hc.ite (hc.map_map fun _ _ hw => hw.count _ _)
  | markForClean =>
    have hmark := hc.map_map (g := id) fun _ _ => Meter.Describes.mark
    rwa [Option.map_id, id] at hmark
  | clean =>
    simp only [infoUpdate, meterStep]
    have hmarked := h.marked c
    generalize b.meter c = w at hc hmarked
    generalize p.storage.getCoroutineInfo c = info at hc
    cases hc with
    | none => simp
    | @some w info hw =>
      cases hm : w.marked with
      | false => simpa [hmarked, hm, Option.filter] using hw
      | true => simp [hmarked, hm, Option.filter]
  | _ => exact hc

/-- The marks after a step are those of the records in the clean list. -/
lemma Describe.marked_step (h : b.Describe p) (hstep : p.step env e = some (p', o)) (c : JLong) :
    c ∈ p'.storage.coroutineInfoMap.cleanList ↔
      ∃ w ∈ b.meterStep env e c, w.marked = true := by
  rw [(Profiler.step_cleanList hstep c).1, h.marked c, ← (h.meter c).isSome_eq]
  obtain ⟨ctx, call⟩ := e
  cases hw : b.meter c with
  | none => cases call <;> simp [meterStep, hw]
  | some w =>
    cases call <;> simp [meterStep, hw, Meter.mark] <;> split_ifs <;>
      simp [Meter.suspend, Meter.count, Meter.resume, apply_ite Meter.marked]

/-- A coroutine is running if its meter is. -/
lemma Describe.isRunning (h : b.Describe p) (c : JLong) :
    p.isRunning c = (b.meter c).any fun w => 0 < w.since := by
  have hc := h.meter c
  rw [Profiler.isRunning]
  generalize b.meter c = w at hc
  generalize p.storage.getCoroutineInfo c = info at hc
  cases hc with
  | none => rfl
  | some hw => rw [Option.any_some, Option.any_some, hw.since]

/-- The usage that the threads read last, after a step. -/
lemma Describe.read_step (h : b.Describe p) (hstep : p.step env e = some (p', o)) (t : PThread) :
    (p'.locals t).currentRusage = (b.step env e).read t := by
  have hlocals := Profiler.step_locals hstep
  -- a call that sets the usage of its thread if it reads it, and leaves the other threads alone
  have hupdate : ∀ (reads : Bool) (local' : ThreadLocals),
      (local'.currentRusage = if reads then e.rusage else (p.locals e.thread).currentRusage) →
      (Function.update p.locals e.thread local' t).currentRusage =
        (if reads then Function.update b.read e.thread e.rusage else b.read) t := by
    intro reads local' hlocal
    by_cases ht : t = e.thread
    · subst ht
      cases reads <;> simp [hlocal, h.read]
    · cases reads <;> simp [ht, h.read]
  have hrecord := fun c => (h.meter c).isSome_eq
  rw [hlocals, Books.step]
  obtain ⟨ctx, call⟩ := e
  cases call with
  | coroutineSuspended c stack => exact hupdate _ _ (by simp only [reads, h.isRunning]; rfl)
  | coroutineResumed c => exact hupdate _ _ (by simp only [reads, hrecord])
  | coroutineCompleted c => exact hupdate _ _ (by simp only [reads, hrecord])
  | traceEnd c => exact hupdate _ _ (by simp only [reads, hrecord])
  | _ => exact h.read t

/-- **The books describe the state after one more call.** -/
lemma Describe.step (h : b.Describe p) (hstep : p.step env e = some (p', o)) :
    (b.step env e).Describe p' :=
  ⟨h.meter_step hstep, h.marked_step hstep, h.read_step hstep⟩

end Books

variable {env : Env} {l l₁ : Log} {p p₁ : Profiler} {c : JLong}

/-- **In every run the books of its calls describe the state.** -/
theorem books_describe (hrun : Run env l p) : (books env (l.map Prod.fst)).Describe p := by
  refine LogMachine.RunFrom.invariant
    (I := fun l p => (books env (l.map Prod.fst)).Describe p) ?_ ?_ hrun
  · refine ⟨fun c => .none, fun c => ⟨fun hc => ?_, fun hc => ?_⟩, fun t => rfl⟩
    · exact absurd hc List.not_mem_nil
    · obtain ⟨w, hw, -⟩ := hc
      exact absurd hw (Option.not_mem_none w)
  · intro l p e o p' _ ih hstep
    rw [List.map_append, List.map_singleton, books_concat]
    exact ih.step hstep

/-- A call takes nothing off what the meter of a record shows of the usage, and the meter of a new
record starts with nothing. -/
lemma Books.used_le_step {b : Books} {e : Event} {r : Resource} {w : Meter}
    (hread : (b.read e.thread).amount r ≤ e.rusage.amount r)
    (hw : b.meterStep env e c = some w) :
    ((b.meter c).elim 0 fun v => v.used r) ≤ w.used r := by
  have hcount : ∀ v : Meter, v.used r ≤ (v.count (b.read e.thread) e.toContext).used r :=
    fun v => le_add_of_nonneg_right (sub_nonneg.mpr hread)
  have hsuspend : ∀ v : Meter, v.used r ≤ (v.suspend (b.read e.thread) e.toContext).used r := by
    intro v
    rw [Meter.suspend]
    split_ifs
    · exact hcount v
    · exact le_rfl
  rw [Books.meterStep] at hw
  cases hv : b.meter c with
  | none =>
    cases hcall : e.call <;> simp only [hcall, hv, Option.map_none, Option.getD_none] at hw <;>
      grind
  | some v =>
    cases hcall : e.call <;> simp only [hcall, hv, Option.map_some, Option.getD_some] at hw <;>
      grind [Meter.resume, Meter.mark]

/-- **What is counted of the usage is not negative.** -/
lemma used_nonneg_of_run (hrun : Run env l p) (husage : UsageClock (l.map Prod.fst)) {w : Meter}
    (hw : (books env (l.map Prod.fst)).meter c = some w) (r : Resource) : 0 ≤ w.used r := by
  refine LogMachine.RunFrom.invariant
    (I := fun l _ => UsageClock (l.map Prod.fst) →
      ∀ w, (books env (l.map Prod.fst)).meter c = some w → 0 ≤ w.used r) ?_ ?_ hrun husage w hw
  · intro _ w hw
    exact absurd hw (by simp [books])
  · intro l p e o p' hrun ih hstep husage w hw
    rw [List.map_append] at husage
    rw [List.map_append, List.map_singleton, books_concat] at hw
    have hread := currentRusage_le hrun husage r
    rw [(books_describe hrun).read] at hread
    refine le_trans ?_ (Books.used_le_step hread hw)
    cases hv : (books env (l.map Prod.fst)).meter c with
    | none => exact le_rfl
    | some v => exact ih husage.of_append v hv

/-- **What is counted of the usage does not decrease while the record is kept.** -/
lemma used_le_of_run {p₀ : Profiler} {w₀ : Meter} {r : Resource} (hrun : Run env l p₀)
    (hw₀ : (books env (l.map Prod.fst)).meter c = some w₀)
    (hrun₁ : (machine env).RunFrom p₀ l₁ p₁) (husage : UsageClock ((l ++ l₁).map Prod.fst))
    (hkept : ∀ m, m <+: l₁.map Prod.fst → ((books env (l.map Prod.fst ++ m)).meter c).isSome) :
    ∃ w, (books env ((l ++ l₁).map Prod.fst)).meter c = some w ∧ w₀.used r ≤ w.used r := by
  refine LogMachine.RunFrom.invariant
    (I := fun l₁ _ => UsageClock ((l ++ l₁).map Prod.fst) →
      (∀ m, m <+: l₁.map Prod.fst → ((books env (l.map Prod.fst ++ m)).meter c).isSome) →
      ∃ w, (books env ((l ++ l₁).map Prod.fst)).meter c = some w ∧ w₀.used r ≤ w.used r)
    ?_ ?_ hrun₁ husage hkept
  · intro _ _
    rw [List.append_nil]
    exact ⟨w₀, hw₀, le_rfl⟩
  · intro l₁ p e o p' hrun₁ ih hstep husage hkept
    have hrun' : Run env (l ++ l₁) p := (machine env).runFrom_append.mpr ⟨p₀, hrun, hrun₁⟩
    rw [← List.append_assoc, List.map_append] at husage ⊢
    rw [List.map_append] at hkept
    obtain ⟨w, hw, hle⟩ := ih husage.of_append fun m hm =>
      hkept m (hm.trans (List.prefix_append _ _))
    obtain ⟨w', hw'⟩ := Option.isSome_iff_exists.mp (hkept _ List.prefix_rfl)
    rw [← List.append_assoc, ← List.map_append, List.map_singleton, books_concat] at hw'
    have hread := currentRusage_le hrun' husage r
    rw [(books_describe hrun').read] at hread
    rw [List.map_singleton, books_concat]
    have hstep' := Books.used_le_step hread hw'
    rw [hw] at hstep'
    exact ⟨w', hw', hle.trans hstep'⟩

end KotlinTracer
