import KotlinTracer.Export.Lineage

set_option relaxedAutoImplicit false
set_option autoImplicit false

/-!
# Nested coroutines

A coroutine that is started undispatched runs inside of the one that started it: on their thread
the resumptions and the suspensions or completions are nested like brackets. The profiler keeps one
current coroutine for a thread, and every suspension and completion resets it, so that the outer
coroutine is forgotten when the inner one stops. A coroutine that the outer one creates afterwards
is not registered as its child.

## Main definitions

* `KotlinTracer.nesting` — the coroutines that were resumed and not yet suspended or completed on a
  thread, the innermost first, from the calls.
* `KotlinTracer.ProperlyNested` — a suspension or completion is one of the innermost coroutine.
* `KotlinTracer.resumedLast` — the last of these calls on a thread was a resumption.

## Main results

* `KotlinTracer.currentCoroutineId_eq_lineage` — the current coroutine of a thread, from the calls.
* `KotlinTracer.created_registers_iff` — a created coroutine is registered as a child of the
  innermost coroutine if and only if no coroutine stopped on the thread since that was resumed.
* `KotlinTracer.created_not_registered` — after an undispatched coroutine was suspended, the next
  one is not registered.
-/

namespace KotlinTracer

/-! ## Nesting, from the calls -/

/-- The coroutines on a thread after one more event. -/
def nestingStep (t : PThread) (stack : List JLong) (e : Event) : List JLong :=
  if e.thread = t then
    match e.call with
    | .coroutineResumed c => c :: stack
    | .coroutineSuspended c _ => stack.erase c
    | .coroutineCompleted c => stack.erase c
    | _ => stack
  else stack

/-- The coroutines that were resumed and not yet suspended or completed on a thread, the innermost
first. -/
def nesting (t : PThread) (es : List Event) : List JLong := es.foldl (nestingStep t) []

/-- A suspension or completion is one of the innermost coroutine of its thread. -/
def ProperlyNested (before : List Event) (e : Event) : Prop :=
  match e.call with
  | .coroutineSuspended c _ => (nesting e.thread before).head? = some c
  | .coroutineCompleted c => (nesting e.thread before).head? = some c
  | _ => True

instance (before : List Event) : ∀ e, Decidable (ProperlyNested before e)
  | ⟨ctx, .coroutineSuspended c _⟩ =>
    inferInstanceAs (Decidable ((nesting ctx.thread before).head? = some c))
  | ⟨ctx, .coroutineCompleted c⟩ =>
    inferInstanceAs (Decidable ((nesting ctx.thread before).head? = some c))
  | ⟨_, .threadStart _ _ _⟩ | ⟨_, .coroutineCreated _⟩ | ⟨_, .coroutineResumed _⟩
  | ⟨_, .traceStart _⟩ | ⟨_, .traceEnd _⟩ | ⟨_, .gcStart⟩ | ⟨_, .gcFinish⟩ | ⟨_, .addRawTrace _ _⟩
  | ⟨_, .addProcessedTrace _ _⟩ | ⟨_, .processTraces⟩ | ⟨_, .markForClean⟩ | ⟨_, .clean⟩ =>
    isTrue trivial

/-- Whether the last resumption, suspension or completion on a thread was a resumption, after one
more event. -/
def resumedLastStep (t : PThread) (resumed : Bool) (e : Event) : Bool :=
  if e.thread = t then
    match e.call with
    | .coroutineResumed _ => true
    | .coroutineSuspended _ _ => false
    | .coroutineCompleted _ => false
    | _ => resumed
  else resumed

/-- Whether the last resumption, suspension or completion on a thread was a resumption. -/
def resumedLast (t : PThread) (es : List Event) : Bool := es.foldl (resumedLastStep t) false

/-! ## The current coroutine -/

/-- **The current coroutine of a thread, from the calls**, in every run, cleaner steps included. -/
lemma currentCoroutineId_eq_lineage {env : Env} {es : List Event} {p : Profiler}
    (hrun : (machine env).Reaches es p) (t : PThread) :
    (p.locals t).currentCoroutineId = (lineage env es).current t := by
  refine LogMachine.Reaches.invariant
    (I := fun es p => ∀ t, (p.locals t).currentCoroutineId = (lineage env es).current t)
    ?_ ?_ hrun t
  · intro t
    rfl
  · intro es p e o p' _ ih hstep
    exact LineageRefines.step_current hstep ih

/-- The current coroutine of a thread is the innermost one after a resumption, and none after a
suspension or completion.

**Proof sketch.** Induction on the calls from their end. A resumption puts its coroutine on top and
makes it current, a suspension or completion makes none current, and every other call, and every
call on another thread, leaves all three as they are. -/
lemma current_of_resumedLast (env : Env) (t : PThread) (es : List Event) :
    (resumedLast t es = true → (nesting t es).head? = some ((lineage env es).current t)) ∧
      (resumedLast t es = false → (lineage env es).current t = -1) := by
  induction es using List.reverseRecOn with
  | nil =>
    refine ⟨fun h => ?_, fun _ => rfl⟩
    cases h
  | append_singleton es e ih =>
    rw [lineage_concat]
    simp only [nesting, resumedLast, List.foldl_append, List.foldl_cons, List.foldl_nil]
    rw [← nesting, ← resumedLast]
    by_cases ht : e.thread = t
    · simp only [nestingStep, resumedLastStep, Lineage.step, ht, if_true]
      cases e.call with
      | coroutineResumed c => simp
      | coroutineSuspended c stack => simp
      | coroutineCompleted c => simp
      | coroutineCreated c =>
        dsimp only
        split_ifs <;> exact ih
      | _ => exact ih
    · have hne : t ≠ e.thread := Ne.symm ht
      simp only [nestingStep, resumedLastStep, Lineage.step, ht, if_false]
      cases e.call with
      | coroutineResumed c => simpa [Function.update_of_ne hne] using ih
      | coroutineSuspended c stack => simpa [Function.update_of_ne hne] using ih
      | coroutineCompleted c => simpa [Function.update_of_ne hne] using ih
      | coroutineCreated c =>
        dsimp only
        split_ifs <;> exact ih
      | _ => exact ih

/-! ## Children of the innermost coroutine -/

/-- **When a created coroutine is registered as a child.** In every run, the properly nested ones
included: when `coroutineCreated(d)` is executed on a thread whose innermost coroutine `a` has a
child list, `d` is appended to the list if and only if no coroutine was suspended or completed on
the thread since the last resumption there, which was that of `a`; otherwise the list stays as it
is. (The id `-1` stands for no coroutine.) -/
theorem created_registers_iff {env : Env} {es : List Event} {p p' : Profiler} {e : Event}
    {o : List Effect} {a d : JLong} {children : ConcurrentList JLong}
    (hrun : (machine env).Reaches es p) (hstep : p.step env e = some (p', o))
    (hcall : e.call = .coroutineCreated d)
    (hinnermost : (nesting e.thread es).head? = some a)
    (hchildren : p.storage.getChildCoroutines a = some children) :
    (p'.storage.getChildCoroutines a = some (children.pushBack d) ↔
        a = -1 ∨ resumedLast e.thread es) ∧
      (¬ (a = -1 ∨ resumedLast e.thread es) →
        p'.storage.getChildCoroutines a = some children) := by
  have hcurrent : (lineage env es).current e.thread = a ↔
      a = -1 ∨ resumedLast e.thread es = true := by
    obtain ⟨hresumed, hstopped⟩ := current_of_resumedLast env e.thread es
    cases hlast : resumedLast e.thread es with
    | true =>
      rw [hresumed hlast, Option.some.injEq] at hinnermost
      simp [hinnermost]
    | false =>
      rw [hstopped hlast]
      simp [eq_comm]
  have hafter : p'.storage.getChildCoroutines a =
      if a = -1 ∨ resumedLast e.thread es then some (children.pushBack d)
      else some children := by
    have hlist := Profiler.step_children hstep a
    rw [hcall] at hlist
    dsimp only at hlist
    rw [currentCoroutineId_eq_lineage hrun, hchildren, Option.getD_some, ite_self] at hlist
    rw [hlist]
    by_cases heq : (lineage env es).current e.thread = a
    · rw [if_pos (hcurrent.mp heq), heq, hchildren, if_neg (Option.some_ne_none _), if_pos rfl]
      rfl
    · rw [if_neg (mt hcurrent.mpr heq), if_neg (Ne.symm heq), ite_self]
  have hne : children ≠ children.pushBack d := by
    intro heq
    have hlength := congrArg (fun list : ConcurrentList JLong => list.list.length) heq
    simp at hlength
  rw [hafter]
  split_ifs with hcond
  · exact ⟨iff_of_true rfl hcond, fun hnot => absurd hcond hnot⟩
  · refine ⟨iff_of_false (fun heq => hne ?_) hcond, fun _ => rfl⟩
    exact Option.some.inj heq

/-! ## Concrete runs -/

/-- A traced coroutine 5 that starts coroutine 6 undispatched: 6 runs inside of it. -/
def undispatchedLaunch : List Event :=
  [(Call.threadStart "main" 0 0).at 1 1, (Call.coroutineCreated 5).at 1 1,
    (Call.coroutineResumed 5).at 1 2, (Call.traceStart 5).at 1 3, (Call.coroutineCreated 6).at 1 4,
    (Call.coroutineResumed 6).at 1 4]

/-- Coroutine 8, which is created while 6 is the innermost coroutine, is registered as its
child. -/
theorem created_registers_undispatchedLaunch :
    ∃ p p' o, (machine .sample).Reaches undispatchedLaunch p ∧
      undispatchedLaunch.AtEvery ProperlyNested ∧
      p.step .sample ((Call.coroutineCreated 8).at 1 5) = some (p', o) ∧
      p'.storage.getChildCoroutines 6 = some ⟨[8], 0⟩ := by
  have hexec : ((machine .sample).exec (machine .sample).init undispatchedLaunch).map
      (fun q => (((q.1.storage.getChildCoroutines 6).map fun list => (list.list, list.cleanUntil)),
        (q.1.step .sample ((Call.coroutineCreated 8).at 1 5)).isSome)) =
      some (some ([], 0), true) := by decide
  obtain ⟨l, p, hrun, hes, hfacts⟩ := LogMachine.exists_run_of_map_exec hexec
  rw [Prod.mk.injEq] at hfacts
  obtain ⟨hlist, hsome⟩ := hfacts
  obtain ⟨⟨list, cleanUntil⟩, hchildren, heq⟩ := Option.map_eq_some_iff.mp hlist
  rw [Prod.mk.injEq] at heq
  obtain ⟨rfl, rfl⟩ := heq
  obtain ⟨⟨p', o⟩, hstep⟩ := Option.isSome_iff_exists.mp hsome
  have hreaches : (machine .sample).Reaches undispatchedLaunch p := ⟨l, hrun, hes⟩
  have hregistered := (created_registers_iff hreaches hstep rfl (by decide) hchildren).1
  exact ⟨p, p', o, hreaches, by decide, hstep, hregistered.mpr (Or.inr (by decide))⟩

/-- The undispatched coroutine 6 is suspended, so that coroutine 5 goes on. -/
def innerSuspended : List Event :=
  undispatchedLaunch ++ [(Call.coroutineSuspended 6 none).at 1 5]

/-- **After the undispatched coroutine is suspended, the next one is not registered**: coroutine 5
is the innermost coroutine and has a child list, but the coroutine 8 that it creates then is not in
the list. -/
theorem created_not_registered :
    ∃ p p' o, (machine .sample).Reaches innerSuspended p ∧ innerSuspended.AtEvery ProperlyNested ∧
      (nesting 1 innerSuspended).head? = some 5 ∧
      p.storage.getChildCoroutines 5 = some ⟨[6], 0⟩ ∧
      p.step .sample ((Call.coroutineCreated 8).at 1 6) = some (p', o) ∧
      p'.storage.getChildCoroutines 5 = some ⟨[6], 0⟩ := by
  have hexec : ((machine .sample).exec (machine .sample).init innerSuspended).map
      (fun q => (((q.1.storage.getChildCoroutines 5).map fun list => (list.list, list.cleanUntil)),
        (q.1.step .sample ((Call.coroutineCreated 8).at 1 6)).map fun r =>
          (r.1.storage.getChildCoroutines 5).map fun list => (list.list, list.cleanUntil))) =
      some (some ([6], 0), some (some ([6], 0))) := by decide
  obtain ⟨l, p, hrun, hes, hfacts⟩ := LogMachine.exists_run_of_map_exec hexec
  rw [Prod.mk.injEq] at hfacts
  obtain ⟨hbefore, hafter⟩ := hfacts
  obtain ⟨⟨p', o⟩, hstep, hafter⟩ := Option.map_eq_some_iff.mp hafter
  have hlist : ∀ x : Option (ConcurrentList JLong),
      (x.map fun list => (list.list, list.cleanUntil)) = some ([6], 0) → x = some ⟨[6], 0⟩ := by
    intro x hx
    obtain ⟨⟨list, cleanUntil⟩, rfl, heq⟩ := Option.map_eq_some_iff.mp hx
    rw [Prod.mk.injEq] at heq
    obtain ⟨rfl, rfl⟩ := heq
    rfl
  exact ⟨p, p', o, ⟨l, hrun, hes⟩, by decide, by decide, hlist _ hbefore, hstep, hlist _ hafter⟩

end KotlinTracer
