import KotlinTracer.Sampler.Rounds

set_option relaxedAutoImplicit false
set_option autoImplicit false

/-!
# The end of a round

Two moments of the hand-off are not covered by the flag `ready`. A handler calls `notify_one` on a
trace after it has set `ready`, and from then on the profiler thread may queue, process and release
the trace. And a handler that is started after `stop` returns without setting `ready`, while the
profiler thread waits for it.

## Main definitions

* `KotlinTracer.Sampler.Dangling` — a handler has an access to make to a trace that was discarded.
* `KotlinTracer.Sampler.LostWakeup` — the profiler thread waits for a trace that no handler will
  make ready.

## Main results

* `KotlinTracer.not_dangling_iff` — no access of a handler but `notify_one` can be dangling, and a
  run has no dangling access exactly if no trace is discarded before its handler has called
  `notify_one`.
* `KotlinTracer.not_lostWakeup_iff` — a run has no lost wake-up exactly if every handler finds
  `active_` set.
-/

namespace KotlinTracer

variable {env : SamplerEnv}

/-! ## Accesses to discarded traces -/

/-- The trace that a handler has still to access. -/
@[simp] def SignalHandler.accesses : SignalHandler → Option TracePtr
  | .loaded x => some x
  | .unwound x => some x
  | .tagged x => some x
  | .readied x => some x
  | _ => none

/-- A handler has an access to make to a trace that was discarded. -/
def Sampler.Dangling (s : Sampler) : Prop :=
  ∃ t x, (s.handlers t).accesses = some x ∧ s.heap x = none

/-- The trace that the next step of the profiler thread discards, with its thread. -/
def Sampler.nextDiscard (s : Sampler) : Option (TracePtr × PThread) :=
  if s.thread = .processing then
    s.rawTraces.head?.bind fun x => (s.heap x).map fun cell => (x, cell.trace.threadId)
  else none

lemma Sampler.nextDiscard_of {s : Sampler} {x : TracePtr} {rest : List TracePtr} {cell : TraceCell}
    (hthread : s.thread = .processing) (hraw : s.rawTraces = x :: rest)
    (hcell : s.heap x = some cell) : (x, cell.trace.threadId) ∈ s.nextDiscard := by
  rw [nextDiscard, if_pos hthread, hraw, List.head?_cons, Option.bind_some, hcell]
  rfl

lemma Sampler.of_mem_nextDiscard {s : Sampler} {discard : TracePtr × PThread}
    (h : discard ∈ s.nextDiscard) :
    s.thread = .processing ∧ ∃ rest, s.rawTraces = discard.1 :: rest := by
  rw [nextDiscard] at h
  split_ifs at h with hthread
  · obtain ⟨x, hx, hcell⟩ := Option.bind_eq_some_iff.mp h
    obtain ⟨cell, -, rfl⟩ := Option.map_eq_some_iff.mp hcell
    exact ⟨hthread, List.head?_eq_some_iff.mp hx⟩
  · cases h

/-- If the step discards a trace, then the handler of its thread has called `notify_one` on it. -/
def Sampler.DiscardsNotified (s : Sampler) : SamplerEvent → Prop
  | .profiler _ => ∀ discard ∈ s.nextDiscard, s.handlers discard.2 ≠ .readied discard.1
  | _ => True

instance (s : Sampler) : ∀ e, Decidable (s.DiscardsNotified e)
  | .profiler _ => inferInstanceAs (Decidable (∀ discard ∈ s.nextDiscard, _))
  | .callback _ => isTrue trivial
  | .startProfiler => isTrue trivial
  | .stop => isTrue trivial
  | .deliver _ => isTrue trivial
  | .handler _ _ => isTrue trivial

/-- The handlers' accesses are to traces in memory. -/
def Sampler.AccessesHeap (s : Sampler) : Prop :=
  ∀ t x, (s.handlers t).accesses = some x → s.heap x ≠ none

lemma Sampler.not_dangling {s : Sampler} : ¬ s.Dangling ↔ s.AccessesHeap := by
  unfold Dangling AccessesHeap
  push Not
  rfl

/-- A handler accesses a trace that it has still to make ready, or only notifies. -/
lemma SignalHandler.accesses_cases {handler : SignalHandler} {x : TracePtr}
    (h : handler.accesses = some x) : handler.serves = some x ∨ handler = .readied x := by
  cases handler with
  | loaded y => exact .inl h
  | unwound y => exact .inl h
  | tagged y => exact .inl h
  | readied y =>
    cases h
    exact .inr rfl
  | _ => cases h

/-- A trace that a handler has still to make ready is in memory. -/
lemma RoundInv.heap_of_serves {r : Round} (h : RoundInv r) {t : PThread} {x : TracePtr}
    (ht : (r.handlers t).serves = some x) : r.heap x ≠ none := by
  obtain ⟨⟨-, cell, hcell, -⟩, -⟩ := h.serves t x ht
  rw [hcell]
  exact Option.some_ne_none cell

/-- The accesses of the handlers stay in memory when one handler goes on with a trace and memory
only changes at traces that it keeps. -/
lemma Sampler.AccessesHeap.update {s : Sampler} (h : s.AccessesHeap) {t : PThread}
    {handler : SignalHandler} {heap : TracePtr → Option TraceCell}
    (hheap : ∀ x, s.heap x ≠ none → heap x ≠ none)
    (hhandler : ∀ x, handler.accesses = some x → heap x ≠ none) :
    ∀ t' x, (Function.update s.handlers t handler t').accesses = some x → heap x ≠ none := by
  intro t' x hx
  by_cases ht : t' = t
  · subst ht
    rw [Function.update_self] at hx
    exact hhandler x hx
  · rw [Function.update_of_ne ht] at hx
    exact hheap x (h t' x hx)

/-- Writing to an address keeps memory. -/
lemma update_some_ne_none {heap : TracePtr → Option TraceCell} {y : TracePtr} {cell : TraceCell}
    {x : TracePtr} (hx : heap x ≠ none) : Function.update heap y (some cell) x ≠ none := by
  rw [Function.update_apply]
  split_ifs
  · exact Option.some_ne_none cell
  · exact hx

/-- **A step keeps the accesses in memory** if it discards no trace whose handler is still to call
`notify_one`. -/
lemma Sampler.AccessesHeap.step {s s' : Sampler} {e : SamplerEvent} {o : List SamplerEffect}
    (h : s.AccessesHeap) (hr : RoundInv s.round) (he : s.DiscardsNotified e)
    (hstep : s.step env e = some (s', o)) : s'.AccessesHeap := by
  have hwrite : ∀ {t x cell handler}, (handler : SignalHandler).accesses = some x →
      ((s.store x (some cell)).setHandler t handler).AccessesHeap := by
    intro t x cell handler hhandler
    refine h.update (fun y hy => update_some_ne_none hy) ?_
    intro y hy
    rw [hhandler] at hy
    cases hy
    show Function.update s.heap x (some cell) x ≠ none
    rw [Function.update_self]
    exact Option.some_ne_none cell
  have hreturn : ∀ {t thread}, ((s.setHandler t .idle).goTo thread).AccessesHeap := by
    intro t thread
    exact h.update (fun y hy => hy) fun y hy => nomatch hy
  cases Sampler.step_spec hstep with
  | publish hthread => exact fun t x hx => update_some_ne_none (h t x hx)
  | process hthread hraw hprocess =>
    intro t y hy
    rw [Sampler.discard_handlers] at hy
    rcases SignalHandler.accesses_cases hy with hserves | hreadied
    · have hphase := (hr.serves t y hserves).1.1
      rw [Sampler.round_phase_of hthread] at hphase
      cases hphase
    · have hy' := h t y hy
      rw [Sampler.discard_heap, Function.update_of_ne]
      · exact hy'
      · rintro rfl
        obtain ⟨cell, hcell⟩ := Option.ne_none_iff_exists'.mp hy'
        refine he _ (Sampler.nextDiscard_of hthread hraw hcell) ?_
        rw [((hr.readied t y hreadied).2 cell hcell).2]
        exact hreadied
  | deliver hidle hsignal => exact h.update (fun y hy => hy) fun y hy => nomatch hy
  | pass hhandler hactive => exact h.update (fun y hy => hy) fun y hy => nomatch hy
  | refuse hhandler hactive => exact h.update (fun y hy => hy) fun y hy => nomatch hy
  | load hhandler hslot =>
    refine h.update (fun y hy => hy) fun y hy => ?_
    have hload := hr.slot_of_serves (Sampler.serves_of hhandler)
    rw [Sampler.round_slot, hslot] at hload
    cases hload
    cases hy
    exact hr.heap_of_serves (Sampler.serves_of hhandler)
  | unwind hhandler hcell htrace => exact hwrite rfl
  | tag hhandler hcell hc => exact hwrite rfl
  | setReady hhandler hcell => exact hwrite rfl
  | notify hhandler hcell => exact hreturn
  | _ => exact h

/-- A step that discards a trace whose handler is still to call `notify_one` leaves it dangling. -/
lemma Sampler.dangling_of_step {s s' : Sampler} {e : SamplerEvent} {o : List SamplerEffect}
    (he : ¬ s.DiscardsNotified e) (hstep : s.step env e = some (s', o)) : s'.Dangling := by
  cases e with
  | profiler now =>
    obtain ⟨⟨x, t⟩, hdiscard, hreadied⟩ : ∃ discard ∈ s.nextDiscard,
        s.handlers discard.2 = .readied discard.1 := by
      simpa [DiscardsNotified] using he
    obtain ⟨hthread, rest, hraw⟩ := of_mem_nextDiscard hdiscard
    cases step_spec hstep with
    | process hthread' hraw' hprocess =>
      rw [hraw] at hraw'
      cases hraw'
      refine ⟨t, x, ?_, ?_⟩
      · rw [discard_handlers, hreadied]
        rfl
      · rw [discard_heap, Function.update_self]
    | endProcessing hthread' hraw' =>
      rw [hraw] at hraw'
      cases hraw'
    | _ => simp_all
  | _ => exact absurd trivial he

/-- **Accesses to discarded traces.** A handler that has not set `ready` has its trace in memory, in
every reachable state. A run has no dangling access exactly if, whenever a trace is discarded, the
handler of its thread has called `notify_one` on it. -/
theorem not_dangling_iff {l : SamplerLog} {s : Sampler} (hrun : SamplerRun env l s) :
    (∀ t x, (s.handlers t).serves = some x → s.heap x ≠ none) ∧
      ((sampler env).Throughout (sampler env).init (fun _ s => ¬ s.Dangling) l ↔
        (sampler env).EveryStep (fun _ s e => s.DiscardsNotified e) l) := by
  refine ⟨fun t x => (roundInv_of_run hrun).heap_of_serves, ?_⟩
  refine LogMachine.throughout_iff_everyStepFrom ?_ ?_ ?_ hrun
  · rintro ⟨t, x, hx, -⟩
    cases hx
  · intro l s e o s' hrun h he hstep
    rw [Sampler.not_dangling] at h ⊢
    exact h.step (roundInv_of_run hrun) he hstep
  · intro l s e o s' hrun he hstep h
    exact h (Sampler.dangling_of_step he hstep)

/-- In a round whose handler has returned before the trace is processed no access is dangling. -/
theorem not_dangling_oneRound :
    ∃ l s, SamplerRun .sample l s ∧
      l.map Prod.fst = oneRound ++ [.profiler 6, .profiler 6, .profiler 6] ∧ s.rawTraces = [] ∧
      (sampler .sample).Throughout (sampler .sample).init (fun _ s => ¬ s.Dangling) l := by
  obtain ⟨l, s, hrun, hes, hraw⟩ := LogMachine.exists_run_of_map_exec
    (by decide : ((sampler .sample).exec (sampler .sample).init
      (oneRound ++ [.profiler 6, .profiler 6, .profiler 6])).map (fun x => x.1.rawTraces) = some [])
  have hsteps := LogMachine.everyStep_of_check (q := fun _ s e => decide (s.DiscardsNotified e))
    hrun (by rw [hes]; decide)
  simp only [decide_eq_true_eq] at hsteps
  exact ⟨l, s, hrun, hes, hraw, (not_dangling_iff hrun).2.mpr hsteps⟩

/-- **A handler is left with an access to a discarded trace**: the profiler thread finds the trace
ready, queues it and processes it before the handler calls `notify_one`. -/
theorem notify_after_discard : ∃ l s, SamplerRun .sample l s ∧ s.Dangling := by
  obtain ⟨l, s, hrun, -, hs⟩ := LogMachine.exists_run_of_map_exec
    (by decide : ((sampler .sample).exec (sampler .sample).init
      (signalSent ++ [.deliver 1, .handler 1 [], .handler 1 [], .handler 1 [(5, 10)], .handler 1 [],
        .handler 1 [], .profiler 4, .profiler 4, .profiler 5, .profiler 5, .profiler 5])).map
      (fun x => (x.1.handlers 1, x.1.heap 0)) = some (.readied 0, none))
  simp only [Prod.mk.injEq] at hs
  exact ⟨l, s, hrun, 1, 0, by rw [hs.1]; rfl, hs.2⟩

/-! ## Lost wake-ups -/

/-- The profiler thread waits for a trace that is not ready, the signal it sent for the trace is
delivered and the handler has returned, and no signal is pending. -/
def Sampler.LostWakeup (s : Sampler) : Prop :=
  ∃ x cell, s.thread.phase = .awaiting x ∧ s.heap x = some cell ∧ cell.ready = false ∧
    s.pending = [] ∧ ∀ t, (s.handlers t).serves ≠ some x

/-- Whether a handler is before its test of `active_`. -/
def SignalHandler.isEntered : SignalHandler → Bool
  | .entered _ => true
  | _ => false

/-- If the step is the test of `active_` by a handler, then it succeeds. -/
def Sampler.FindsActive (s : Sampler) : SamplerEvent → Prop
  | .handler t _ => (s.handlers t).isEntered → s.active = true
  | _ => True

instance (s : Sampler) : ∀ e, Decidable (s.FindsActive e)
  | .handler t _ => inferInstanceAs (Decidable ((s.handlers t).isEntered → s.active = true))
  | .callback _ => isTrue trivial
  | .startProfiler => isTrue trivial
  | .stop => isTrue trivial
  | .deliver _ => isTrue trivial
  | .profiler _ => isTrue trivial

/-- A trace that the profiler thread waits for has a signal or a handler. -/
def Round.Attended (r : Round) : Prop :=
  ∀ x cell, r.phase = .awaiting x → r.heap x = some cell → cell.ready = false →
    r.pending ≠ [] ∨ ∃ t, (r.handlers t).serves = some x

lemma Sampler.not_lostWakeup {s : Sampler} : ¬ s.LostWakeup ↔ s.round.Attended := by
  unfold LostWakeup Round.Attended
  constructor
  · intro h x cell hphase hcell hready
    by_contra hnot
    push Not at hnot
    exact h ⟨x, cell, hphase, hcell, hready, hnot⟩
  · rintro h ⟨x, cell, hphase, hcell, hready, hpending, hserves⟩
    rcases h x cell hphase hcell hready with hsignal | ⟨t, ht⟩
    · exact hsignal hpending
    · exact hserves t ht

/-- Nothing has to be attended to in a phase without waiting. -/
lemma Round.attended_of_phase {r : Round} (h : ∀ x, r.phase ≠ .awaiting x) : r.Attended :=
  fun x _ hx => absurd hx (h x)

/-- After a step of a handler that still has to make a trace ready, this trace is attended to, and
there is no other. -/
lemma RoundInv.attended_of_update {r : Round} (h : RoundInv r) {handlers : PThread → SignalHandler}
    {t : PThread} {handler : SignalHandler} {x : TracePtr}
    (hhandlers : r.handlers = Function.update handlers t handler)
    (hx : handler.serves = some x) : r.Attended := by
  have ht : (r.handlers t).serves = some x := by
    rw [hhandlers, Function.update_self, hx]
  intro y cell hy _ _
  obtain ⟨⟨hphase, -⟩, -⟩ := h.serves t x ht
  rw [hphase] at hy
  cases hy
  exact .inr ⟨t, ht⟩

/-- **A step leaves no trace unattended** unless a handler finds `active_` cleared. -/
lemma Round.Attended.step {s s' : Sampler} {e : SamplerEvent} {o : List SamplerEffect}
    (h : s.round.Attended) (hr : RoundInv s.round) (he : s.FindsActive e)
    (hstep : s.step env e = some (s', o)) : s'.round.Attended := by
  have hr' : RoundInv s'.round := hr.step hstep
  have hsame : ∀ thread, thread.phase = s.thread.phase → (s.goTo thread).round.Attended := by
    intro thread hphase
    rw [s.round_goTo hphase]
    exact h
  cases Sampler.step_spec hstep with
  -- the protocol does not see these steps
  | callback | stop | spin => exact h
  | startProfiler hthread | enterLoop hthread | leaveLoop hthread | endScan hthread | select hthread
  | skip hthread | sleep hthread | wakeUp hthread | endProcessing hthread =>
    exact hsame _ (by rw [hthread]; rfl)
  | publish | proceed | clear | queue => exact attended_of_phase fun x hx => nomatch hx
  | send hthread => exact fun _ _ _ _ _ => .inl (List.append_ne_nil_of_right_ne_nil _ (by simp))
  | process hthread hraw hprocess =>
    refine attended_of_phase fun x hx => ?_
    rw [Sampler.round_phase, Sampler.discard_thread, hthread] at hx
    cases hx
  | deliver | pass | load | unwind | tag => exact hr'.attended_of_update rfl rfl
  | refuse hhandler hactive =>
    have htrue := he (by rw [hhandler]; rfl)
    rw [hactive] at htrue
    cases htrue
  | @setReady t cursor x cell hhandler hcell =>
    -- the only trace that was waited for is ready now
    intro y cell' hy hcell' hready
    obtain ⟨⟨hphase, -⟩, -⟩ := hr.serves t x (Sampler.serves_of hhandler)
    obtain rfl : x = y := RoundPhase.awaiting.inj (hphase.symm.trans hy)
    have hself : Function.update s.heap x (some { cell with ready := true }) x = some cell' :=
      hcell'
    rw [Function.update_self] at hself
    cases hself
    cases hready
  | @notify t cursor x cell hhandler hcell =>
    rw [Sampler.round, Sampler.goTo_thread, s.phase_notified]
    intro y cell' hy hcell' hready
    refine (h y cell' hy hcell' hready).imp_right ?_
    rintro ⟨t', ht'⟩
    refine ⟨t', ?_⟩
    have hne : t' ≠ t := by
      rintro rfl
      rw [Sampler.serves_of hhandler] at ht'
      cases ht'
    show (Function.update s.handlers t .idle t').serves = some y
    rw [Function.update_of_ne hne]
    exact ht'

/-- A handler that finds `active_` cleared leaves the profiler thread waiting.

**Proof sketch.** The trace for which the handler was started is the one that the profiler thread
waits for, no other signal is pending, and no other handler serves a trace; so when the handler
returns nobody is left to set `ready`. -/
lemma Sampler.lostWakeup_of_step {s s' : Sampler} {e : SamplerEvent} {o : List SamplerEffect}
    (hr : RoundInv s.round) (he : ¬ s.FindsActive e) (hstep : s.step env e = some (s', o)) :
    s'.LostWakeup := by
  cases e with
  | handler t cursor =>
    obtain ⟨hentered, hactive⟩ : (s.handlers t).isEntered ∧ s.active = false := by
      simpa [FindsActive] using he
    cases step_spec hstep with
    | refuse hhandler hactive =>
      rename_i x
      obtain ⟨⟨hphase, cell, hcell, hready, -⟩, hpending⟩ := hr.serves t x (serves_of hhandler)
      refine ⟨x, cell, hphase, hcell, hready, hpending, ?_⟩
      intro t' ht'
      rw [setHandler_handlers, Function.update_apply] at ht'
      split_ifs at ht' with htt
      · cases ht'
      · exact htt (hr.serves_unique ht' (serves_of hhandler)).2
    | pass hhandler hactive' =>
      rw [hactive'] at hactive
      cases hactive
    | _ => simp_all [SignalHandler.isEntered]
  | _ => exact absurd trivial he

/-- **Lost wake-ups.** A run has no lost wake-up exactly if every handler that tests `active_` finds
it set. -/
theorem not_lostWakeup_iff {l : SamplerLog} {s : Sampler} (hrun : SamplerRun env l s) :
    (sampler env).Throughout (sampler env).init (fun _ s => ¬ s.LostWakeup) l ↔
      (sampler env).EveryStep (fun _ s e => s.FindsActive e) l := by
  refine LogMachine.throughout_iff_everyStepFrom ?_ ?_ ?_ hrun
  · rintro ⟨x, cell, hx, -⟩
    cases hx
  · intro l s e o s' hrun h he hstep
    rw [Sampler.not_lostWakeup] at h ⊢
    exact h.step (roundInv_of_run hrun) he hstep
  · intro l s e o s' hrun he hstep h
    exact h (Sampler.lostWakeup_of_step (roundInv_of_run hrun) he hstep)

/-- In a round without `stop` no wake-up is lost. -/
theorem not_lostWakeup_oneRound :
    ∃ l s, SamplerRun .sample l s ∧ l.map Prod.fst = oneRound ∧
      (sampler .sample).Throughout (sampler .sample).init (fun _ s => ¬ s.LostWakeup) l := by
  obtain ⟨l, s, hrun, hes, -⟩ := LogMachine.exists_run_of_map_exec
    (by decide : ((sampler .sample).exec (sampler .sample).init oneRound).map (fun _ => ()) =
      some ())
  have hsteps := LogMachine.everyStep_of_check (q := fun _ s e => decide (s.FindsActive e))
    hrun (by rw [hes]; decide)
  simp only [decide_eq_true_eq] at hsteps
  exact ⟨l, s, hrun, hes, (not_lostWakeup_iff hrun).mpr hsteps⟩

/-- **A wake-up is lost** when `stop` comes between the signal and its handler. -/
theorem wakeUp_lost_by_stop : ∃ l s, SamplerRun .sample l s ∧ s.LostWakeup := by
  obtain ⟨l, s, hrun, -, hs⟩ := LogMachine.exists_run_of_map_exec
    (by decide : ((sampler .sample).exec (sampler .sample).init
      (signalSent ++ [.stop, .deliver 1])).map (fun x =>
        (decide (x.1.FindsActive (.handler 1 [])), (x.1.step .sample (.handler 1 [])).isSome)) =
      some (false, true))
  simp only [Prod.mk.injEq, decide_eq_false_iff_not] at hs
  obtain ⟨⟨s', o⟩, hstep⟩ := Option.isSome_iff_exists.mp hs.2
  have hrun' : SamplerRun .sample (l ++ [(.handler 1 [], o)]) s' :=
    (sampler .sample).runFrom_concat.mpr ⟨s, hrun, hstep⟩
  exact ⟨_, s', hrun', Sampler.lostWakeup_of_step (roundInv_of_run hrun) hs.1 hstep⟩

end KotlinTracer
