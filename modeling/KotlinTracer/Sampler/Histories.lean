import KotlinTracer.Sampler.Processing
import KotlinTracer.Sampler.Rounds

set_option relaxedAutoImplicit false
set_option autoImplicit false

/-!
# What a raw record holds

A trace is sent to a thread, loaded, filled, tagged and made ready, in this order and by the handler
of one thread. Its history, read off the log, follows the position of that handler, so that a raw
record holds what the handler of its thread wrote in its round and nothing else.

## Main definitions

* `KotlinTracer.TraceCell.history` — the complete history of a trace.
* `KotlinTracer.HistoryInv` — how the history of a trace follows the progress of its handler.
* `KotlinTracer.RawAgrees` — the raw records are those of the queued traces.
* `KotlinTracer.sentSignals` — the signals that were sent.

## Main results

* `KotlinTracer.historyInv_of_run`, `KotlinTracer.rawAgrees_of_run`.
* `KotlinTracer.handoff_exact` — at most one signal is outstanding, a handler finds the trace of its
  thread, and a raw record holds exactly what was written in its round.
-/

namespace KotlinTracer

/-! ## The history of a trace -/

/-- The complete history of a trace, from its contents. -/
def TraceCell.history (cell : TraceCell) : List TraceAction :=
  [.sent cell.trace.threadId, .loaded cell.trace.threadId,
    .unwound cell.trace.threadId cell.trace, .tagged cell.trace.threadId cell.coroutineId,
    .readied cell.trace.threadId]

/-- How many actions on its trace a handler has completed. -/
@[simp] def SignalHandler.progress : SignalHandler → ℕ
  | .loaded _ => 1
  | .unwound _ => 2
  | .tagged _ => 3
  | _ => 0

/-- A handler without a trace has done nothing for it. -/
lemma SignalHandler.progress_of_serves {handler : SignalHandler} (h : handler.serves = none) :
    handler.progress = 0 := by
  cases handler with
  | loaded x => cases h
  | unwound x => cases h
  | tagged x => cases h
  | _ => rfl

/-- **The histories and the protocol.** A trace that is ready has its complete history; before that
it has the part up to where its handler is. -/
structure HistoryInv (H : TracePtr → List TraceAction) (r : Round) : Prop where
  ready : ∀ x cell, r.heap x = some cell → cell.ready = true → H x = cell.history
  awaiting : ∀ x cell, r.phase = .awaiting x → r.heap x = some cell → cell.ready = false →
    H x = cell.history.take (1 + (r.handlers cell.trace.threadId).progress)
  published : ∀ t x, r.phase = .published t x → H x = []
  fresh : ∀ x, r.allocated ≤ x → H x = []

namespace HistoryInv

variable {r : Round} {H : TracePtr → List TraceAction}

/-- A new trace is published. -/
lemma publish (h : HistoryInv H r) {t : PThread} {cell : TraceCell} (hready : cell.ready = false) :
    HistoryInv H { r with
      heap := Function.update r.heap r.allocated (some cell)
      allocated := r.allocated + 1
      slot := some r.allocated
      phase := .published t r.allocated } := by
  refine ⟨?_, ?_, ?_, ?_⟩
  · intro x cell' hcell' hready'
    by_cases hx : x = r.allocated
    · subst hx
      simp only [Function.update_self, Option.some.injEq] at hcell'
      rw [← hcell', hready] at hready'
      cases hready'
    · exact h.ready x cell' ((Function.update_of_ne hx _ _).symm.trans hcell') hready'
  · intro x cell' hx
    cases hx
  · intro t' x hx
    cases hx
    exact h.fresh _ le_rfl
  · intro x hx
    exact h.fresh x (le_trans (Nat.le_succ _) hx)

/-- The signal is sent. -/
lemma send (h : HistoryInv H r) (hr : RoundInv r) {t : PThread} {x : TracePtr}
    (hphase : r.phase = .published t x) :
    HistoryInv (Function.update H x (H x ++ [.sent t]))
      { r with pending := r.pending ++ [(t, x)], phase := .awaiting x } := by
  obtain ⟨cell, hcell, hready, hthread⟩ := hr.published t x hphase
  have hquiet : ∀ y, r.phase ≠ .awaiting y := by
    intro y
    rw [hphase]
    exact fun hy => nomatch hy
  refine ⟨?_, ?_, ?_, ?_⟩
  · intro y cell' hcell' hready'
    have hne : y ≠ x := by
      rintro rfl
      have hsame : cell = cell' := Option.some.inj (hcell.symm.trans hcell')
      rw [← hsame, hready] at hready'
      cases hready'
    rw [Function.update_of_ne hne]
    exact h.ready y cell' hcell' hready'
  · intro y cell' hy hcell' hready'
    cases hy
    have hsame : cell = cell' := Option.some.inj (hcell.symm.trans hcell')
    have hidle : (r.handlers cell'.trace.threadId).progress = 0 :=
      SignalHandler.progress_of_serves (hr.serves_eq_none hquiet _)
    rw [Function.update_self, h.published t x hphase, hidle, ← hsame, ← hthread]
    rfl
  · intro t' y hy
    cases hy
  · intro y hy
    have hne : y ≠ x := by
      rintro rfl
      rw [hr.fresh y hy] at hcell
      cases hcell
    rw [Function.update_of_ne hne]
    exact h.fresh y hy

/-- The profiler thread goes on with a trace that is ready, or discards one. -/
lemma takeBack (h : HistoryInv H r) {r' : Round} (hawait : ∀ x, r'.phase ≠ .awaiting x)
    (hpublish : ∀ t x, r'.phase ≠ .published t x)
    (hheap : ∀ x cell, r'.heap x = some cell → r.heap x = some cell)
    (halloc : r'.allocated = r.allocated) : HistoryInv H r' := by
  refine ⟨?_, ?_, ?_, ?_⟩
  · exact fun x cell hcell => h.ready x cell (hheap x cell hcell)
  · exact fun x cell hx => absurd hx (hawait x)
  · exact fun t x hx => absurd hx (hpublish t x)
  · intro x hx
    exact h.fresh x (halloc ▸ hx)

/-- A handler goes on without an action on its trace. -/
lemma setHandler (h : HistoryInv H r) {t : PThread} {handler : SignalHandler}
    (hprogress : handler.progress = (r.handlers t).progress)
    (pending : List (PThread × TracePtr)) :
    HistoryInv H
      { r with pending := pending, handlers := Function.update r.handlers t handler } := by
  refine ⟨h.ready, ?_, h.published, h.fresh⟩
  intro x cell hx hcell hready
  show H x =
    cell.history.take (1 + (Function.update r.handlers t handler cell.trace.threadId).progress)
  rw [h.awaiting x cell hx hcell hready]
  by_cases ht : cell.trace.threadId = t
  · rw [ht, Function.update_self, hprogress]
  · rw [Function.update_of_ne ht]

/-- **A handler acts on its trace**, and with the action the history is what its new contents and
the new position of the handler say. -/
lemma act (h : HistoryInv H r) (hr : RoundInv r) {t : PThread} {x : TracePtr}
    {cell cell' : TraceCell} {handler : SignalHandler} {action : TraceAction}
    (ht : (r.handlers t).serves = some x) (hcell : r.heap x = some cell)
    (hthread : cell'.trace.threadId = t)
    (haction : cell.history.take (1 + (r.handlers t).progress) ++ [action] =
      if cell'.ready then cell'.history else cell'.history.take (1 + handler.progress)) :
    HistoryInv (Function.update H x (H x ++ [action]))
      { r with
        heap := Function.update r.heap x (some cell')
        handlers := Function.update r.handlers t handler } := by
  have hphase : r.phase = .awaiting x := (hr.serves t x ht).1.1
  obtain ⟨hready, hself⟩ := hr.cell_of_serves ht hcell
  have hx : H x ++ [action] =
      if cell'.ready then cell'.history else cell'.history.take (1 + handler.progress) := by
    rw [h.awaiting x cell hphase hcell hready, hself, haction]
  refine ⟨?_, ?_, ?_, ?_⟩
  · intro y cell'' hcell'' hready''
    by_cases hyx : y = x
    · subst hyx
      simp only [Function.update_self, Option.some.injEq] at hcell''
      rw [Function.update_self, hx, hcell'', if_pos hready'']
    · rw [Function.update_of_ne hyx]
      exact h.ready y cell'' ((Function.update_of_ne hyx _ _).symm.trans hcell'') hready''
  · intro y cell'' hy hcell'' hready''
    rw [hphase] at hy
    cases hy
    simp only [Function.update_self, Option.some.injEq] at hcell''
    show Function.update H x _ x = cell''.history.take
      (1 + (Function.update r.handlers t handler cell''.trace.threadId).progress)
    rw [← hcell''] at hready'' ⊢
    rw [Function.update_self, hx, hthread, Function.update_self, if_neg]
    rw [hready'']
    exact Bool.false_ne_true
  · intro t' y hy
    rw [hphase] at hy
    cases hy
  · intro y hy
    have hne : y ≠ x := by
      rintro rfl
      rw [hr.fresh y hy] at hcell
      cases hcell
    rw [Function.update_of_ne hne]
    exact h.fresh y hy

/-- A handler acts on its trace without writing to it. -/
lemma advance (h : HistoryInv H r) (hr : RoundInv r) {t : PThread} {x : TracePtr}
    {cell : TraceCell} {handler : SignalHandler} {action : TraceAction}
    (ht : (r.handlers t).serves = some x) (hcell : r.heap x = some cell)
    (haction : cell.history.take (1 + (r.handlers t).progress) ++ [action] =
      cell.history.take (1 + handler.progress)) :
    HistoryInv (Function.update H x (H x ++ [action]))
      { r with handlers := Function.update r.handlers t handler } := by
  obtain ⟨hready, hthread⟩ := hr.cell_of_serves ht hcell
  have hsame : Function.update r.heap x (some cell) = r.heap := by
    rw [← hcell, Function.update_eq_self]
  have hnext : HistoryInv (Function.update H x (H x ++ [action])) { r with
      heap := Function.update r.heap x (some cell)
      handlers := Function.update r.handlers t handler } := by
    refine h.act hr ht hcell hthread ?_
    rw [haction, if_neg]
    rw [hready]
    exact Bool.false_ne_true
  rw [hsame] at hnext
  exact hnext

end HistoryInv

/-- The histories after a step that acts on no trace. -/
lemma histories_of_not_acted {l : SamplerLog} {e : SamplerEvent} {o : List SamplerEffect}
    (h : ∀ y action, SamplerEffect.acted y action ∉ o) :
    (fun x => history x (l ++ [(e, o)])) = fun x => history x l := by
  funext x
  exact history_concat_of_not_acted h x

/-- The histories after a step with one action. -/
lemma histories_acted (l : SamplerLog) (e : SamplerEvent) (y : TracePtr) (action : TraceAction) :
    (fun x => history x (l ++ [(e, [.acted y action])])) =
      Function.update (fun x => history x l) y (history y l ++ [action]) := by
  funext x
  rw [history_concat_acted, Function.update_apply]
  by_cases hy : y = x
  · rw [if_pos hy, if_pos hy.symm, hy]
  · rw [if_neg hy, if_neg (Ne.symm hy)]

/-- **A step of the machine keeps the histories in agreement with the protocol.** -/
lemma HistoryInv.step {env : SamplerEnv} {l : SamplerLog} {s s' : Sampler} {e : SamplerEvent}
    {o : List SamplerEffect} (h : HistoryInv (fun x => history x l) s.round)
    (hr : RoundInv s.round) (hstep : s.step env e = some (s', o)) :
    HistoryInv (fun x => history x (l ++ [(e, o)])) s'.round := by
  have hsame : ∀ thread, thread.phase = s.thread.phase →
      HistoryInv (fun x => history x (l ++ [(e, [])])) (s.goTo thread).round := by
    intro thread hphase
    rw [histories_of_not_acted (by simp), s.round_goTo hphase]
    exact h
  cases Sampler.step_spec hstep with
  | callback hidle hcall hstep =>
    rw [histories_of_not_acted (by simp)]
    exact h
  | stop | spin => exact hsame s.thread rfl
  | startProfiler hthread | enterLoop hthread | leaveLoop hthread | endScan hthread | select hthread
  | skip hthread | sleep hthread | wakeUp hthread | endProcessing hthread =>
    exact hsame _ (by rw [hthread]; rfl)
  | publish hthread =>
    rw [histories_of_not_acted (by simp)]
    exact h.publish rfl
  | send hthread =>
    rw [histories_acted]
    exact h.send hr (Sampler.round_phase_of hthread)
  | proceed | clear | queue =>
    rw [histories_of_not_acted (by simp)]
    exact h.takeBack (fun x hx => nomatch hx) (fun t x hx => nomatch hx) (fun _ _ hx => hx) rfl
  | process hthread hraw hstep =>
    rw [histories_of_not_acted (by simp)]
    refine h.takeBack ?_ ?_ ?_ rfl
    · intro x hx
      rw [Sampler.round_phase, Sampler.discard_thread, hthread] at hx
      cases hx
    · intro t x hx
      rw [Sampler.round_phase, Sampler.discard_thread, hthread] at hx
      cases hx
    · intro y cell hy
      rw [Sampler.round_heap, Sampler.discard_heap, Function.update_apply] at hy
      split_ifs at hy
      exact hy
  | deliver hhandler _ | pass hhandler _ | refuse hhandler _ =>
    rw [histories_of_not_acted (by simp)]
    refine h.setHandler ?_ _
    rw [Sampler.round_handlers, hhandler]
    rfl
  | load hhandler hslot =>
    have hload := hr.slot_of_serves (Sampler.serves_of hhandler)
    rw [Sampler.round_slot, hslot] at hload
    cases hload
    obtain ⟨⟨-, cell, hcell, hready, hthread⟩, -⟩ := hr.serves _ _ (Sampler.serves_of hhandler)
    rw [histories_acted]
    refine h.advance hr (Sampler.serves_of hhandler) hcell ?_
    rw [Sampler.round_handlers, hhandler, ← hthread]
    rfl
  | unwind hhandler hcell htrace =>
    obtain ⟨hready, hthread⟩ := hr.cell_of_serves (Sampler.serves_of hhandler) hcell
    rw [histories_acted]
    refine h.act hr (Sampler.serves_of hhandler) hcell ?_ ?_
    · rw [htrace]
      exact hthread
    · rw [Sampler.round_handlers, hhandler, if_neg (by rw [hready]; exact Bool.false_ne_true),
        TraceCell.history, TraceCell.history, htrace, threadId_unwindStack, hthread]
      rfl
  | tag hhandler hcell hc =>
    obtain ⟨hready, hthread⟩ := hr.cell_of_serves (Sampler.serves_of hhandler) hcell
    rw [histories_acted]
    refine h.act hr (Sampler.serves_of hhandler) hcell hthread ?_
    rw [Sampler.round_handlers, hhandler, if_neg (by rw [hready]; exact Bool.false_ne_true),
      ← hthread]
    rfl
  | setReady hhandler hcell =>
    obtain ⟨-, hthread⟩ := hr.cell_of_serves (Sampler.serves_of hhandler) hcell
    rw [histories_acted]
    refine h.act hr (Sampler.serves_of hhandler) hcell hthread ?_
    rw [Sampler.round_handlers, hhandler, if_pos rfl, ← hthread]
    rfl
  | notify hhandler hcell =>
    rw [histories_of_not_acted (by simp), Sampler.round, Sampler.goTo_thread, s.phase_notified]
    refine h.setHandler ?_ _
    rw [Sampler.round_handlers, hhandler]
    rfl

/-- **The histories of the traces in every run.** -/
theorem historyInv_of_run {env : SamplerEnv} {l : SamplerLog} {s : Sampler}
    (hrun : SamplerRun env l s) : HistoryInv (fun x => history x l) s.round := by
  refine LogMachine.RunFrom.invariant
    (I := fun l s => HistoryInv (fun x => history x l) s.round) ?_ ?_ hrun
  · refine ⟨?_, ?_, ?_, fun _ _ => rfl⟩
    · exact fun x cell hx => nomatch hx
    · exact fun x cell hx => nomatch hx
    · exact fun t x hx => nomatch hx
  · intro l s e o s' hl h hstep
    exact h.step (roundInv_of_run hl) hstep

/-! ## The raw records -/

/-- The raw record was made from the trace at an address. -/
def RawRecordOf (heap : TracePtr → Option TraceCell) (x : TracePtr) (record : RawCallTraceRecord) :
    Prop :=
  ∃ cell now, heap x = some cell ∧ record = cell.rawRecord now

/-- The raw records of the queue are those of the queued traces, in order. -/
def RawAgrees (s : Sampler) : Prop :=
  List.Forall₂ (RawRecordOf s.heap) s.rawTraces s.profiler.storage.rawList.list

/-- Raw records do not depend on what is written to other traces. -/
lemma forall₂_rawRecordOf_update {heap : TracePtr → Option TraceCell} {xs : List TracePtr}
    {records : List RawCallTraceRecord} (h : List.Forall₂ (RawRecordOf heap) xs records)
    {y : TracePtr} (hy : y ∉ xs) (cell : Option TraceCell) :
    List.Forall₂ (RawRecordOf (Function.update heap y cell)) xs records := by
  obtain ⟨hlength, hzip⟩ := List.forall₂_iff_zip.mp h
  refine List.forall₂_iff_zip.mpr ⟨hlength, ?_⟩
  intro x record hmem
  obtain ⟨cell', now, hcell', hrecord⟩ := hzip hmem
  have hne : x ≠ y := by
    rintro rfl
    exact hy (List.of_mem_zip hmem).1
  exact ⟨cell', now, (Function.update_of_ne hne _ _).trans hcell', hrecord⟩

/-- A callback does not touch the raw records. -/
lemma rawList_of_callback {env : Env} {p p' : Profiler} {e : Event} {o : List Effect}
    (hcall : e.call.ofProfilerThread = false) (h : p.step env e = some (p', o)) :
    p'.storage.rawList.list = p.storage.rawList.list := by
  have hne : e.call ≠ .processTraces := by
    intro heq
    rw [heq] at hcall
    cases hcall
  rw [Profiler.step_rawList h hne]
  obtain ⟨ctx, call⟩ := e
  cases call with
  | addRawTrace trace c => cases hcall
  | _ => exact List.append_nil _

/-- **A step of the machine keeps the raw records in agreement with the queued traces.** A queued
trace is ready, so no handler writes to it. -/
lemma RawAgrees.step {env : SamplerEnv} {s s' : Sampler} {e : SamplerEvent}
    {o : List SamplerEffect} (h : RawAgrees s) (hr : RoundInv s.round)
    (hstep : s.step env e = some (s', o)) : RawAgrees s' := by
  have hwrite : ∀ {t x cell'}, (s.round.handlers t).serves = some x →
      List.Forall₂ (RawRecordOf (Function.update s.heap x cell')) s.rawTraces
        s.profiler.storage.rawList.list := by
    intro t x cell' hserves
    refine forall₂_rawRecordOf_update h ?_ _
    intro hmem
    obtain ⟨cell, hcell, hready⟩ := hr.queued x hmem
    rw [(hr.cell_of_serves hserves hcell).1] at hready
    cases hready
  cases Sampler.step_spec hstep with
  | callback hidle hcall hcalled =>
    rw [RawAgrees, rawList_of_callback hcall hcalled]
    exact h
  | publish hthread =>
    refine forall₂_rawRecordOf_update h ?_ _
    exact fun hmem => hr.ne_of_queued hmem (hr.fresh _ le_rfl) rfl
  | queue hthread hcell =>
    exact List.rel_append h (.cons ⟨_, _, hcell, rfl⟩ .nil)
  | process hthread hraw hprocess =>
    have hnodup := hr.queued_nodup
    rw [Sampler.round_rawTraces, hraw, List.nodup_cons] at hnodup
    rw [RawAgrees, hraw] at h
    obtain ⟨record, records, -, hrest, hlist⟩ := List.forall₂_cons_left_iff.mp h
    obtain ⟨-, hlist', -⟩ := Profiler.processTracesLoop_one hlist hprocess
    rw [RawAgrees, Sampler.discard_profiler, hlist']
    exact forall₂_rawRecordOf_update hrest hnodup.1 _
  | unwind hhandler hcell htrace => exact hwrite (Sampler.serves_of hhandler)
  | tag hhandler hcell hc => exact hwrite (Sampler.serves_of hhandler)
  | setReady hhandler hcell => exact hwrite (Sampler.serves_of hhandler)
  | _ => exact h

/-- **The raw records of the queue in every run.** -/
theorem rawAgrees_of_run {env : SamplerEnv} {l : SamplerLog} {s : Sampler}
    (hrun : SamplerRun env l s) : RawAgrees s := by
  refine LogMachine.RunFrom.invariant (I := fun _ s => RawAgrees s) ?_ ?_ hrun
  · exact List.Forall₂.nil
  · intro l s e o s' hl h hstep
    exact h.step (roundInv_of_run hl) hstep

/-! ## The hand-off -/

/-- The signals that were sent, each with the trace it was sent for. -/
def sentSignals (l : SamplerLog) : List (PThread × TracePtr) :=
  (l.flatMap Prod.snd).filterMap fun effect =>
    match effect with
    | .acted x (.sent t) => some (t, x)
    | _ => none

/-- The record that an effect of `addRawTrace` adds. -/
def SamplerEffect.addedRecord : SamplerEffect → Option (TracePtr × RawCallTraceRecord)
  | .added x record => some (x, record)
  | _ => none

lemma SamplerEffect.mem_filterMap_addedRecord {o : List SamplerEffect} {x : TracePtr}
    {record : RawCallTraceRecord} :
    (x, record) ∈ o.filterMap SamplerEffect.addedRecord ↔ .added x record ∈ o := by
  rw [List.mem_filterMap]
  constructor
  · rintro ⟨effect, hmem, heffect⟩
    cases effect with
    | added y record' =>
      cases heffect
      exact hmem
    | _ => cases heffect
  · exact fun hmem => ⟨_, hmem, rfl⟩

/-- Whether an action is the sending of the signal. -/
def TraceAction.isSent : TraceAction → Bool
  | .sent _ => true
  | _ => false

/-- A trace is not marked ready. -/
def Sampler.unready (s : Sampler) (x : TracePtr) : Bool := (s.heap x).any fun cell => !cell.ready

lemma Sampler.unready_iff {s : Sampler} {x : TracePtr} :
    s.unready x ↔ ∃ cell, s.heap x = some cell ∧ cell.ready = false := by
  simp [unready, Option.any_eq_true]

/-- The signals sent for a trace are those of its history. -/
lemma countP_sentSignals (l : SamplerLog) (x : TracePtr) :
    (sentSignals l).countP (fun signal => signal.2 == x) =
      (history x l).countP TraceAction.isSent := by
  rw [sentSignals, history]
  induction l.flatMap Prod.snd with
  | nil => rfl
  | cons effect effects ih =>
    rw [List.filterMap_cons, List.filterMap_cons]
    cases effect with
    | acted y action =>
      by_cases hy : y = x <;> cases action <;>
        simp [SamplerEffect.actionOn, TraceAction.isSent, List.countP_cons, hy, ih]
    | _ => exact ih

/-- At most one signal is sent for a trace that is not ready. -/
lemma HistoryInv.countP_isSent_le {H : TracePtr → List TraceAction} {r : Round}
    (h : HistoryInv H r) (hr : RoundInv r) {x : TracePtr} {cell : TraceCell}
    (hcell : r.heap x = some cell) (hready : cell.ready = false) :
    (H x).countP TraceAction.isSent ≤ 1 := by
  rcases hr.unready x cell hcell hready with hphase | ⟨t, hphase⟩
  · rw [h.awaiting x cell hphase hcell hready]
    have htake := (List.take_sublist (1 + (r.handlers cell.trace.threadId).progress)
      cell.history).countP_le (p := TraceAction.isSent)
    exact htake
  · rw [h.published t x hphase]
    exact Nat.zero_le _

/-- **At most one signal is outstanding**: of the signals that were sent, at most one was sent for a
trace that is not marked ready.

**Proof sketch.** Only the trace that the profiler thread has published or waits for is not ready,
so all these signals are for the same trace, and for that trace at most one was sent. -/
lemma countP_unready_le {env : SamplerEnv} {l : SamplerLog} {s : Sampler}
    (hrun : SamplerRun env l s) :
    (sentSignals l).countP (fun signal => s.unready signal.2) ≤ 1 := by
  have hr := roundInv_of_run hrun
  by_cases hex : ∃ signal ∈ sentSignals l, s.unready signal.2
  · obtain ⟨⟨t, x⟩, -, hx⟩ := hex
    obtain ⟨cell, hcell, hready⟩ := Sampler.unready_iff.mp hx
    have hsame : ∀ signal ∈ sentSignals l, s.unready signal.2 → (signal.2 == x) = true := by
      intro signal _ hsignal
      obtain ⟨cell', hcell', hready'⟩ := Sampler.unready_iff.mp hsignal
      rw [beq_iff_eq]
      exact hr.unready_unique hcell hready hcell' hready'
    calc (sentSignals l).countP (fun signal => s.unready signal.2)
        ≤ (sentSignals l).countP (fun signal => signal.2 == x) := List.countP_mono_left hsame
      _ = (history x l).countP TraceAction.isSent := countP_sentSignals l x
      _ ≤ 1 := (historyInv_of_run hrun).countP_isSent_le hr hcell hready
  · rw [List.countP_eq_zero.mpr]
    · exact Nat.zero_le _
    · intro signal hsignal hunready
      exact hex ⟨signal, hsignal, hunready⟩

/-- **The hand-off is exact.** In every run of the profiler thread with the handlers, the callbacks
and `stop`: at most one signal was sent for a trace that is not ready yet; a handler that has passed
the test of `active_` finds in `trace_` a trace of its own thread; and a raw record, when it is
added, holds the frames and the coroutine id that the handler of its thread wrote, being the only
one who ever did anything with the trace of this round. The same holds of every raw record as long
as it is in `raw_list_`, and the records there are those of the queued traces, in order. -/
theorem handoff_exact {env : SamplerEnv} {l : SamplerLog} {s : Sampler}
    (hrun : SamplerRun env l s) :
    (sentSignals l).countP (fun signal => s.unready signal.2) ≤ 1 ∧
      (∀ t y, s.handlers t = .spinning y →
        ∃ x cell, s.slot = some x ∧ s.heap x = some cell ∧ cell.trace.threadId = t) ∧
      (∀ l₁ e o l₂ x record, l = l₁ ++ (e, o) :: l₂ → .added x record ∈ o →
        record.trace.threadId = record.thread ∧ record.traceCount = record.trace.size ∧
          history x l₁ = [.sent record.thread, .loaded record.thread,
            .unwound record.thread record.trace, .tagged record.thread record.coroutineId,
            .readied record.thread]) ∧
      List.Forall₂ (fun x record =>
        record.trace.threadId = record.thread ∧ record.traceCount = record.trace.size ∧
          history x l = [.sent record.thread, .loaded record.thread,
            .unwound record.thread record.trace, .tagged record.thread record.coroutineId,
            .readied record.thread]) s.rawTraces s.profiler.storage.rawList.list := by
  refine ⟨countP_unready_le hrun, ?_, ?_, ?_⟩
  · intro t y hspin
    have hr := roundInv_of_run hrun
    obtain ⟨⟨-, cell, hcell, -, hthread⟩, -⟩ := hr.serves t y (Sampler.serves_of hspin)
    exact ⟨y, cell, hr.slot_of_serves (Sampler.serves_of hspin), hcell, hthread⟩
  · rintro l₁ e o l₂ x record rfl hadded
    obtain ⟨s₁, s₂, hrun₁, hstep, -⟩ := hrun.split
    cases Sampler.step_spec hstep with
    | queue hthread hcell =>
      obtain ⟨rfl, rfl⟩ : x = _ ∧ record = _ := by simpa using hadded
      have hready : _ = true := (roundInv_of_run hrun₁).ready_of_trace hcell
        (by rw [Sampler.round_phase_of hthread]; exact fun hx => nomatch hx)
        (by rw [Sampler.round_phase_of hthread]; exact fun t hx => nomatch hx)
      exact ⟨rfl, rfl, (historyInv_of_run hrun₁).ready _ _ hcell hready⟩
    | _ => simp at hadded
  · obtain ⟨hlength, hzip⟩ := List.forall₂_iff_zip.mp (rawAgrees_of_run hrun)
    refine List.forall₂_iff_zip.mpr ⟨hlength, fun {x record} hmem => ?_⟩
    obtain ⟨cell, now, hcell, rfl⟩ := hzip hmem
    obtain ⟨cell', hcell', hready⟩ := (roundInv_of_run hrun).queued x (List.of_mem_zip hmem).1
    obtain rfl : cell = cell' := Option.some.inj (hcell.symm.trans hcell')
    exact ⟨rfl, rfl, (historyInv_of_run hrun).ready x cell hcell hready⟩

/-- The raw record of the round. -/
def oneRoundRecord : RawCallTraceRecord :=
  ⟨6, 1, ⟨⟨5, 10, false⟩ :: List.replicate 29 ⟨0, 0, false⟩, 1, 1⟩, 1, 1⟩

/-- The hand-off of one round: a record is added, it holds what was written, and it is the one in
`raw_list_`. -/
theorem handoff_exact_oneRound :
    ∃ l o s record, SamplerRun .sample (l ++ [(.profiler 6, o)]) s ∧ l.map Prod.fst = oneRound ∧
      .added 0 oneRoundRecord ∈ o ∧
      history 0 l = [.sent 1, .loaded 1, .unwound 1 oneRoundRecord.trace, .tagged 1 1,
        .readied 1] ∧
      s.profiler.storage.rawList.list = [record] ∧ record.trace.threadId = record.thread := by
  obtain ⟨l, s, o, s', hrun, hes, hstep, hadded⟩ := LogMachine.exists_last_of_map_exec
    (by decide : ((sampler .sample).exec (sampler .sample).init
      (oneRound ++ [.profiler 6])).map (fun x => x.2.getLast?.map fun y =>
        y.2.filterMap SamplerEffect.addedRecord) = some (some [(0, oneRoundRecord)]))
  have hrun' : SamplerRun .sample (l ++ [(.profiler 6, o)]) s' :=
    (sampler .sample).runFrom_concat.mpr ⟨s, hrun, hstep⟩
  have hmem : .added 0 oneRoundRecord ∈ o := by
    have hlast : o.filterMap SamplerEffect.addedRecord = [(0, oneRoundRecord)] := by
      simpa using hadded
    rw [← SamplerEffect.mem_filterMap_addedRecord, hlast]
    exact List.mem_singleton_self _
  obtain ⟨-, -, hadd, hraw⟩ := handoff_exact hrun'
  have hes' : (l ++ [(SamplerEvent.profiler 6, o)]).map Prod.fst = oneRound ++ [.profiler 6] := by
    rw [List.map_append, hes]
    rfl
  have hqueued := hrun'.of_map_exec (f := fun x => x.1.rawTraces)
    (by rw [hes']; decide : _ = some [0])
  rw [hqueued, List.forall₂_cons_left_iff] at hraw
  obtain ⟨record, rest, hrecord, hrest, hlist⟩ := hraw
  rw [List.forall₂_nil_left_iff.mp hrest] at hlist
  exact ⟨l, o, s', record, hrun', hes, hmem,
    (hadd l (.profiler 6) o [] 0 oneRoundRecord rfl hmem).2.2, hlist, hrecord.1⟩

end KotlinTracer
