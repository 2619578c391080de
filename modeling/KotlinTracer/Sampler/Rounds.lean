import KotlinTracer.Sampler.Handoff

set_option relaxedAutoImplicit false
set_option autoImplicit false

/-!
# The rounds of the sampler do not mix

All rounds share one slot `trace_`, and a signal may be delivered at any time after it was sent,
also after `stop`. The profiler thread waits for `ready` before it goes on to the next thread, so
there is never more than one trace that is published and not ready, and a signal or a handler that
has not set `ready` yet belongs to that trace.

## Main definitions

* `KotlinTracer.Round` — what the hand-off protocol sees of a state.
* `KotlinTracer.RoundInv` — the invariant of the protocol.

## Main results

* `KotlinTracer.RoundInv.step`, `KotlinTracer.roundInv_of_run` — the invariant is kept by every step
  and holds in every reachable state.

## Design

`RoundInv` does not mention where exactly the profiler thread is, only the phase of its round, so
that the steps that leave the protocol alone do not appear in its proof: they do not change
`Sampler.round`. For each of the other steps one lemma says that it keeps the invariant.
-/

namespace KotlinTracer

/-! ## The protocol -/

/-- The phase of the round. -/
inductive RoundPhase
  /-- There is no trace in the hands of the profiler thread. -/
  | quiet
  | published (thread : PThread) (trace : TracePtr)
  | awaiting (trace : TracePtr)
  /-- The trace is ready and still in the slot. -/
  | holding (trace : TracePtr)
  /-- The trace is ready and the slot is cleared. -/
  | taken (trace : TracePtr)

/-- The phase of the round the profiler thread is in. -/
@[simp] def ProfilerThread.phase : ProfilerThread → RoundPhase
  | .published t x _ => .published t x
  | .waiting x _ => .awaiting x
  | .asleep x _ => .awaiting x
  | .woken x _ => .holding x
  | .cleared x _ => .taken x
  | _ => .quiet

/-- What the slot holds in a phase. -/
@[simp] def RoundPhase.slot : RoundPhase → Option TracePtr
  | .published _ x => some x
  | .awaiting x => some x
  | .holding x => some x
  | _ => none

/-- The trace that the profiler thread owns in a phase. -/
@[simp] def RoundPhase.trace : RoundPhase → Option TracePtr
  | .published _ x => some x
  | .awaiting x => some x
  | .holding x => some x
  | .taken x => some x
  | .quiet => none

/-- The trace that a handler has still to make ready. -/
@[simp] def SignalHandler.serves : SignalHandler → Option TracePtr
  | .entered x => some x
  | .spinning x => some x
  | .loaded x => some x
  | .unwound x => some x
  | .tagged x => some x
  | _ => none

/-- What the hand-off protocol sees of a state. -/
structure Round where
  phase : RoundPhase
  slot : Option TracePtr
  heap : TracePtr → Option TraceCell
  allocated : ℕ
  pending : List (PThread × TracePtr)
  rawTraces : List TracePtr
  handlers : PThread → SignalHandler

/-- What the hand-off protocol sees of a state. -/
@[simps] def Sampler.round (s : Sampler) : Round where
  phase := s.thread.phase
  slot := s.slot
  heap := s.heap
  allocated := s.allocated
  pending := s.pending
  rawTraces := s.rawTraces
  handlers := s.handlers

/-- The profiler thread waits for thread `t` to make the trace `x` ready. -/
def Round.Awaits (r : Round) (t : PThread) (x : TracePtr) : Prop :=
  r.phase = .awaiting x ∧
    ∃ cell, r.heap x = some cell ∧ cell.ready = false ∧ cell.trace.threadId = t

/-- **The invariant of the protocol.** -/
structure RoundInv (r : Round) : Prop where
  slot : r.slot = r.phase.slot
  fresh : ∀ x, r.allocated ≤ x → r.heap x = none
  held : ∀ x, r.phase.trace = some x → (∃ cell, r.heap x = some cell) ∧ x ∉ r.rawTraces
  published : ∀ t x, r.phase = .published t x →
    ∃ cell, r.heap x = some cell ∧ cell.ready = false ∧ cell.trace.threadId = t
  unready : ∀ x cell, r.heap x = some cell → cell.ready = false →
    r.phase = .awaiting x ∨ ∃ t, r.phase = .published t x
  pending : ∀ signal ∈ r.pending, r.Awaits signal.1 signal.2
  pending_le : r.pending.length ≤ 1
  serves : ∀ t x, (r.handlers t).serves = some x → r.Awaits t x ∧ r.pending = []
  readied : ∀ t x, r.handlers t = .readied x →
    x < r.allocated ∧ ∀ cell, r.heap x = some cell → cell.ready = true ∧ cell.trace.threadId = t
  queued : ∀ x ∈ r.rawTraces, ∃ cell, r.heap x = some cell ∧ cell.ready = true
  queued_nodup : r.rawTraces.Nodup

namespace RoundInv

variable {r : Round}

/-- A trace that the profiler thread has got back is ready. -/
lemma ready_of_trace (h : RoundInv r) {x : TracePtr} {cell : TraceCell}
    (hcell : r.heap x = some cell) (hawait : r.phase ≠ .awaiting x)
    (hpublish : ∀ t, r.phase ≠ .published t x) : cell.ready = true := by
  by_contra hready
  rcases h.unready x cell hcell (by simpa using hready) with hphase | ⟨t, hphase⟩
  · exact hawait hphase
  · exact hpublish t hphase

/-- At most one trace is not ready. -/
lemma unready_unique (h : RoundInv r) {x y : TracePtr} {cell cell' : TraceCell}
    (hx : r.heap x = some cell) (hx' : cell.ready = false) (hy : r.heap y = some cell')
    (hy' : cell'.ready = false) : y = x := by
  rcases h.unready x cell hx hx' with hphase | ⟨t, hphase⟩ <;>
    rcases h.unready y cell' hy hy' with hphase' | ⟨t', hphase'⟩ <;>
    rw [hphase] at hphase' <;> cases hphase' <;> rfl

/-- Signals are pending only while the profiler thread waits. -/
lemma pending_eq_nil (h : RoundInv r) (hphase : ∀ x, r.phase ≠ .awaiting x) : r.pending = [] := by
  rw [List.eq_nil_iff_forall_not_mem]
  intro signal hsignal
  exact hphase signal.2 (h.pending signal hsignal).1

/-- Handlers are busy only while the profiler thread waits. -/
lemma serves_eq_none (h : RoundInv r) (hphase : ∀ x, r.phase ≠ .awaiting x) (t : PThread) :
    (r.handlers t).serves = none := by
  rw [Option.eq_none_iff_forall_not_mem]
  intro x hx
  exact hphase x (h.serves t x hx).1.1

/-- A trace of the queue is not at an address that is still free. -/
lemma ne_of_queued (h : RoundInv r) {x y : TracePtr} (hx : x ∈ r.rawTraces)
    (hy : r.heap y = none) : x ≠ y := by
  rintro rfl
  obtain ⟨cell, hcell, -⟩ := h.queued x hx
  rw [hcell] at hy
  cases hy

/-! ## Steps of the profiler thread -/

/-- A new trace is published. -/
lemma publish (h : RoundInv r) (hphase : r.phase = .quiet) {t : PThread} {cell : TraceCell}
    (hready : cell.ready = false) (hthread : cell.trace.threadId = t) :
    RoundInv { r with
      heap := Function.update r.heap r.allocated (some cell)
      allocated := r.allocated + 1
      slot := some r.allocated
      phase := .published t r.allocated } := by
  have hfree : r.heap r.allocated = none := h.fresh _ le_rfl
  have hquiet : ∀ x, r.phase ≠ .awaiting x := by
    intro x
    rw [hphase]
    exact fun hx => nomatch hx
  have hpending := h.pending_eq_nil hquiet
  refine ⟨rfl, ?_, ?_, ?_, ?_, ?_, ?_, ?_, ?_, ?_, h.queued_nodup⟩
  · intro x hx
    have hne : x ≠ r.allocated := by
      have hlt : r.allocated + 1 ≤ x := hx
      omega
    exact (Function.update_of_ne hne _ _).trans (h.fresh x (le_trans (Nat.le_succ _) hx))
  · intro x hx
    obtain rfl : r.allocated = x := by simpa using hx
    exact ⟨⟨cell, Function.update_self ..⟩, fun hmem => h.ne_of_queued hmem hfree rfl⟩
  · intro t' x hx
    obtain ⟨rfl, rfl⟩ : t = t' ∧ r.allocated = x := by simpa using hx
    exact ⟨cell, Function.update_self .., hready, hthread⟩
  · intro x cell' hcell' hready'
    by_cases hx : x = r.allocated
    · exact .inr ⟨t, by rw [hx]⟩
    · have hold : r.heap x = some cell' := (Function.update_of_ne hx _ _).symm.trans hcell'
      rcases h.unready x cell' hold hready' with hphase' | ⟨t', hphase'⟩
      · exact absurd hphase' (hquiet x)
      · rw [hphase] at hphase'
        cases hphase'
  · intro signal hsignal
    rw [hpending] at hsignal
    cases hsignal
  · exact h.pending_le
  · intro t' x hx
    rw [h.serves_eq_none hquiet t'] at hx
    cases hx
  · intro t' x hx
    obtain ⟨hlt, hcell'⟩ := h.readied t' x hx
    refine ⟨Nat.lt_succ_of_lt hlt, fun cell' hcell => hcell' cell' ?_⟩
    exact (Function.update_of_ne (Nat.ne_of_lt hlt) _ _).symm.trans hcell
  · intro x hx
    obtain ⟨cell', hcell', hready'⟩ := h.queued x hx
    exact ⟨cell', (Function.update_of_ne (h.ne_of_queued hx hfree) _ _).trans hcell', hready'⟩

/-- The signal is sent. -/
lemma send {t : PThread} {x : TracePtr} (h : RoundInv r) (hphase : r.phase = .published t x) :
    RoundInv { r with pending := r.pending ++ [(t, x)], phase := .awaiting x } := by
  have hquiet : ∀ y, r.phase ≠ .awaiting y := by
    intro y
    rw [hphase]
    exact fun hy => nomatch hy
  have hpending := h.pending_eq_nil hquiet
  have hcell := h.published t x hphase
  refine ⟨?_, h.fresh, ?_, ?_, ?_, ?_, ?_, ?_, h.readied, h.queued, h.queued_nodup⟩
  · rw [h.slot, hphase]
    rfl
  · intro y hy
    exact h.held y (by rw [hphase]; exact hy)
  · intro t' y hy
    cases hy
  · intro y cell hy hready
    rcases h.unready y cell hy hready with hphase' | ⟨t', hphase'⟩
    · exact absurd hphase' (hquiet y)
    · rw [hphase] at hphase'
      cases hphase'
      exact .inl rfl
  · intro signal hsignal
    rw [hpending, List.nil_append, List.mem_singleton] at hsignal
    rw [hsignal]
    exact ⟨rfl, hcell⟩
  · rw [hpending]
    exact le_rfl
  · intro t' y hy
    rw [h.serves_eq_none hquiet t'] at hy
    cases hy

/-- The profiler thread finds the trace ready. -/
lemma proceed {x : TracePtr} {cell : TraceCell} (h : RoundInv r) (hphase : r.phase = .awaiting x)
    (hcell : r.heap x = some cell) (hready : cell.ready = true) :
    RoundInv { r with phase := .holding x } := by
  have hnot : ∀ t y, ¬ r.Awaits t y := by
    rintro t y ⟨hy, cell', hcell', hready', -⟩
    rw [hphase] at hy
    cases hy
    rw [hcell] at hcell'
    cases hcell'
    rw [hready] at hready'
    cases hready'
  refine ⟨?_, h.fresh, ?_, ?_, ?_, ?_, h.pending_le, ?_, h.readied, h.queued, h.queued_nodup⟩
  · rw [h.slot, hphase]
    rfl
  · intro y hy
    exact h.held y (by rw [hphase]; exact hy)
  · intro t y hy
    cases hy
  · intro y cell' hcell' hready'
    rcases h.unready y cell' hcell' hready' with hy | ⟨t, hy⟩
    · rw [hphase] at hy
      cases hy
      rw [hcell] at hcell'
      cases hcell'
      rw [hready] at hready'
      cases hready'
    · rw [hphase] at hy
      cases hy
  · intro signal hsignal
    exact absurd (h.pending signal hsignal) (hnot _ _)
  · intro t y hy
    exact absurd (h.serves t y hy).1 (hnot _ _)

/-- A change of phase that leaves every trace as it is and ends no round that has an unready
trace. -/
lemma changePhase (h : RoundInv r) (hphase : ∀ x, r.phase ≠ .awaiting x)
    (hpublish : ∀ t x, r.phase ≠ .published t x) {phase : RoundPhase}
    (hpublish' : ∀ t x, phase ≠ .published t x) {rawTraces : List TracePtr}
    (hraw : rawTraces.Nodup) (hcells : ∀ x ∈ rawTraces, ∃ cell, r.heap x = some cell)
    (hheld : ∀ x, phase.trace = some x → (∃ cell, r.heap x = some cell) ∧ x ∉ rawTraces) :
    RoundInv { r with phase := phase, slot := phase.slot, rawTraces := rawTraces } := by
  refine ⟨rfl, h.fresh, hheld, ?_, ?_, ?_, h.pending_le, ?_, h.readied, ?_, hraw⟩
  · intro t x hx
    exact absurd hx (hpublish' t x)
  · intro x cell hcell hready
    rcases h.unready x cell hcell hready with hx | ⟨t, hx⟩
    · exact absurd hx (hphase x)
    · exact absurd hx (hpublish t x)
  · intro signal hsignal
    rw [h.pending_eq_nil hphase] at hsignal
    cases hsignal
  · intro t x hx
    rw [h.serves_eq_none hphase t] at hx
    cases hx
  · intro x hx
    obtain ⟨cell, hcell⟩ := hcells x hx
    exact ⟨cell, hcell, h.ready_of_trace hcell (hphase x) fun t => hpublish t x⟩

/-- The slot is cleared. -/
lemma clear {x : TracePtr} (h : RoundInv r) (hphase : r.phase = .holding x) :
    RoundInv { r with phase := .taken x, slot := none } := by
  suffices hnext : RoundInv { r with
      phase := .taken x, slot := (RoundPhase.taken x).slot } from hnext
  refine h.changePhase ?_ ?_ ?_ h.queued_nodup ?_ ?_
  · rw [hphase]
    exact fun y hy => nomatch hy
  · rw [hphase]
    exact fun t y hy => nomatch hy
  · exact fun t y hy => nomatch hy
  · intro y hy
    obtain ⟨cell, hcell, -⟩ := h.queued y hy
    exact ⟨cell, hcell⟩
  · intro y hy
    exact h.held y (by rw [hphase]; exact hy)

/-- The trace is queued. -/
lemma queue {x : TracePtr} (h : RoundInv r) (hphase : r.phase = .taken x) :
    RoundInv { r with phase := .quiet, rawTraces := r.rawTraces ++ [x] } := by
  obtain ⟨hcell, hnew⟩ := h.held x (by rw [hphase]; rfl)
  have hslot : r.slot = none := by
    rw [h.slot, hphase]
    rfl
  suffices hnext : RoundInv { r with
      phase := .quiet, slot := RoundPhase.quiet.slot, rawTraces := r.rawTraces ++ [x] } by
    have hquiet : RoundPhase.quiet.slot = r.slot := hslot.symm
    rw [hquiet] at hnext
    exact hnext
  refine h.changePhase ?_ ?_ ?_ ?_ ?_ ?_
  · rw [hphase]
    exact fun y hy => nomatch hy
  · rw [hphase]
    exact fun t y hy => nomatch hy
  · exact fun t y hy => nomatch hy
  · rw [List.nodup_append_comm, List.singleton_append, List.nodup_cons]
    exact ⟨hnew, h.queued_nodup⟩
  · intro y hy
    rcases List.mem_append.mp hy with hy | hy
    · obtain ⟨cell, hcell, -⟩ := h.queued y hy
      exact ⟨cell, hcell⟩
    · rw [List.mem_singleton.mp hy]
      exact hcell
  · intro y hy
    cases hy

/-- The first trace of the queue is discarded. -/
lemma discard {x : TracePtr} {rest : List TracePtr} (h : RoundInv r) (hphase : r.phase = .quiet)
    (hraw : r.rawTraces = x :: rest) :
    RoundInv { r with heap := Function.update r.heap x none, rawTraces := rest } := by
  have hnodup := h.queued_nodup
  rw [hraw, List.nodup_cons] at hnodup
  have hquiet : ∀ y, r.phase ≠ .awaiting y := by
    intro y
    rw [hphase]
    exact fun hy => nomatch hy
  have hold : ∀ {y : TracePtr} {cell : TraceCell},
      Function.update r.heap x none y = some cell → r.heap y = some cell := by
    intro y cell hy
    by_cases hyx : y = x
    · rw [hyx, Function.update_self] at hy
      cases hy
    · rwa [Function.update_of_ne hyx] at hy
  refine ⟨h.slot, ?_, ?_, ?_, ?_, ?_, h.pending_le, ?_, ?_, ?_, hnodup.2⟩
  · intro y hy
    rw [Option.eq_none_iff_forall_not_mem]
    intro cell hcell
    have hnone := h.fresh y hy
    rw [hold hcell] at hnone
    cases hnone
  · intro y hy
    rw [hphase] at hy
    cases hy
  · intro t y hy
    rw [hphase] at hy
    cases hy
  · intro y cell hcell hready
    exact h.unready y cell (hold hcell) hready
  · intro signal hsignal
    rw [h.pending_eq_nil hquiet] at hsignal
    cases hsignal
  · intro t y hy
    rw [h.serves_eq_none hquiet t] at hy
    cases hy
  · intro t y hy
    obtain ⟨hlt, hready⟩ := h.readied t y hy
    exact ⟨hlt, fun cell hcell => hready cell (hold hcell)⟩
  · intro y hy
    obtain ⟨cell, hcell, hready⟩ := h.queued y (by rw [hraw]; exact List.mem_cons_of_mem _ hy)
    have hne : y ≠ x := by
      rintro rfl
      exact hnodup.1 hy
    exact ⟨cell, (Function.update_of_ne hne _ _).trans hcell, hready⟩

/-! ## Steps of the handlers -/

/-- Two threads do not serve the same trace. -/
lemma serves_unique (h : RoundInv r) {t t' : PThread} {x y : TracePtr}
    (ht : (r.handlers t).serves = some x) (ht' : (r.handlers t').serves = some y) :
    x = y ∧ t = t' := by
  obtain ⟨⟨hx, cell, hcell, -, hthread⟩, -⟩ := h.serves t x ht
  obtain ⟨⟨hy, cell', hcell', -, hthread'⟩, -⟩ := h.serves t' y ht'
  rw [hx] at hy
  cases hy
  rw [hcell] at hcell'
  cases hcell'
  exact ⟨rfl, hthread.symm.trans hthread'⟩

/-- A handler that makes a trace ready finds it in the slot. -/
lemma slot_of_serves (h : RoundInv r) {t : PThread} {x : TracePtr}
    (ht : (r.handlers t).serves = some x) : r.slot = some x := by
  rw [h.slot, (h.serves t x ht).1.1]
  rfl

/-- The trace of a handler that has not made it ready. -/
lemma cell_of_serves (h : RoundInv r) {t : PThread} {x : TracePtr} {cell : TraceCell}
    (ht : (r.handlers t).serves = some x) (hcell : r.heap x = some cell) :
    cell.ready = false ∧ cell.trace.threadId = t := by
  obtain ⟨⟨-, cell', hcell', hready⟩, -⟩ := h.serves t x ht
  rw [hcell] at hcell'
  cases hcell'
  exact hready

/-- A handler is started by a signal. -/
lemma deliver {t : PThread} {signal : PThread × TracePtr} (h : RoundInv r)
    (hsignal : r.pending.find? (fun signal => signal.1 == t) = some signal) :
    RoundInv { r with
      pending := r.pending.erase signal
      handlers := Function.update r.handlers t (.entered signal.2) } := by
  have hmem : signal ∈ r.pending := List.mem_of_find?_eq_some hsignal
  have ht : signal.1 = t := by simpa using List.find?_some hsignal
  have hone : r.pending = [signal] := by
    obtain ⟨signal', hsingle⟩ := List.length_eq_one_iff.mp
      (le_antisymm h.pending_le (List.length_pos_of_mem hmem))
    rw [hsingle, List.mem_singleton] at hmem
    rw [hsingle, hmem]
  have herase : r.pending.erase signal = [] := by
    rw [hone]
    simp
  rw [herase]
  refine ⟨h.slot, h.fresh, h.held, h.published, h.unready, ?_, Nat.zero_le _, ?_, ?_, h.queued,
    h.queued_nodup⟩
  · intro signal' hsignal'
    cases hsignal'
  · intro t' x hx
    refine ⟨?_, rfl⟩
    by_cases htt : t' = t
    · subst htt
      obtain rfl : signal.2 = x := by simpa using hx
      rw [← ht]
      exact h.pending signal hmem
    · have hold : (r.handlers t').serves = some x := by simpa [htt] using hx
      exact (h.serves t' x hold).1
  · intro t' x hx
    by_cases htt : t' = t
    · subst htt
      simp at hx
    · exact h.readied t' x (by simpa [htt] using hx)

/-- A handler writes to its trace and goes on, or makes it ready. -/
lemma write {t : PThread} {x : TracePtr} {cell : TraceCell} {handler : SignalHandler}
    (h : RoundInv r) (ht : (r.handlers t).serves = some x) (hthread : cell.trace.threadId = t)
    (hhandler : handler.serves = some x ∧ cell.ready = false ∨
      handler = .readied x ∧ cell.ready = true) :
    RoundInv { r with
      heap := Function.update r.heap x (some cell)
      handlers := Function.update r.handlers t handler } := by
  obtain ⟨⟨hphase, old, hold, hold_ready, -⟩, hpending⟩ := h.serves t x ht
  have hne_of_free : ∀ y, r.heap y = none → y ≠ x := by
    rintro y hy rfl
    rw [hold] at hy
    cases hy
  have hne_of_ready : ∀ y, (∀ cell, r.heap y = some cell → cell.ready = true) → y ≠ x := by
    rintro y hy rfl
    rw [hy old hold] at hold_ready
    cases hold_ready
  refine ⟨h.slot, ?_, ?_, ?_, ?_, ?_, h.pending_le, ?_, ?_, ?_, h.queued_nodup⟩
  · intro y hy
    have hfree := h.fresh y hy
    exact (Function.update_of_ne (hne_of_free y hfree) _ _).trans hfree
  · intro y hy
    rw [hphase] at hy
    obtain rfl : x = y := by simpa using hy
    exact ⟨⟨cell, Function.update_self ..⟩, (h.held x (by rw [hphase]; rfl)).2⟩
  · intro t' y hy
    rw [hphase] at hy
    cases hy
  · intro y cell' hcell' hready'
    by_cases hyx : y = x
    · rw [hyx]
      exact .inl hphase
    · exact h.unready y cell' ((Function.update_of_ne hyx _ _).symm.trans hcell') hready'
  · intro signal hsignal
    rw [hpending] at hsignal
    cases hsignal
  · intro t' y hy
    refine ⟨?_, hpending⟩
    by_cases htt : t' = t
    · subst htt
      simp only [Function.update_self] at hy
      rcases hhandler with ⟨hserves, hready⟩ | ⟨rfl, -⟩
      · rw [hserves] at hy
        cases hy
        exact ⟨hphase, cell, Function.update_self .., hready, hthread⟩
      · cases hy
    · have hy' : (r.handlers t').serves = some y := by simpa [htt] using hy
      exact absurd (h.serves_unique hy' ht).2 htt
  · intro t' y hy
    by_cases htt : t' = t
    · subst htt
      simp only [Function.update_self] at hy
      rcases hhandler with ⟨hserves, -⟩ | ⟨rfl, hready⟩
      · rw [hy] at hserves
        cases hserves
      · cases hy
        refine ⟨?_, ?_⟩
        · by_contra hlt
          exact hne_of_free x (h.fresh x (not_lt.mp hlt)) rfl
        · intro cell' hcell'
          simp only [Function.update_self, Option.some.injEq] at hcell'
          rw [← hcell']
          exact ⟨hready, hthread⟩
    · obtain ⟨hlt, hready⟩ := h.readied t' y (by simpa [htt] using hy)
      have hyx := hne_of_ready y fun cell' hcell' => (hready cell' hcell').1
      refine ⟨hlt, fun cell' hcell' => hready cell' ?_⟩
      exact (Function.update_of_ne hyx _ _).symm.trans hcell'
  · intro y hy
    obtain ⟨cell', hcell', hready'⟩ := h.queued y hy
    have hyx : y ≠ x := by
      refine hne_of_ready y fun cell hcell => ?_
      rw [hcell'] at hcell
      cases hcell
      exact hready'
    exact ⟨cell', (Function.update_of_ne hyx _ _).trans hcell', hready'⟩

/-- A handler goes on with its trace. -/
lemma advance {t : PThread} {x : TracePtr} {handler : SignalHandler} (h : RoundInv r)
    (ht : (r.handlers t).serves = some x) (hserves : handler.serves = some x) :
    RoundInv { r with handlers := Function.update r.handlers t handler } := by
  obtain ⟨⟨-, cell, hcell, hready, hthread⟩, -⟩ := h.serves t x ht
  have hsame : Function.update r.heap x (some cell) = r.heap := by
    rw [← hcell, Function.update_eq_self]
  have hnext := h.write ht hthread (.inl ⟨hserves, hready⟩)
  rw [hsame] at hnext
  exact hnext

/-- A handler returns. -/
lemma release (h : RoundInv r) (t : PThread) :
    RoundInv { r with handlers := Function.update r.handlers t .idle } := by
  refine ⟨h.slot, h.fresh, h.held, h.published, h.unready, h.pending, h.pending_le, ?_, ?_,
    h.queued, h.queued_nodup⟩
  · intro t' x hx
    by_cases htt : t' = t
    · subst htt
      simp at hx
    · exact h.serves t' x (by simpa [htt] using hx)
  · intro t' x hx
    by_cases htt : t' = t
    · subst htt
      simp at hx
    · exact h.readied t' x (by simpa [htt] using hx)

end RoundInv

/-! ## The invariant along a run -/

/-- `notify_one` does not change the phase of the round. -/
lemma Sampler.phase_notified (s : Sampler) (x : TracePtr) :
    (s.notified x).phase = s.thread.phase := by
  unfold notified
  split
  · next y rest hthread =>
    rw [hthread]
    split_ifs <;> rfl
  · rfl

/-- The protocol does not see a step of the profiler thread that stays in its phase. -/
lemma Sampler.round_goTo (s : Sampler) {thread : ProfilerThread}
    (h : thread.phase = s.thread.phase) : (s.goTo thread).round = s.round := by
  rw [round, goTo_thread, h]
  rfl

/-- The phase of the round at a position of the profiler thread. -/
lemma Sampler.round_phase_of {s : Sampler} {thread : ProfilerThread} (h : s.thread = thread) :
    s.round.phase = thread.phase := by
  rw [round_phase, h]

/-- The trace of a handler at a position of the handler. -/
lemma Sampler.serves_of {s : Sampler} {t : PThread} {handler : SignalHandler}
    (h : s.handlers t = handler) : (s.round.handlers t).serves = handler.serves := by
  rw [round_handlers, h]

/-- **A step of the machine keeps the invariant of the protocol.** -/
lemma RoundInv.step {env : SamplerEnv} {s s' : Sampler} {e : SamplerEvent}
    {o : List SamplerEffect} (h : RoundInv s.round) (hstep : s.step env e = some (s', o)) :
    RoundInv s'.round := by
  have hsame : ∀ thread, thread.phase = s.thread.phase → RoundInv (s.goTo thread).round := by
    intro thread hphase
    rw [s.round_goTo hphase]
    exact h
  cases Sampler.step_spec hstep with
  -- the protocol does not see these steps
  | callback | stop | spin => exact h
  | startProfiler hthread | enterLoop hthread | leaveLoop hthread | endScan hthread | select hthread
  | skip hthread | sleep hthread | wakeUp hthread | endProcessing hthread =>
    exact hsame _ (by rw [hthread]; rfl)
  | publish hthread => exact h.publish (Sampler.round_phase_of hthread) rfl rfl
  | send hthread => exact h.send (Sampler.round_phase_of hthread)
  | proceed hthread hcell hready => exact h.proceed (Sampler.round_phase_of hthread) hcell hready
  | clear hthread => exact h.clear (Sampler.round_phase_of hthread)
  | queue hthread hcell => exact h.queue (Sampler.round_phase_of hthread)
  | process hthread hraw hstep => exact h.discard (Sampler.round_phase_of hthread) hraw
  | deliver hidle hsignal => exact h.deliver hsignal
  | pass hhandler hactive => exact h.advance (Sampler.serves_of hhandler) rfl
  | refuse hhandler hactive => exact h.release _
  | load hhandler hslot =>
    have hload := h.slot_of_serves (Sampler.serves_of hhandler)
    rw [Sampler.round_slot, hslot] at hload
    cases hload
    exact h.advance (Sampler.serves_of hhandler) rfl
  | unwind hhandler hcell htrace =>
    obtain ⟨hready, hthread⟩ := h.cell_of_serves (Sampler.serves_of hhandler) hcell
    refine h.write (Sampler.serves_of hhandler) ?_ (.inl ⟨rfl, hready⟩)
    rw [htrace]
    exact hthread
  | tag hhandler hcell hc =>
    obtain ⟨hready, hthread⟩ := h.cell_of_serves (Sampler.serves_of hhandler) hcell
    exact h.write (Sampler.serves_of hhandler) hthread (.inl ⟨rfl, hready⟩)
  | setReady hhandler hcell =>
    obtain ⟨-, hthread⟩ := h.cell_of_serves (Sampler.serves_of hhandler) hcell
    exact h.write (Sampler.serves_of hhandler) hthread (.inr ⟨rfl, rfl⟩)
  | notify hhandler hcell =>
    rw [Sampler.round, Sampler.goTo_thread, s.phase_notified]
    exact h.release _

/-- **The invariant of the protocol holds in every reachable state.** -/
theorem roundInv_of_run {env : SamplerEnv} {l : SamplerLog} {s : Sampler}
    (hrun : SamplerRun env l s) : RoundInv s.round := by
  refine LogMachine.Run.state_invariant (I := fun s => RoundInv s.round) ?_ ?_ hrun
  · refine ⟨rfl, fun _ _ => rfl, ?_, ?_, ?_, ?_, Nat.zero_le _, ?_, ?_, ?_, List.nodup_nil⟩
    · exact fun x hx => nomatch hx
    · exact fun t x hx => nomatch hx
    · exact fun x cell hx => nomatch hx
    · exact fun signal hsignal => nomatch hsignal
    · exact fun t x hx => nomatch hx
    · exact fun t x hx => nomatch hx
    · exact fun x hx => nomatch hx
  · intro s e o s' h hstep
    exact h.step hstep

end KotlinTracer
