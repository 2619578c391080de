import KotlinTracer.Profiler.Steps
import Mathlib.Data.List.Range

set_option relaxedAutoImplicit false
set_option autoImplicit false

/-!
# The list of the GC events

`gcStart` appends an event to the list. `gcFinish` takes the *last* event, pops the *first* one,
sets the end of the event taken and appends it. With one event in the list these are the same; from
the second collection on, the first event is lost and the last one is there twice. The cleaner pops
as many events as there were at its mark, so it also pops the event of a collection that is still
running, when that started before the mark.

## Main definitions

* `KotlinTracer.GcAlternates`, `KotlinTracer.CleanerAlternates` — how the VM and the cleaner call.
* `KotlinTracer.gcHistory` — the events of all collections, from the calls.
* `KotlinTracer.GcExact` — the list holds exactly the events of all collections.
* `KotlinTracer.GcSpan`, `KotlinTracer.gcSpan` — what the cleaner did during a collection.
* `KotlinTracer.GcStepSafe` — a call does not read or pop an empty list, and a `gcFinish` finds the
  event of its collection.

## Main results

* `KotlinTracer.gcExact_iff` — without a cleaner, the list is exact if and only if at most one
  collection has finished.
* `KotlinTracer.gcStepSafe_iff` — with a cleaner, every call is safe, except the end of a collection
  during which the cleaner marked and then cleaned.
-/

namespace KotlinTracer

/-! ## Calls of the VM and of the cleaner -/

/-- The number of calls of a kind. -/
def callCount (call : Call) (es : List Event) : ℕ := es.countP fun e => e.call = call

/-- `gcStart` and `gcFinish` alternate, beginning with `gcStart`. -/
def GcAlternates (es : List Event) : Prop :=
  es.AtEvery fun es e =>
    (e.call = .gcStart → callCount .gcStart es = callCount .gcFinish es) ∧
      (e.call = .gcFinish → callCount .gcStart es = callCount .gcFinish es + 1)

/-- `mark_for_clean` and `clean` alternate, beginning with `mark_for_clean`. -/
def CleanerAlternates (es : List Event) : Prop :=
  es.AtEvery fun es e =>
    (e.call = .markForClean → callCount .markForClean es = callCount .clean es) ∧
      (e.call = .clean → callCount .markForClean es = callCount .clean es + 1)

instance (es : List Event) : Decidable (GcAlternates es) :=
  inferInstanceAs (Decidable (List.AtEvery _ es))

instance (es : List Event) : Decidable (CleanerAlternates es) :=
  inferInstanceAs (Decidable (List.AtEvery _ es))

/-- One more call. -/
lemma callCount_concat (call : Call) (es : List Event) (e : Event) :
    callCount call (es ++ [e]) = callCount call es + if e.call = call then 1 else 0 := by
  simp [callCount, List.countP_append, List.countP_singleton]

/-- A call of another kind does not count. -/
lemma callCount_concat_of_ne {call : Call} {es : List Event} {e : Event} (h : e.call ≠ call) :
    callCount call (es ++ [e]) = callCount call es := by
  rw [callCount_concat, if_neg h, add_zero]

/-- One more call of the kind. -/
lemma callCount_concat_of_eq {call : Call} {es : List Event} {e : Event} (h : e.call = call) :
    callCount call (es ++ [e]) = callCount call es + 1 := by
  rw [callCount_concat, if_pos h]

/-- A collection is running, or none: in an alternating run as many collections have started as
have finished, or one more. -/
lemma GcAlternates.count {es : List Event} (h : GcAlternates es) :
    callCount .gcStart es = callCount .gcFinish es ∨
      callCount .gcStart es = callCount .gcFinish es + 1 := by
  induction es using List.reverseRecOn with
  | nil => exact Or.inl rfl
  | append_singleton es e ih =>
    obtain ⟨hes, hstart, hfinish⟩ := List.atEvery_concat.mp h
    have hcount := ih hes
    rw [callCount_concat, callCount_concat]
    by_cases hs : e.call = .gcStart
    · have heq := hstart hs
      simp [hs, heq]
    · by_cases hf : e.call = .gcFinish
      · have heq := hfinish hf
        simp [hf, heq]
      · simpa [hs, hf] using hcount

/-! ## The events of all collections -/

/-- The events of the collections after one more call: a `gcStart` begins an event, a `gcFinish`
ends the one that the `gcStart` before it began. -/
def gcHistoryStep (events : List GCEvent) (e : Event) : List GCEvent :=
  match e.call with
  | .gcStart => events ++ [⟨e.now, 0⟩]
  | .gcFinish => events.modify (events.length - 1) fun event => { event with endTime := e.now }
  | _ => events

/-- The events of all collections started so far, in start order. -/
def gcHistory (es : List Event) : List GCEvent := es.foldl gcHistoryStep []

/-- The list of the GC events is exactly the list of all events, in start order, each once: its
elements are the addresses `0`, `1`, ... of the events as the calls determine them, and each event
that was ended was ended at or after its start. -/
structure GcExact (es : List Event) (p : Profiler) : Prop where
  list : p.storage.gcEvents.list = List.range (callCount .gcStart es)
  events : p.storage.gcEventList = gcHistory es
  ended : ∀ i < callCount .gcFinish es, ∃ event, (gcHistory es)[i]? = some event ∧
    event.start ≤ event.endTime

/-- One more call. -/
lemma gcHistory_concat (es : List Event) (e : Event) :
    gcHistory (es ++ [e]) = gcHistoryStep (gcHistory es) e := by
  simp [gcHistory]

/-- A call that neither starts nor ends a collection. -/
lemma gcHistory_concat_of_ne {es : List Event} {e : Event} (hs : e.call ≠ .gcStart)
    (hf : e.call ≠ .gcFinish) : gcHistory (es ++ [e]) = gcHistory es := by
  rw [gcHistory_concat, gcHistoryStep]
  split
  · exact absurd ‹_› hs
  · exact absurd ‹_› hf
  · rfl

/-- There is one event for each collection. -/
lemma length_gcHistory (es : List Event) : (gcHistory es).length = callCount .gcStart es := by
  induction es using List.reverseRecOn with
  | nil => rfl
  | append_singleton es e ih =>
    rw [gcHistory_concat, callCount_concat, gcHistoryStep]
    cases hcall : e.call with
    | gcStart => simp [ih]
    | gcFinish => simp [ih]
    | _ => simp [ih]

/-- Every event began at a call. -/
lemma exists_start_of_mem_gcHistory {es : List Event} {event : GCEvent} (h : event ∈ gcHistory es) :
    ∃ e ∈ es, e.now = event.start := by
  induction es using List.reverseRecOn generalizing event with
  | nil => cases h
  | append_singleton es e ih =>
    have hes : ∀ event ∈ gcHistory es, ∃ e' ∈ es ++ [e], e'.now = event.start := by
      intro event hevent
      obtain ⟨e', he', heq⟩ := ih hevent
      exact ⟨e', List.mem_append_left _ he', heq⟩
    rw [gcHistory_concat, gcHistoryStep] at h
    cases hcall : e.call with
    | gcStart =>
      rw [hcall] at h
      rcases List.mem_append.mp h with h | h
      · exact hes event h
      · rw [List.mem_singleton.mp h]
        exact ⟨e, by simp, rfl⟩
    | gcFinish =>
      rw [hcall] at h
      obtain ⟨i, hi⟩ := List.mem_iff_getElem?.mp h
      rw [List.getElem?_modify] at hi
      obtain ⟨event', hevent', rfl⟩ := Option.map_eq_some_iff.mp hi
      have hmem := hes event' (List.mem_of_getElem? hevent')
      split_ifs
      · exact hmem
      · exact hmem
    | _ =>
      rw [hcall] at h
      exact hes event h

/-- Every event began before any time that is not before a call. -/
lemma start_le_of_mem_gcHistory {es : List Event} {now : TraceTime}
    (hnow : ∀ e ∈ es, e.now ≤ now) {event : GCEvent} (h : event ∈ gcHistory es) :
    event.start ≤ now := by
  obtain ⟨e, he, heq⟩ := exists_start_of_mem_gcHistory h
  rw [← heq]
  exact hnow e he

/-- In an alternating run with a clock, every finished collection has its end set, at or after its
start.

**Proof sketch.** A `gcFinish` sets the end of the last event, whose index is the number of
collections that have finished before. -/
lemma gcHistory_ended {es : List Event} (halt : GcAlternates es)
    (hclock : es.Pairwise fun e e' => e.now ≤ e'.now) :
    ∀ i < callCount .gcFinish es, ∃ event, (gcHistory es)[i]? = some event ∧
      event.start ≤ event.endTime := by
  induction es using List.reverseRecOn with
  | nil =>
    intro i hi
    simp [callCount] at hi
  | append_singleton es e ih =>
    obtain ⟨hes, hstart, hfinish⟩ := List.atEvery_concat.mp halt
    obtain ⟨hmono, -, hle⟩ := List.pairwise_append.mp hclock
    have hbefore := ih hes hmono
    intro i hi
    rw [gcHistory_concat, gcHistoryStep]
    rw [callCount_concat] at hi
    cases hcall : e.call with
    | gcStart =>
      obtain ⟨event, hevent, hend⟩ := hbefore i (by simpa [hcall] using hi)
      refine ⟨event, ?_, hend⟩
      dsimp only
      rw [List.getElem?_append_left (List.getElem?_eq_some_iff.mp hevent).1]
      exact hevent
    | gcFinish =>
      have hlast : (gcHistory es).length - 1 = callCount .gcFinish es := by
        rw [length_gcHistory, hfinish hcall]
        omega
      dsimp only
      rw [hlast, List.getElem?_modify]
      by_cases hi' : i < callCount .gcFinish es
      · obtain ⟨event, hevent, hend⟩ := hbefore i hi'
        refine ⟨event, ?_, hend⟩
        rw [hevent, Option.map_eq_map, Option.map_some, if_neg (by omega)]
      · have heq : i = callCount .gcFinish es := by
          simp only [hcall, if_true] at hi
          omega
        have hlength : i < (gcHistory es).length := by
          rw [length_gcHistory, hfinish hcall]
          omega
        obtain ⟨event, hevent⟩ : ∃ event, (gcHistory es)[i]? = some event :=
          ⟨_, List.getElem?_eq_getElem hlength⟩
        refine ⟨{ event with endTime := e.now }, ?_, ?_⟩
        · rw [hevent, Option.map_eq_map, Option.map_some, if_pos heq.symm]
        · have hmem : event ∈ gcHistory es := List.mem_of_getElem? hevent
          have hbegan : event.start ≤ e.now :=
            start_le_of_mem_gcHistory (fun e' he' => hle e' he' e (by simp)) hmem
          exact hbegan
    | _ =>
      exact hbefore i (by simpa [hcall] using hi)

/-! ## Runs without a cleaner -/

/-- What is true of the GC events in an alternating run without a cleaner. -/
structure GcInvariant (es : List Event) (p : Profiler) : Prop where
  heap : p.storage.gcHeap = gcHistory es
  /-- While a collection runs its event is the last one. -/
  last : callCount .gcStart es = callCount .gcFinish es + 1 →
    p.storage.gcEvents.list.getLast? = some (callCount .gcFinish es)
  /-- Up to the end of the first collection the list is exact. -/
  exact : callCount .gcFinish es ≤ 1 →
    p.storage.gcEvents.list = List.range (callCount .gcStart es)
  /-- From the end of the second collection on the first event is lost. -/
  lost : 2 ≤ callCount .gcFinish es → 0 ∉ p.storage.gcEvents.list

section Step

variable {env : Env} {es : List Event} {e : Event} {p p' : Profiler} {o : List Effect}

/-- The next event gets the address that counts the collections before it. -/
lemma GcInvariant.length_gcHeap (h : GcInvariant es p) :
    p.storage.gcHeap.length = callCount .gcStart es := by
  rw [h.heap, length_gcHistory]

/-- A call that is neither `gcStart` nor `gcFinish` and leaves the events keeps the invariant. -/
lemma GcInvariant.step_other (h : GcInvariant es p) (hs : e.call ≠ .gcStart)
    (hf : e.call ≠ .gcFinish) (hlist : p'.storage.gcEvents.list = p.storage.gcEvents.list)
    (hheap : p'.storage.gcHeap = p.storage.gcHeap) : GcInvariant (es ++ [e]) p' := by
  have hstarts : callCount .gcStart (es ++ [e]) = callCount .gcStart es :=
    callCount_concat_of_ne hs
  have hfinishes : callCount .gcFinish (es ++ [e]) = callCount .gcFinish es :=
    callCount_concat_of_ne hf
  refine ⟨?_, ?_, ?_, ?_⟩
  · rw [hheap, gcHistory_concat_of_ne hs hf, h.heap]
  · rw [hlist, hstarts, hfinishes]
    exact h.last
  · rw [hlist, hstarts, hfinishes]
    exact h.exact
  · rw [hlist, hfinishes]
    exact h.lost

/-- A `gcStart` that begins a collection while none is running keeps the invariant. -/
lemma GcInvariant.step_gcStart (h : GcInvariant es p) (hcall : e.call = .gcStart)
    (hcount : callCount .gcStart es = callCount .gcFinish es)
    (hevents : p'.storage.gcEvents = p.storage.gcEvents.pushBack p.storage.gcHeap.length)
    (hheap : p'.storage.gcHeap = p.storage.gcHeap ++ [⟨e.now, 0⟩]) :
    GcInvariant (es ++ [e]) p' := by
  have hstarts : callCount .gcStart (es ++ [e]) = callCount .gcStart es + 1 :=
    callCount_concat_of_eq hcall
  have hfinishes : callCount .gcFinish (es ++ [e]) = callCount .gcFinish es :=
    callCount_concat_of_ne (by simp [hcall])
  have hlist : p'.storage.gcEvents.list =
      p.storage.gcEvents.list ++ [callCount .gcStart es] := by
    rw [hevents, ConcurrentList.list_pushBack, h.length_gcHeap]
  refine ⟨?_, fun _ => ?_, fun hle => ?_, fun hle => ?_⟩
  · rw [hheap, gcHistory_concat, gcHistoryStep, hcall, h.heap]
  · rw [hlist, hfinishes, List.getLast?_concat, hcount]
  · rw [hfinishes] at hle
    rw [hlist, hstarts, h.exact hle, List.range_succ]
  · rw [hfinishes] at hle
    rw [hlist, List.mem_append, List.mem_singleton]
    rintro (hmem | hzero)
    · exact h.lost hle hmem
    · have hnone : callCount .gcStart es = 0 := hzero.symm
      omega

/-- A `gcFinish` that ends the running collection keeps the invariant: it drops the first event of
the list, which is its own one only in the first collection. -/
lemma GcInvariant.step_gcFinish (h : GcInvariant es p) (hcall : e.call = .gcFinish)
    (hcount : callCount .gcStart es = callCount .gcFinish es + 1) {gcEvent : GCEventPtr}
    (hback : p.storage.gcEvents.list.getLast? = some gcEvent)
    (hevents : p'.storage.gcEvents = p.storage.gcEvents.popFront.2.pushBack gcEvent)
    (hheap : p'.storage.gcHeap =
      p.storage.gcHeap.modify gcEvent fun event => { event with endTime := e.now }) :
    GcInvariant (es ++ [e]) p' := by
  have hgcEvent : gcEvent = callCount .gcFinish es := by
    have hlast := h.last hcount
    rw [hback, Option.some.injEq] at hlast
    exact hlast
  have hstarts : callCount .gcStart (es ++ [e]) = callCount .gcStart es :=
    callCount_concat_of_ne (by simp [hcall])
  have hfinishes : callCount .gcFinish (es ++ [e]) = callCount .gcFinish es + 1 :=
    callCount_concat_of_eq hcall
  have hlist : p'.storage.gcEvents.list =
      p.storage.gcEvents.list.tail ++ [callCount .gcFinish es] := by
    rw [hevents, ConcurrentList.list_pushBack, ConcurrentList.list_popFront, hgcEvent]
  refine ⟨?_, fun hrunning => ?_, fun hle => ?_, fun hle => ?_⟩
  · rw [hheap, gcHistory_concat, gcHistoryStep, hcall, h.heap, hgcEvent]
    dsimp only
    rw [length_gcHistory, hcount, Nat.add_sub_cancel]
  · rw [hstarts, hfinishes] at hrunning
    omega
  · -- the first collection: its event is the only one
    have hzero : callCount .gcFinish es = 0 := by omega
    rw [hlist, hstarts, h.exact (by omega), hcount, hzero]
    rfl
  · rw [hlist, List.mem_append, List.mem_singleton]
    rintro (hmem | hzero)
    · by_cases htwo : 2 ≤ callCount .gcFinish es
      · exact h.lost htwo (List.mem_of_mem_tail hmem)
      · -- the second collection: the list was `[0, 1]`
        have hone : callCount .gcFinish es = 1 := by omega
        rw [h.exact hone.le, hcount, hone] at hmem
        revert hmem
        decide
    · have hnone : callCount .gcFinish es = 0 := hzero.symm
      omega

/-- **One call keeps the invariant.** -/
lemma GcInvariant.step (hstep : p.step env e = some (p', o)) (hclean : e.call ≠ .clean)
    (hstart : e.call = .gcStart → callCount .gcStart es = callCount .gcFinish es)
    (hfinish : e.call = .gcFinish → callCount .gcStart es = callCount .gcFinish es + 1)
    (h : GcInvariant es p) : GcInvariant (es ++ [e]) p' := by
  have hgc := Profiler.step_gc hstep
  cases hcall : e.call with
  | gcStart =>
    simp only [hcall] at hgc
    exact h.step_gcStart hcall (hstart hcall) hgc.1 hgc.2
  | gcFinish =>
    simp only [hcall] at hgc
    obtain ⟨gcEvent, hback, hevents, hheap⟩ := hgc
    exact h.step_gcFinish hcall (hfinish hcall) hback hevents hheap
  | clean => exact absurd hcall hclean
  | markForClean =>
    simp only [hcall] at hgc
    exact h.step_other (by simp [hcall]) (by simp [hcall]) (by rw [hgc.1]; rfl) hgc.2
  | _ =>
    simp only [hcall] at hgc
    exact h.step_other (by simp [hcall]) (by simp [hcall]) (by rw [hgc.1]) hgc.2

end Step

/-- The invariant holds in every alternating run without a cleaner. -/
lemma gcInvariant_of_reaches {env : Env} {es : List Event} {p : Profiler}
    (hrun : (machine env).Reaches es p) (halt : GcAlternates es)
    (hclean : ∀ e ∈ es, e.call ≠ .clean) : GcInvariant es p := by
  refine LogMachine.Reaches.invariant (I := fun es p => GcAlternates es →
    (∀ e ∈ es, e.call ≠ .clean) → GcInvariant es p) ?_ ?_ hrun halt hclean
  · intro _ _
    refine ⟨rfl, fun h => ?_, fun _ => rfl, fun h => ?_⟩
    · simp [callCount] at h
    · simp [callCount] at h
  · intro es p e o p' _ ih hstep halt hclean
    obtain ⟨hes, hstart, hfinish⟩ := List.atEvery_concat.mp halt
    exact (ih hes fun e' he' => hclean e' (by simp [he'])).step hstep (hclean e (by simp)) hstart
      hfinish

/-- Reading all addresses of a heap gives the heap. -/
lemma filterMap_range_getElem? {α : Type} (l : List α) :
    (List.range l.length).filterMap (fun i => l[i]?) = l := by
  induction l using List.reverseRecOn with
  | nil => rfl
  | append_singleton l x ih =>
    rw [List.length_append, List.length_singleton, List.range_succ, List.filterMap_append]
    have hleft : (List.range l.length).filterMap (fun i => (l ++ [x])[i]?) = l := by
      refine (List.filterMap_congr fun i hi => ?_).trans ih
      rw [List.getElem?_append_left (List.mem_range.mp hi)]
    rw [hleft]
    simp

/-- **When the list of the GC events is exact.** In every alternating run of the VM with a
nondecreasing clock and no cleaner step, the list holds the events of all collections, in start
order and each once, with the right ends, if and only if at most one collection has finished. -/
theorem gcExact_iff {env : Env} {es : List Event} {p : Profiler}
    (hrun : (machine env).Reaches es p) (halt : GcAlternates es)
    (hclock : es.Pairwise fun e e' => e.now ≤ e'.now) (hclean : ∀ e ∈ es, e.call ≠ .clean) :
    GcExact es p ↔ callCount .gcFinish es ≤ 1 := by
  have hinv := gcInvariant_of_reaches hrun halt hclean
  constructor
  · intro h
    by_contra hle
    have hlost := hinv.lost (by omega)
    rw [h.list, List.mem_range] at hlost
    have hcount := halt.count
    omega
  · intro hle
    refine ⟨hinv.exact hle, ?_, gcHistory_ended halt hclock⟩
    rw [TraceStorage.gcEventList, hinv.exact hle, hinv.heap, ← length_gcHistory]
    exact filterMap_range_getElem? _

/-- One collection that ends and a second one that still runs. -/
def secondCollection : List Event :=
  [Call.gcStart.at 2 1, Call.gcFinish.at 2 3, Call.gcStart.at 2 4]

/-- While the second collection runs the list is exact. -/
theorem gcExact_secondCollection :
    ∃ p, (machine .sample).Reaches secondCollection p ∧ GcExact secondCollection p := by
  have hexec : ((machine .sample).exec (machine .sample).init secondCollection).map
      (fun _ => ()) = some () := by decide
  obtain ⟨l, p, hrun, hes, -⟩ := LogMachine.exists_run_of_map_exec hexec
  have hreaches : (machine .sample).Reaches secondCollection p := ⟨l, hrun, hes⟩
  exact ⟨p, hreaches, (gcExact_iff hreaches (by decide) (by decide) (by decide)).mpr (by decide)⟩

/-- **After two collections the first event is lost and the second one is there twice.** -/
theorem gcFinish_loses_event :
    ∃ p, (machine .sample).Reaches (secondCollection ++ [Call.gcFinish.at 2 6]) p ∧
      GcAlternates (secondCollection ++ [Call.gcFinish.at 2 6]) ∧
      p.storage.gcEventList = [⟨4, 6⟩, ⟨4, 6⟩] ∧
      ¬ GcExact (secondCollection ++ [Call.gcFinish.at 2 6]) p := by
  have hexec : ((machine .sample).exec (machine .sample).init
      (secondCollection ++ [Call.gcFinish.at 2 6])).map (fun q => q.1.storage.gcEventList) =
      some [⟨4, 6⟩, ⟨4, 6⟩] := by decide
  obtain ⟨l, p, hrun, hes, hlist⟩ := LogMachine.exists_run_of_map_exec hexec
  refine ⟨p, ⟨l, hrun, hes⟩, by decide, hlist, fun hexact => ?_⟩
  have hevents := hexact.events
  rw [hlist] at hevents
  revert hevents
  decide

/-! ## Runs with a cleaner -/

/-- What the cleaner has done since the running collection started. -/
inductive GcSpan
  /-- No collection is running. -/
  | idle
  /-- The cleaner has not marked since the start. -/
  | running
  /-- The cleaner has marked since the start, and not cleaned since then. -/
  | marked
  /-- The cleaner has marked since the start and then cleaned. -/
  | cleaned
  deriving DecidableEq

/-- One more call. -/
def GcSpan.step : GcSpan → Call → GcSpan
  | _, .gcStart => .running
  | _, .gcFinish => .idle
  | .running, .markForClean => .marked
  | .marked, .clean => .cleaned
  | span, _ => span

/-- What the cleaner has done in the running collection, from the calls. -/
def gcSpan (es : List Event) : GcSpan := es.foldl (fun span e => span.step e.call) .idle

/-- The call `e` is safe in the state `p`: `gcFinish` finds a last element in the list and the event
of the latest `gcStart` is still in the list, and `clean` finds as many elements as it pops. -/
def GcStepSafe (p : Profiler) (e : Event) : Prop :=
  match e.call with
  | .gcFinish => p.storage.gcEvents.list ≠ [] ∧
      p.storage.gcHeap.length - 1 ∈ p.storage.gcEvents.list
  | .clean => p.storage.gcEvents.cleanUntil ≤ p.storage.gcEvents.list.length
  | _ => True

/-- One more call. -/
lemma gcSpan_concat (es : List Event) (e : Event) :
    gcSpan (es ++ [e]) = (gcSpan es).step e.call := by
  simp [gcSpan]

/-- No collection is running exactly when as many have finished as have started. -/
lemma gcSpan_eq_idle_iff {es : List Event} (halt : GcAlternates es) :
    gcSpan es = .idle ↔ callCount .gcStart es = callCount .gcFinish es := by
  induction es using List.reverseRecOn with
  | nil => exact ⟨fun _ => rfl, fun _ => rfl⟩
  | append_singleton es e ih =>
    obtain ⟨hes, hstart, hfinish⟩ := List.atEvery_concat.mp halt
    rw [gcSpan_concat, callCount_concat, callCount_concat]
    cases hcall : e.call with
    | gcStart =>
      have hcount := hstart hcall
      simp [GcSpan.step, hcount]
    | gcFinish =>
      have hcount := hfinish hcall
      simp [GcSpan.step, hcount]
    | _ =>
      simp only [reduceCtorEq, if_false, add_zero]
      rw [← ih hes]
      cases gcSpan es <;> simp [GcSpan.step]

/-- How many elements the next `clean` pops, against the length of the list: while a collection
runs that started after the mark, the last element is not among them. -/
def GcSpan.Bounds : GcSpan → ℕ → ℕ → Prop
  | .running, cleanUntil, length => cleanUntil < length
  | .marked, cleanUntil, length => cleanUntil = length
  | _, cleanUntil, length => cleanUntil ≤ length

/-- The `clean` that follows finds as many elements as it pops. -/
lemma GcSpan.Bounds.le {span : GcSpan} {cleanUntil length : ℕ}
    (h : span.Bounds cleanUntil length) : cleanUntil ≤ length := by
  cases span with
  | running => exact Nat.le_of_lt h
  | marked => exact Nat.le_of_eq h
  | idle => exact h
  | cleaned => exact h

/-- What is true of the GC events in an alternating run with an alternating cleaner. -/
structure GcCleanInvariant (es : List Event) (p : Profiler) : Prop where
  /-- The event of a running collection is the last one, until the cleaner drops it. -/
  last : gcSpan es = .running ∨ gcSpan es = .marked →
    p.storage.gcEvents.list.getLast? = some (p.storage.gcHeap.length - 1)
  /-- A mark and a clean during a collection leave nothing. -/
  cleaned : gcSpan es = .cleaned → p.storage.gcEvents.list = []
  marked : gcSpan es = .marked → callCount .markForClean es = callCount .clean es + 1
  bounds : callCount .markForClean es = callCount .clean es + 1 →
    (gcSpan es).Bounds p.storage.gcEvents.cleanUntil p.storage.gcEvents.list.length

section CleanStep

variable {env : Env} {es : List Event} {e : Event} {p p' : Profiler} {o : List Effect}

/-- After a call that is neither a mark nor a clean, a mark that is to be cleaned was so before, and
the clean finds what it has counted. -/
lemma GcCleanInvariant.cleanUntil_le (h : GcCleanInvariant es p) (hm : e.call ≠ .markForClean)
    (hc : e.call ≠ .clean)
    (hpending : callCount .markForClean (es ++ [e]) = callCount .clean (es ++ [e]) + 1) :
    p.storage.gcEvents.cleanUntil ≤ p.storage.gcEvents.list.length := by
  rw [callCount_concat_of_ne hm, callCount_concat_of_ne hc] at hpending
  exact (h.bounds hpending).le

/-- A `gcStart` keeps the invariant: the element it adds is behind all that are marked. -/
lemma GcCleanInvariant.step_gcStart (h : GcCleanInvariant es p) (hcall : e.call = .gcStart)
    (hevents : p'.storage.gcEvents = p.storage.gcEvents.pushBack p.storage.gcHeap.length)
    (hheap : p'.storage.gcHeap = p.storage.gcHeap ++ [⟨e.now, 0⟩]) :
    GcCleanInvariant (es ++ [e]) p' := by
  have hspan : gcSpan (es ++ [e]) = .running := by rw [gcSpan_concat, hcall, GcSpan.step]
  refine ⟨fun _ => ?_, fun hc => ?_, fun hm => ?_, fun hpending => ?_⟩
  · rw [hevents, hheap, ConcurrentList.list_pushBack, List.getLast?_concat]
    simp
  · simp [hspan] at hc
  · simp [hspan] at hm
  · have hle := h.cleanUntil_le (by simp [hcall]) (by simp [hcall]) hpending
    rw [hspan, hevents, ConcurrentList.list_pushBack, ConcurrentList.cleanUntil_pushBack,
      List.length_append, List.length_singleton]
    exact Nat.lt_succ_of_le hle

/-- A `gcFinish` that finds a last element keeps the invariant: the length of the list stays. -/
lemma GcCleanInvariant.step_gcFinish (h : GcCleanInvariant es p) (hcall : e.call = .gcFinish)
    {gcEvent : GCEventPtr} (hback : p.storage.gcEvents.list.getLast? = some gcEvent)
    (hevents : p'.storage.gcEvents = p.storage.gcEvents.popFront.2.pushBack gcEvent) :
    GcCleanInvariant (es ++ [e]) p' := by
  have hspan : gcSpan (es ++ [e]) = .idle := by rw [gcSpan_concat, hcall, GcSpan.step]
  have hlength : 0 < p.storage.gcEvents.list.length := by
    apply List.length_pos_of_ne_nil
    intro hnil
    simp [hnil] at hback
  refine ⟨fun hr => ?_, fun hc => ?_, fun hm => ?_, fun hpending => ?_⟩
  · simp [hspan] at hr
  · simp [hspan] at hc
  · simp [hspan] at hm
  · have hle := h.cleanUntil_le (by simp [hcall]) (by simp [hcall]) hpending
    rw [hspan, hevents, ConcurrentList.list_pushBack, ConcurrentList.cleanUntil_pushBack,
      ConcurrentList.cleanUntil_popFront, ConcurrentList.list_popFront, List.length_append,
      List.length_singleton, List.length_tail, Nat.sub_add_cancel hlength]
    exact hle

/-- A mark keeps the invariant: the next clean pops all elements that are there now. -/
lemma GcCleanInvariant.step_markForClean (h : GcCleanInvariant es p)
    (hcall : e.call = .markForClean)
    (hcount : callCount .markForClean es = callCount .clean es)
    (hevents : p'.storage.gcEvents = p.storage.gcEvents.markForClean)
    (hheap : p'.storage.gcHeap = p.storage.gcHeap) : GcCleanInvariant (es ++ [e]) p' := by
  have hspan : gcSpan (es ++ [e]) = (gcSpan es).step .markForClean := by
    rw [gcSpan_concat, hcall]
  have hlist : p'.storage.gcEvents.list = p.storage.gcEvents.list := by rw [hevents]; rfl
  have huntil : p'.storage.gcEvents.cleanUntil = p.storage.gcEvents.list.length := by
    rw [hevents]; rfl
  have hpending : callCount .markForClean (es ++ [e]) = callCount .clean (es ++ [e]) + 1 := by
    rw [callCount_concat_of_eq hcall, callCount_concat_of_ne (by simp [hcall]), hcount]
  -- a mark during a collection that was marked already would be the second in a row
  have hnot : gcSpan es ≠ .marked := by
    intro hm
    have hmarks := h.marked hm
    omega
  refine ⟨fun hr => ?_, fun hc => ?_, fun _ => hpending, fun _ => ?_⟩
  · rw [hlist, hheap]
    apply h.last
    rw [hspan] at hr
    cases hs : gcSpan es <;> simp_all [GcSpan.step]
  · rw [hlist]
    apply h.cleaned
    rw [hspan] at hc
    cases hs : gcSpan es <;> simp_all [GcSpan.step]
  · rw [hspan, hlist, huntil]
    cases hs : gcSpan es with
    | marked => exact absurd hs hnot
    | running => exact rfl
    | idle => exact le_rfl
    | cleaned => exact le_rfl

/-- A clean after a mark keeps the invariant: it pops the last element exactly when the running
collection started before the mark. -/
lemma GcCleanInvariant.step_clean (h : GcCleanInvariant es p) (hcall : e.call = .clean)
    (hpending : callCount .markForClean es = callCount .clean es + 1)
    (hlist : p'.storage.gcEvents.list =
      p.storage.gcEvents.list.drop p.storage.gcEvents.cleanUntil)
    (hheap : p'.storage.gcHeap = p.storage.gcHeap) : GcCleanInvariant (es ++ [e]) p' := by
  have hbounds := h.bounds hpending
  have hspan : gcSpan (es ++ [e]) = (gcSpan es).step .clean := by rw [gcSpan_concat, hcall]
  have hdone : callCount .markForClean (es ++ [e]) = callCount .clean (es ++ [e]) := by
    rw [callCount_concat_of_ne (by simp [hcall]), callCount_concat_of_eq hcall, hpending]
  refine ⟨fun hr => ?_, fun hc => ?_, fun hm => ?_, fun hpending' => ?_⟩
  · rw [hspan] at hr
    cases hs : gcSpan es with
    | running =>
      rw [hs] at hbounds
      have hlt : p.storage.gcEvents.cleanUntil < p.storage.gcEvents.list.length := hbounds
      rw [hlist, hheap, List.getLast?_drop, if_neg (by omega)]
      exact h.last (Or.inl hs)
    | marked => simp [hs, GcSpan.step] at hr
    | idle => simp [hs, GcSpan.step] at hr
    | cleaned => simp [hs, GcSpan.step] at hr
  · rw [hlist]
    rw [hspan] at hc
    cases hs : gcSpan es with
    | running => simp [hs, GcSpan.step] at hc
    | idle => simp [hs, GcSpan.step] at hc
    | marked =>
      rw [hs] at hbounds
      exact List.drop_eq_nil_of_le (Nat.le_of_eq hbounds.symm)
    | cleaned => rw [h.cleaned hs, List.drop_nil]
  · rw [hspan] at hm
    cases hs : gcSpan es <;> simp [hs, GcSpan.step] at hm
  · omega

/-- A call of another kind keeps the invariant: it leaves the events and the span. -/
lemma GcCleanInvariant.step_other (h : GcCleanInvariant es p)
    (hspan : gcSpan (es ++ [e]) = gcSpan es) (hm : e.call ≠ .markForClean) (hc : e.call ≠ .clean)
    (hevents : p'.storage.gcEvents = p.storage.gcEvents)
    (hheap : p'.storage.gcHeap = p.storage.gcHeap) : GcCleanInvariant (es ++ [e]) p' := by
  have hmarks : callCount .markForClean (es ++ [e]) = callCount .markForClean es :=
    callCount_concat_of_ne hm
  have hcleans : callCount .clean (es ++ [e]) = callCount .clean es :=
    callCount_concat_of_ne hc
  refine ⟨?_, ?_, ?_, ?_⟩
  · rw [hspan, hevents, hheap]
    exact h.last
  · rw [hspan, hevents]
    exact h.cleaned
  · rw [hspan, hmarks, hcleans]
    exact h.marked
  · rw [hspan, hevents, hmarks, hcleans]
    exact h.bounds

/-- **One call keeps the invariant.** -/
lemma GcCleanInvariant.step (hstep : p.step env e = some (p', o))
    (hclean : e.call = .clean → callCount .markForClean es = callCount .clean es + 1)
    (hmark : e.call = .markForClean → callCount .markForClean es = callCount .clean es)
    (h : GcCleanInvariant es p) : GcCleanInvariant (es ++ [e]) p' := by
  have hgc := Profiler.step_gc hstep
  cases hcall : e.call with
  | gcStart =>
    simp only [hcall] at hgc
    exact h.step_gcStart hcall hgc.1 hgc.2
  | gcFinish =>
    simp only [hcall] at hgc
    obtain ⟨gcEvent, hback, hevents, -⟩ := hgc
    exact h.step_gcFinish hcall hback hevents
  | markForClean =>
    simp only [hcall] at hgc
    exact h.step_markForClean hcall (hmark hcall) hgc.1 hgc.2
  | clean =>
    simp only [hcall] at hgc
    obtain ⟨-, hevents, hheap⟩ := hgc
    exact h.step_clean hcall (hclean hcall) (by rw [hevents]) hheap
  | _ =>
    simp only [hcall] at hgc
    refine h.step_other ?_ (by simp [hcall]) (by simp [hcall]) hgc.1 hgc.2
    rw [gcSpan_concat, hcall]
    cases gcSpan es <;> rfl

end CleanStep

/-- The invariant holds in every run in which the VM and the cleaner alternate. -/
lemma gcCleanInvariant_of_reaches {env : Env} {es : List Event} {p : Profiler}
    (hrun : (machine env).Reaches es p) (hgc : GcAlternates es) (hcleaner : CleanerAlternates es) :
    GcCleanInvariant es p := by
  refine LogMachine.Reaches.invariant (I := fun es p => GcAlternates es → CleanerAlternates es →
    GcCleanInvariant es p) ?_ ?_ hrun hgc hcleaner
  · intro _ _
    refine ⟨fun h => ?_, fun h => ?_, fun h => ?_, fun h => ?_⟩
    · simp [gcSpan] at h
    · simp [gcSpan] at h
    · simp [gcSpan] at h
    · simp [callCount] at h
  · intro es p e o p' _ ih hstep hgc hcleaner
    obtain ⟨hgc, -⟩ := List.atEvery_concat.mp hgc
    obtain ⟨hcleaner, hmark, hclean⟩ := List.atEvery_concat.mp hcleaner
    exact (ih hgc hcleaner).step hstep hclean hmark

/-- **Which calls are safe.** In every interleaving of alternating `gcStart`/`gcFinish` calls with
the alternating steps of the cleaner and any other callbacks, the call that comes next is safe,
except a `gcFinish` whose collection spans a mark of the cleaner and the clean that follows it. -/
theorem gcStepSafe_iff {env : Env} {es : List Event} {p : Profiler} {e : Event}
    (hrun : (machine env).Reaches es p) (hgc : GcAlternates (es ++ [e]))
    (hcleaner : CleanerAlternates (es ++ [e])) :
    GcStepSafe p e ↔ (e.call = .gcFinish → gcSpan es ≠ .cleaned) := by
  obtain ⟨hgc, -, hfinish⟩ := List.atEvery_concat.mp hgc
  obtain ⟨hcleaner, -, hclean⟩ := List.atEvery_concat.mp hcleaner
  have hinv := gcCleanInvariant_of_reaches hrun hgc hcleaner
  unfold GcStepSafe
  split
  · -- `gcFinish`: a collection is running
    rename_i hcall
    have hrunning : gcSpan es ≠ .idle := by
      rw [Ne, gcSpan_eq_idle_iff hgc, hfinish hcall]
      omega
    constructor
    · rintro ⟨hne, -⟩ - hcleaned
      exact hne (hinv.cleaned hcleaned)
    · intro h
      have hlast : p.storage.gcEvents.list.getLast? = some (p.storage.gcHeap.length - 1) := by
        apply hinv.last
        cases hs : gcSpan es with
        | idle => exact absurd hs hrunning
        | running => exact Or.inl rfl
        | marked => exact Or.inr rfl
        | cleaned => exact absurd hs (h hcall)
      refine ⟨fun hnil => ?_, List.mem_of_getLast? hlast⟩
      simp [hnil] at hlast
  · rename_i hcall
    have hbounds := (hinv.bounds (hclean hcall)).le
    simp [hcall, hbounds]
  · rename_i hnot _
    exact ⟨fun _ hcall => absurd hcall hnot, fun _ => trivial⟩

/-- A collection starts before a mark of the cleaner, and is running when the cleaner cleans. -/
def spanningCollection : List Event :=
  [Call.gcStart.at 2 1, Call.markForClean.at 9 2, Call.clean.at 9 3]

/-- A collection that ends between the mark and the clean is safe. -/
theorem gcStepSafe_betweenMarkAndClean :
    ∃ p, (machine .sample).Reaches [Call.gcStart.at 2 1, Call.markForClean.at 9 2] p ∧
      GcStepSafe p (Call.gcFinish.at 2 3) := by
  have hexec : ((machine .sample).exec (machine .sample).init
      [Call.gcStart.at 2 1, Call.markForClean.at 9 2]).map (fun _ => ()) = some () := by decide
  obtain ⟨l, p, hrun, hes, -⟩ := LogMachine.exists_run_of_map_exec hexec
  have hreaches : (machine .sample).Reaches [Call.gcStart.at 2 1, Call.markForClean.at 9 2] p :=
    ⟨l, hrun, hes⟩
  exact ⟨p, hreaches, (gcStepSafe_iff hreaches (by decide) (by decide)).mpr (by decide)⟩

/-- **The cleaner drops the event of a running collection**, so that its `gcFinish` reads the last
element of an empty list. -/
theorem gcFinish_empty_list :
    ∃ p, (machine .sample).Reaches spanningCollection p ∧
      GcAlternates (spanningCollection ++ [Call.gcFinish.at 2 4]) ∧
      CleanerAlternates (spanningCollection ++ [Call.gcFinish.at 2 4]) ∧
      p.storage.gcEvents.list = [] ∧ ¬ GcStepSafe p (Call.gcFinish.at 2 4) ∧
      p.step .sample (Call.gcFinish.at 2 4) = none := by
  have hexec : ((machine .sample).exec (machine .sample).init spanningCollection).map
      (fun q => (q.1.storage.gcEvents.list, (q.1.step .sample (Call.gcFinish.at 2 4)).isNone)) =
      some ([], true) := by decide
  obtain ⟨l, p, hrun, hes, hend⟩ := LogMachine.exists_run_of_map_exec hexec
  simp only [Prod.mk.injEq] at hend
  exact ⟨p, ⟨l, hrun, hes⟩, by decide, by decide, hend.1, fun hsafe => hsafe.1 hend.1,
    Option.isNone_iff_eq_none.mp hend.2⟩

end KotlinTracer
