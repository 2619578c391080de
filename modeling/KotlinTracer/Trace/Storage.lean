import KotlinTracer.ConcurrentCollections
import Mathlib.Tactic.Simps.Basic

set_option relaxedAutoImplicit false
set_option autoImplicit false

/-!
# The trace storage

The records of the tracer (`profiler/model/trace.hpp`, `profiler/model/asyncTrace.hpp`) and the
storage that holds them (`trace/traceStorage.hpp`, `trace/traceStorage.cpp`).

## Main definitions

* `KotlinTracer.CoroutineInfo`, `KotlinTracer.TraceInfo`, `KotlinTracer.SuspensionInfo`,
  `KotlinTracer.GCEvent`, `KotlinTracer.ProcessedTraceRecord` — the records.
* `KotlinTracer.TraceStorage` — the storage, with one definition for each of its functions.

## Design

Every `shared_ptr` map of the storage is a map to the pointee: the storage looks a key up only
after it found that it contains it, so in a step that nothing interrupts the inserting
`operator[]` finds the key, and a key never holds `nullptr`. The map of the ongoing traces holds
its records by value and is read without that check, so there the inserting `get` is kept.

A GC event is shared: one event may stand in the list more than once, and `gcFinish` writes
through the pointer. So the list holds the addresses of the events in `gcHeap`, which has one
event per `gcStart`, in start order.

Times are nanoseconds as `ℤ`; `0` as an end means that the record is still open. `0` as the id
of a coroutine is the default of a `TraceInfo`.
-/

namespace KotlinTracer

/-- `jlong`: coroutine ids. -/
abbrev JLong := ℤ

/-- `TraceTime`. -/
abbrev TraceTime := ℤ

/-- `pthread_t`. -/
abbrev PThread := ℕ

/-- `StackFrame`. -/
structure StackFrame where
  frame : String
  base : String
deriving DecidableEq

/-- `InstructionInfo`. -/
structure InstructionInfo where
  instruction : ℤ
  frame : ℕ
  javaFrame : Bool
deriving DecidableEq

/-- `AsyncTrace`, as the signal handler leaves it. -/
structure AsyncTrace where
  instructions : List InstructionInfo
  size : ℕ
  threadId : PThread
deriving DecidableEq

/-- `RawCallTraceRecord`. -/
structure RawCallTraceRecord where
  time : TraceTime
  traceCount : ℕ
  trace : AsyncTrace
  thread : PThread
  coroutineId : JLong
deriving DecidableEq

/-- `ProcessedTraceRecord`. -/
structure ProcessedTraceRecord where
  stackTrace : List StackFrame
  threadName : String
  time : TraceTime
deriving DecidableEq

/-- `TraceInfo`; the defaults are those of its default constructor. -/
structure TraceInfo where
  coroutineId : JLong := 0
  start : TraceTime := 0
  endTime : TraceTime := 0
deriving DecidableEq

/-- `SuspensionInfo`. -/
structure SuspensionInfo where
  coroutineId : JLong
  start : TraceTime
  endTime : TraceTime
  suspensionStackTrace : List StackFrame
deriving DecidableEq

/-- `TraceStorage::CoroutineInfo`. The two switch counters are `uint64_t`. -/
structure CoroutineInfo where
  start : TraceTime
  endTime : TraceTime
  lastResume : TraceTime
  wallClockRunningTime : TraceTime
  cpuUserClockRunningTimeUs : TraceTime
  cpuSystemClockRunningTimeUs : TraceTime
  voluntarySwitches : ℕ
  involuntarySwitches : ℕ
  suspensionsList : ConcurrentList SuspensionInfo

/-- `TraceStorage::GCEvent`. -/
structure GCEvent where
  start : TraceTime
  endTime : TraceTime
deriving DecidableEq

/-- The address of a `GCEvent`. -/
abbrev GCEventPtr := ℕ

/-- `TraceStorage`. -/
structure TraceStorage where
  rawList : ConcurrentList RawCallTraceRecord := {}
  processedMap : ConcurrentCleanableMap JLong (ConcurrentList ProcessedTraceRecord) := {}
  ongoingTraceInfoMap : ConcurrentCleanableMap JLong TraceInfo := {}
  childCoroutinesMap : ConcurrentCleanableMap JLong (ConcurrentList JLong) := {}
  coroutineInfoMap : ConcurrentCleanableMap JLong CoroutineInfo := {}
  gcEvents : ConcurrentList GCEventPtr := {}
  gcHeap : List GCEvent := []

namespace TraceStorage

/-! ## Samples -/

/-- `addRawTrace`. -/
@[simps] def addRawTrace (s : TraceStorage) (time : TraceTime) (trace : AsyncTrace)
    (coroutineId : JLong) : TraceStorage :=
  { s with
    rawList := s.rawList.pushBack ⟨time, trace.size, trace, trace.threadId, coroutineId⟩ }

/-- `removeRawTraceHeader`. -/
def removeRawTraceHeader (s : TraceStorage) : Option RawCallTraceRecord × TraceStorage :=
  (s.rawList.popFront.1, { s with rawList := s.rawList.popFront.2 })

/-- `addProcessedTrace`: append to the list of the coroutine, or start one. -/
@[simps] def addProcessedTrace (s : TraceStorage) (coroutineId : JLong)
    (record : ProcessedTraceRecord) : TraceStorage :=
  { s with processedMap :=
      if s.processedMap.contains coroutineId then
        s.processedMap.modify coroutineId fun list => list.pushBack record
      else (s.processedMap.insert coroutineId (ConcurrentList.pushBack {} record)).2 }

/-- `getProcessedTraces`. -/
def getProcessedTraces (s : TraceStorage) (coroutineId : JLong) :
    Option (ConcurrentList ProcessedTraceRecord) :=
  if s.processedMap.contains coroutineId then s.processedMap.at? coroutineId else none

/-! ## Ongoing traces -/

/-- `addOngoingTraceInfo`: `false` when a trace of the coroutine is ongoing. -/
def addOngoingTraceInfo (s : TraceStorage) (traceInfo : TraceInfo) : Bool × TraceStorage :=
  ((s.ongoingTraceInfoMap.insert traceInfo.coroutineId traceInfo).1,
    { s with ongoingTraceInfoMap :=
        (s.ongoingTraceInfoMap.insert traceInfo.coroutineId traceInfo).2 })

/-- `findOngoingTraceInfo`: through `get`, so an absent key is inserted with the default. -/
def findOngoingTraceInfo (s : TraceStorage) (coroutineId : JLong) : TraceInfo × TraceStorage :=
  ((s.ongoingTraceInfoMap.get {} coroutineId).1,
    { s with ongoingTraceInfoMap := (s.ongoingTraceInfoMap.get {} coroutineId).2 })

/-- `removeOngoingTraceInfo`. -/
@[simps] def removeOngoingTraceInfo (s : TraceStorage) (coroutineId : JLong) : TraceStorage :=
  { s with ongoingTraceInfoMap := (s.ongoingTraceInfoMap.erase coroutineId).2 }

/-! ## Coroutines -/

/-- The `CoroutineInfo` that `createCoroutineInfo` makes. -/
@[simps] def newCoroutineInfo (now : TraceTime) : CoroutineInfo where
  start := now
  endTime := 0
  lastResume := now
  wallClockRunningTime := 0
  cpuUserClockRunningTimeUs := 0
  cpuSystemClockRunningTimeUs := 0
  voluntarySwitches := 0
  involuntarySwitches := 0
  suspensionsList := {}

/-- `createCoroutineInfo`: only when the coroutine has none. -/
@[simps] def createCoroutineInfo (s : TraceStorage) (coroutineId : JLong) (now : TraceTime) :
    TraceStorage :=
  { s with coroutineInfoMap :=
      if s.coroutineInfoMap.contains coroutineId then s.coroutineInfoMap
      else (s.coroutineInfoMap.insert coroutineId (newCoroutineInfo now)).2 }

/-- `getCoroutineInfo`. -/
def getCoroutineInfo (s : TraceStorage) (coroutineId : JLong) : Option CoroutineInfo :=
  if s.coroutineInfoMap.contains coroutineId then s.coroutineInfoMap.at? coroutineId else none

/-- Write through the pointer that `getCoroutineInfo` returns. -/
@[simps] def updateCoroutineInfo (s : TraceStorage) (coroutineId : JLong)
    (f : CoroutineInfo → CoroutineInfo) : TraceStorage :=
  { s with coroutineInfoMap := s.coroutineInfoMap.modify coroutineId f }

/-- `addSuspensionInfo`: `none` is the exception of `at` when the coroutine has no info. -/
def addSuspensionInfo (s : TraceStorage) (suspensionInfo : SuspensionInfo) :
    Option TraceStorage :=
  (s.coroutineInfoMap.at? suspensionInfo.coroutineId).map fun _ =>
    s.updateCoroutineInfo suspensionInfo.coroutineId fun info =>
      { info with suspensionsList := info.suspensionsList.pushBack suspensionInfo }

/-- The predicate of `getLastSuspensionInfo`: the suspension is not ended. -/
def nonEndedSuspension (suspensionInfo : SuspensionInfo) : Bool := suspensionInfo.endTime == 0

/-- `getLastSuspensionInfo`: the first suspension that is not ended. -/
def getLastSuspensionInfo (s : TraceStorage) (coroutineId : JLong) : Option SuspensionInfo :=
  if s.coroutineInfoMap.contains coroutineId then
    (s.coroutineInfoMap.at? coroutineId).bind fun info =>
      info.suspensionsList.find nonEndedSuspension
  else none

/-- Set the end of the suspension that `getLastSuspensionInfo` returns. -/
def endLastSuspension (s : TraceStorage) (coroutineId : JLong) (now : TraceTime) : TraceStorage :=
  s.updateCoroutineInfo coroutineId fun info =>
    { info with
      suspensionsList := info.suspensionsList.updateFirst nonEndedSuspension
        fun suspensionInfo => { suspensionInfo with endTime := now } }

/-- `getChildCoroutines`. -/
def getChildCoroutines (s : TraceStorage) (coroutineId : JLong) : Option (ConcurrentList JLong) :=
  s.childCoroutinesMap.at? coroutineId

/-- `addChildCoroutine`. -/
@[simps] def addChildCoroutine (s : TraceStorage) (coroutineId parentCoroutineId : JLong) :
    TraceStorage :=
  { s with childCoroutinesMap :=
      s.childCoroutinesMap.modify parentCoroutineId fun list => list.pushBack coroutineId }

/-- `createChildCoroutineStorage`: an existing list is kept. -/
@[simps] def createChildCoroutineStorage (s : TraceStorage) (coroutineId : JLong) :
    TraceStorage :=
  { s with childCoroutinesMap := (s.childCoroutinesMap.insert coroutineId {}).2 }

/-- `containsChildCoroutineStorage`. -/
def containsChildCoroutineStorage (s : TraceStorage) (coroutineId : JLong) : Bool :=
  s.childCoroutinesMap.contains coroutineId

/-! ## The cleaner -/

/-- `mark_for_clean`. -/
@[simps] def markForClean (s : TraceStorage) : TraceStorage :=
  { s with
    processedMap := s.processedMap.markCurrentValuesForClean
    childCoroutinesMap := s.childCoroutinesMap.markCurrentValuesForClean
    coroutineInfoMap := s.coroutineInfoMap.markCurrentValuesForClean
    gcEvents := s.gcEvents.markForClean }

/-- `clean`: undefined when the GC list has fewer events than were marked. -/
def clean (s : TraceStorage) : Option TraceStorage :=
  s.gcEvents.clean.map fun gcEvents =>
    { s with
      processedMap := s.processedMap.clean
      childCoroutinesMap := s.childCoroutinesMap.clean
      coroutineInfoMap := s.coroutineInfoMap.clean
      gcEvents := gcEvents }

/-! ## GC events -/

/-- `gcStart`: a new event at the back of the list. -/
@[simps] def gcStart (s : TraceStorage) (now : TraceTime) : TraceStorage :=
  { s with
    gcEvents := s.gcEvents.pushBack s.gcHeap.length
    gcHeap := s.gcHeap ++ [⟨now, 0⟩] }

/-- `gcFinish`: take the last event, pop the *first* one, set the end of the event taken and push
it back; undefined when the list is empty. -/
def gcFinish (s : TraceStorage) (now : TraceTime) : Option TraceStorage :=
  s.gcEvents.back.map fun gcEvent =>
    { s with
      gcEvents := s.gcEvents.popFront.2.pushBack gcEvent
      gcHeap := s.gcHeap.modify gcEvent fun event => { event with endTime := now } }

/-- The events of the GC list, read through their addresses. -/
def gcEventList (s : TraceStorage) : List GCEvent :=
  s.gcEvents.list.filterMap fun gcEvent => s.gcHeap[gcEvent]?

/-- `findGcEvents`, the visitor updating the state it captures. -/
def findGcEvents {σ : Type} (s : TraceStorage) (start stop : TraceTime)
    (forEach : σ → GCEvent → σ) (init : σ) : σ :=
  ConcurrentList.forEachFiltered ⟨s.gcEventList, s.gcEvents.cleanUntil⟩
    (fun event => start ≤ event.start ∧ event.endTime ≤ stop) forEach init

/-! ## Lookups after each operation -/

section Lookups

variable (s : TraceStorage) (c c' : JLong)

/-- `getCoroutineInfo` reads the map. -/
lemma getCoroutineInfo_eq : s.getCoroutineInfo c = s.coroutineInfoMap.at? c := by
  rw [getCoroutineInfo]
  split_ifs with h
  · rfl
  · cases hat : s.coroutineInfoMap.at? c with
    | none => rfl
    | some v => exact absurd (ConcurrentCleanableMap.contains_iff.mpr ⟨v, hat⟩) h

/-- `getProcessedTraces` reads the map. -/
lemma getProcessedTraces_eq : s.getProcessedTraces c = s.processedMap.at? c := by
  rw [getProcessedTraces]
  split_ifs with h
  · rfl
  · cases hat : s.processedMap.at? c with
    | none => rfl
    | some v => exact absurd (ConcurrentCleanableMap.contains_iff.mpr ⟨v, hat⟩) h

/-- A coroutine has child storage when the map holds a list for it. -/
lemma containsChildCoroutineStorage_iff :
    s.containsChildCoroutineStorage c = true ↔ ∃ l, s.getChildCoroutines c = some l :=
  ConcurrentCleanableMap.contains_iff

/-- The infos after `createCoroutineInfo`: a new one if there was none. -/
lemma getCoroutineInfo_createCoroutineInfo (now : TraceTime) :
    (s.createCoroutineInfo c now).getCoroutineInfo c' =
      if c' = c ∧ s.getCoroutineInfo c = none then some (newCoroutineInfo now)
      else s.getCoroutineInfo c' := by
  simp only [getCoroutineInfo_eq, createCoroutineInfo_coroutineInfoMap]
  by_cases h : s.coroutineInfoMap.contains c = true
  · rw [if_pos h]
    obtain ⟨v, hv⟩ := ConcurrentCleanableMap.contains_iff.mp h
    simp [hv]
  · rw [if_neg h, ConcurrentCleanableMap.at?_insert]

/-- The infos after a write through the pointer of `c`. -/
lemma getCoroutineInfo_updateCoroutineInfo (f : CoroutineInfo → CoroutineInfo) :
    (s.updateCoroutineInfo c f).getCoroutineInfo c' =
      if c' = c then (s.getCoroutineInfo c).map f else s.getCoroutineInfo c' := by
  simp only [getCoroutineInfo_eq, updateCoroutineInfo_coroutineInfoMap,
    ConcurrentCleanableMap.at?_modify]

/-- The child lists after `addChildCoroutine`. -/
lemma getChildCoroutines_addChildCoroutine (d p : JLong) :
    (s.addChildCoroutine d p).getChildCoroutines c =
      if c = p then (s.getChildCoroutines p).map fun list => list.pushBack d
      else s.getChildCoroutines c := by
  simp only [getChildCoroutines, addChildCoroutine_childCoroutinesMap,
    ConcurrentCleanableMap.at?_modify]

/-- The child lists after `createChildCoroutineStorage`. -/
lemma getChildCoroutines_createChildCoroutineStorage :
    (s.createChildCoroutineStorage c).getChildCoroutines c' =
      if c' = c ∧ s.getChildCoroutines c = none then some {} else s.getChildCoroutines c' := by
  rw [getChildCoroutines, createChildCoroutineStorage_childCoroutinesMap,
    ConcurrentCleanableMap.at?_insert]
  rfl

/-- The samples after `addProcessedTrace`. -/
lemma getProcessedTraces_addProcessedTrace (record : ProcessedTraceRecord) :
    (s.addProcessedTrace c record).getProcessedTraces c' =
      if c' = c then some (((s.getProcessedTraces c).getD {}).pushBack record)
      else s.getProcessedTraces c' := by
  simp only [getProcessedTraces_eq, addProcessedTrace_processedMap]
  by_cases h : s.processedMap.contains c = true
  · obtain ⟨v, hv⟩ := ConcurrentCleanableMap.contains_iff.mp h
    rw [if_pos h, ConcurrentCleanableMap.at?_modify, hv]
    rfl
  · have hnone : s.processedMap.at? c = none := by
      rw [ConcurrentCleanableMap.contains_iff, not_exists] at h
      exact Option.eq_none_iff_forall_ne_some.mpr h
    rw [if_neg h, ConcurrentCleanableMap.at?_insert, hnone]
    simp

end Lookups

end TraceStorage

end KotlinTracer
