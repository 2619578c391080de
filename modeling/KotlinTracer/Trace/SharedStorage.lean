import KotlinTracer.Lib.Run
import KotlinTracer.Trace.Storage

set_option relaxedAutoImplicit false
set_option autoImplicit false

/-!
# The trace storage with its pointers

`TraceStorage` maps a coroutine to the object its `shared_ptr` points to. Here the maps hold the
pointers, as in `trace/traceStorage.hpp`: a key may hold `nullptr`, `operator[]` inserts `nullptr`
for an absent key, and what is written through a pointer does not change the map.

## Main definitions

* `KotlinTracer.SharedMap` — a map of shared pointers and the objects they point to.
* `KotlinTracer.SharedStorage` — the storage, with one definition for each of its functions but
  `findGcEvents`, which only reads the GC events.
* `KotlinTracer.StorageCall`, `KotlinTracer.SharedStorage.step`, `KotlinTracer.storageMachine` — the
  machine whose steps are the calls of the storage; its log has the entries that a call inserted
  into one of the three maps that are cleaned.

That its calls do to the objects what the functions of `TraceStorage` do is shown in
`KotlinTracer.Trace.Representation`.

## Design

An operation that inserts returns the entries that the map gained, which is what `insert` and
`operator[]` themselves decide. An address is a position in the list of all objects that were made;
an object that no pointer refers to any more stays in the list, where nothing can reach it. Reading
through `nullptr` is undefined, so the step is `none`; when `at` throws, the storage is as it was.
-/

namespace KotlinTracer

/-- A `shared_ptr`: the address of an object, or `nullptr`. -/
abbrev SharedPtr := Option ℕ

/-- An entry of a map of shared pointers. -/
abbrev SharedEntry := JLong × SharedPtr

/-! ## Maps of shared pointers -/

/-- `ConcurrentCleanableMap<jlong, shared_ptr<P>>`, with the objects that were made for it. -/
structure SharedMap (P : Type) where
  map : ConcurrentCleanableMap JLong SharedPtr := {}
  heap : List P := []

namespace SharedMap

variable {P : Type}

/-- `insert` of a key with a pointer to a new object. -/
@[simps] def insertShared (m : SharedMap P) (key : JLong) (object : P) : SharedMap P where
  map := (m.map.insert key (some m.heap.length)).2
  heap := m.heap ++ [object]

/-- The entry that `insertShared` inserts. -/
def insertedShared (m : SharedMap P) (key : JLong) : List SharedEntry :=
  if (m.map.insert key (some m.heap.length)).1 then [(key, some m.heap.length)] else []

/-- `get`, which inserts `nullptr` for an absent key. -/
def get (m : SharedMap P) (key : JLong) : SharedPtr × SharedMap P :=
  ((m.map.get none key).1, { m with map := (m.map.get none key).2 })

/-- The entry that `get` inserts. -/
def insertedByGet (m : SharedMap P) (key : JLong) : List SharedEntry :=
  if m.map.contains key then [] else [(key, none)]

/-- `at`: `none` is the exception for an absent key. -/
def at? (m : SharedMap P) (key : JLong) : Option SharedPtr := m.map.at? key

/-- `contains`. -/
def contains (m : SharedMap P) (key : JLong) : Bool := m.map.contains key

/-- The object behind a pointer. -/
def deref (m : SharedMap P) (ptr : SharedPtr) : Option P := ptr.bind fun address => m.heap[address]?

/-- Write through a pointer; undefined for `nullptr`. -/
def write (m : SharedMap P) (ptr : SharedPtr) (f : P → P) : Option (SharedMap P) :=
  ptr.map fun address => { m with heap := m.heap.modify address f }

/-- `mark_current_values_for_clean`. -/
@[simps] def mark (m : SharedMap P) : SharedMap P :=
  { m with map := m.map.markCurrentValuesForClean }

/-- `clean`. -/
@[simps] def clean (m : SharedMap P) : SharedMap P := { m with map := m.map.clean }

end SharedMap

/-! ## The storage -/

/-- The maps that the cleaner cleans. -/
inductive CleanedMap
  | processed
  | childCoroutines
  | coroutineInfo
deriving DecidableEq

/-- An entry that was inserted into one of the cleaned maps. -/
abbrev Insertion := CleanedMap × SharedEntry

/-- `TraceStorage`, with its pointers. -/
structure SharedStorage where
  rawList : ConcurrentList RawCallTraceRecord := {}
  processedMap : SharedMap (ConcurrentList ProcessedTraceRecord) := {}
  ongoingTraceInfoMap : ConcurrentCleanableMap JLong TraceInfo := {}
  childCoroutinesMap : SharedMap (ConcurrentList JLong) := {}
  coroutineInfoMap : SharedMap CoroutineInfo := {}
  gcEvents : ConcurrentList GCEventPtr := {}
  gcHeap : List GCEvent := []

/-- The calls of the storage. The last one is what a callback does with the pointer that
`getCoroutineInfo` returns: it writes to the fields of the record. -/
inductive StorageCall
  | addRawTrace (time : TraceTime) (trace : AsyncTrace) (coroutineId : JLong)
  | removeRawTraceHeader
  | addProcessedTrace (coroutineId : JLong) (record : ProcessedTraceRecord)
  | getProcessedTraces (coroutineId : JLong)
  | addOngoingTraceInfo (traceInfo : TraceInfo)
  | findOngoingTraceInfo (coroutineId : JLong)
  | removeOngoingTraceInfo (coroutineId : JLong)
  | addSuspensionInfo (suspensionInfo : SuspensionInfo)
  | createCoroutineInfo (coroutineId : JLong) (now : TraceTime)
  | getCoroutineInfo (coroutineId : JLong)
  | getLastSuspensionInfo (coroutineId : JLong)
  | getChildCoroutines (coroutineId : JLong)
  | addChildCoroutine (coroutineId parentCoroutineId : JLong)
  | createChildCoroutineStorage (coroutineId : JLong)
  | containsChildCoroutineStorage (coroutineId : JLong)
  | markForClean
  | clean
  | gcStart (now : TraceTime)
  | gcFinish (now : TraceTime)
  | findGcEvents (start stop : TraceTime)
  | updateCoroutineInfo (coroutineId : JLong) (info : CoroutineInfo)

namespace SharedStorage

/-- One of the cleaned maps. -/
def map (s : SharedStorage) : CleanedMap → ConcurrentCleanableMap JLong SharedPtr
  | .processed => s.processedMap.map
  | .childCoroutines => s.childCoroutinesMap.map
  | .coroutineInfo => s.coroutineInfoMap.map

/-! ### Samples and ongoing traces -/

/-- `addRawTrace`. -/
def addRawTrace (s : SharedStorage) (time : TraceTime) (trace : AsyncTrace) (coroutineId : JLong) :
    SharedStorage :=
  { s with
    rawList := s.rawList.pushBack ⟨time, trace.size, trace, trace.threadId, coroutineId⟩ }

/-- `removeRawTraceHeader`. -/
def removeRawTraceHeader (s : SharedStorage) : Option RawCallTraceRecord × SharedStorage :=
  (s.rawList.popFront.1, { s with rawList := s.rawList.popFront.2 })

/-- `addProcessedTrace`: append to the list of the coroutine, or start one. -/
def addProcessedTrace (s : SharedStorage) (coroutineId : JLong) (record : ProcessedTraceRecord) :
    Option (SharedStorage × List Insertion) :=
  if s.processedMap.contains coroutineId then
    (s.processedMap.at? coroutineId).bind fun list =>
      (s.processedMap.write list fun list => list.pushBack record).map fun processedMap =>
        ({ s with processedMap := processedMap }, [])
  else
    some ({ s with processedMap :=
        s.processedMap.insertShared coroutineId (ConcurrentList.pushBack {} record) },
      (s.processedMap.insertedShared coroutineId).map (.processed, ·))

/-- `getProcessedTraces`. -/
def getProcessedTraces (s : SharedStorage) (coroutineId : JLong) : Option SharedPtr :=
  if s.processedMap.contains coroutineId then s.processedMap.at? coroutineId else some none

/-- `addOngoingTraceInfo`. -/
def addOngoingTraceInfo (s : SharedStorage) (traceInfo : TraceInfo) : Bool × SharedStorage :=
  ((s.ongoingTraceInfoMap.insert traceInfo.coroutineId traceInfo).1,
    { s with ongoingTraceInfoMap :=
        (s.ongoingTraceInfoMap.insert traceInfo.coroutineId traceInfo).2 })

/-- `findOngoingTraceInfo`. -/
def findOngoingTraceInfo (s : SharedStorage) (coroutineId : JLong) : TraceInfo × SharedStorage :=
  ((s.ongoingTraceInfoMap.get {} coroutineId).1,
    { s with ongoingTraceInfoMap := (s.ongoingTraceInfoMap.get {} coroutineId).2 })

/-- `removeOngoingTraceInfo`. -/
def removeOngoingTraceInfo (s : SharedStorage) (coroutineId : JLong) : SharedStorage :=
  { s with ongoingTraceInfoMap := (s.ongoingTraceInfoMap.erase coroutineId).2 }

/-! ### Coroutines -/

/-- `createCoroutineInfo`: only when the coroutine has none. -/
def createCoroutineInfo (s : SharedStorage) (coroutineId : JLong) (now : TraceTime) :
    SharedStorage × List Insertion :=
  if s.coroutineInfoMap.contains coroutineId then (s, [])
  else
    ({ s with coroutineInfoMap :=
        s.coroutineInfoMap.insertShared coroutineId (TraceStorage.newCoroutineInfo now) },
      (s.coroutineInfoMap.insertedShared coroutineId).map (.coroutineInfo, ·))

/-- `getCoroutineInfo`. -/
def getCoroutineInfo (s : SharedStorage) (coroutineId : JLong) :
    SharedPtr × SharedStorage × List Insertion :=
  if s.coroutineInfoMap.contains coroutineId then
    ((s.coroutineInfoMap.get coroutineId).1,
      { s with coroutineInfoMap := (s.coroutineInfoMap.get coroutineId).2 },
      (s.coroutineInfoMap.insertedByGet coroutineId).map (.coroutineInfo, ·))
  else (none, s, [])

/-- What a callback does with the pointer of `getCoroutineInfo`: nothing if it is `nullptr`. -/
def updateCoroutineInfo (s : SharedStorage) (coroutineId : JLong) (info : CoroutineInfo) :
    SharedStorage × List Insertion :=
  let found := s.getCoroutineInfo coroutineId
  match found.2.1.coroutineInfoMap.write found.1 fun _ => info with
  | none => found.2
  | some coroutineInfoMap => ({ found.2.1 with coroutineInfoMap := coroutineInfoMap }, found.2.2)

/-- `addSuspensionInfo`. -/
def addSuspensionInfo (s : SharedStorage) (suspensionInfo : SuspensionInfo) :
    Option SharedStorage :=
  match s.coroutineInfoMap.at? suspensionInfo.coroutineId with
  -- `at` throws
  | none => some s
  | some ptr =>
    (s.coroutineInfoMap.write ptr fun info =>
      { info with suspensionsList := info.suspensionsList.pushBack suspensionInfo }).map
      fun coroutineInfoMap => { s with coroutineInfoMap := coroutineInfoMap }

/-- `getLastSuspensionInfo`: the answer, and the storage; undefined if the record is `nullptr`. -/
def getLastSuspensionInfo (s : SharedStorage) (coroutineId : JLong) :
    Option (Option SuspensionInfo × SharedStorage × List Insertion) :=
  if s.coroutineInfoMap.contains coroutineId then
    let found := s.coroutineInfoMap.get coroutineId
    (found.2.deref found.1).map fun info =>
      (info.suspensionsList.find TraceStorage.nonEndedSuspension,
        { s with coroutineInfoMap := found.2 },
        (s.coroutineInfoMap.insertedByGet coroutineId).map (.coroutineInfo, ·))
  else some (none, s, [])

/-- `getChildCoroutines`. -/
def getChildCoroutines (s : SharedStorage) (coroutineId : JLong) :
    SharedPtr × SharedStorage × List Insertion :=
  ((s.childCoroutinesMap.get coroutineId).1,
    { s with childCoroutinesMap := (s.childCoroutinesMap.get coroutineId).2 },
    (s.childCoroutinesMap.insertedByGet coroutineId).map (.childCoroutines, ·))

/-- `addChildCoroutine`. -/
def addChildCoroutine (s : SharedStorage) (coroutineId parentCoroutineId : JLong) :
    Option (SharedStorage × List Insertion) :=
  let found := s.childCoroutinesMap.get parentCoroutineId
  (found.2.write found.1 fun list => list.pushBack coroutineId).map fun childCoroutinesMap =>
    ({ s with childCoroutinesMap := childCoroutinesMap },
      (s.childCoroutinesMap.insertedByGet parentCoroutineId).map (.childCoroutines, ·))

/-- `createChildCoroutineStorage`. -/
def createChildCoroutineStorage (s : SharedStorage) (coroutineId : JLong) :
    SharedStorage × List Insertion :=
  ({ s with childCoroutinesMap := s.childCoroutinesMap.insertShared coroutineId {} },
    (s.childCoroutinesMap.insertedShared coroutineId).map (.childCoroutines, ·))

/-- `containsChildCoroutineStorage`. -/
def containsChildCoroutineStorage (s : SharedStorage) (coroutineId : JLong) : Bool :=
  s.childCoroutinesMap.contains coroutineId

/-! ### The cleaner and the GC events -/

/-- `mark_for_clean`. -/
def markForClean (s : SharedStorage) : SharedStorage :=
  { s with
    processedMap := s.processedMap.mark
    childCoroutinesMap := s.childCoroutinesMap.mark
    coroutineInfoMap := s.coroutineInfoMap.mark
    gcEvents := s.gcEvents.markForClean }

/-- The part of `clean` that cleans the maps, which comes first. -/
def cleanMaps (s : SharedStorage) : SharedStorage :=
  { s with
    processedMap := s.processedMap.clean
    childCoroutinesMap := s.childCoroutinesMap.clean
    coroutineInfoMap := s.coroutineInfoMap.clean }

/-- `clean`: undefined when the GC list has fewer events than were marked. -/
def clean (s : SharedStorage) : Option SharedStorage :=
  s.cleanMaps.gcEvents.clean.map fun gcEvents => { s.cleanMaps with gcEvents := gcEvents }

/-- `gcStart`. -/
def gcStart (s : SharedStorage) (now : TraceTime) : SharedStorage :=
  { s with
    gcEvents := s.gcEvents.pushBack s.gcHeap.length
    gcHeap := s.gcHeap ++ [⟨now, 0⟩] }

/-- `gcFinish`. -/
def gcFinish (s : SharedStorage) (now : TraceTime) : Option SharedStorage :=
  s.gcEvents.back.map fun gcEvent =>
    { s with
      gcEvents := s.gcEvents.popFront.2.pushBack gcEvent
      gcHeap := s.gcHeap.modify gcEvent fun event => { event with endTime := now } }

/-! ### The machine -/

/-- One call; the outputs are the entries it inserts into the cleaned maps. -/
def step (s : SharedStorage) : StorageCall → Option (SharedStorage × List Insertion)
  | .addRawTrace time trace c => some (s.addRawTrace time trace c, [])
  | .removeRawTraceHeader => some (s.removeRawTraceHeader.2, [])
  | .addProcessedTrace c record => s.addProcessedTrace c record
  | .getProcessedTraces _ => some (s, [])
  | .addOngoingTraceInfo traceInfo => some ((s.addOngoingTraceInfo traceInfo).2, [])
  | .findOngoingTraceInfo c => some ((s.findOngoingTraceInfo c).2, [])
  | .removeOngoingTraceInfo c => some (s.removeOngoingTraceInfo c, [])
  | .addSuspensionInfo suspensionInfo =>
    (s.addSuspensionInfo suspensionInfo).map fun s => (s, [])
  | .createCoroutineInfo c now => some (s.createCoroutineInfo c now)
  | .getCoroutineInfo c => some (s.getCoroutineInfo c).2
  | .getLastSuspensionInfo c => (s.getLastSuspensionInfo c).map Prod.snd
  | .getChildCoroutines c => some (s.getChildCoroutines c).2
  | .addChildCoroutine c parent => s.addChildCoroutine c parent
  | .createChildCoroutineStorage c => some (s.createChildCoroutineStorage c)
  | .containsChildCoroutineStorage _ => some (s, [])
  | .markForClean => some (s.markForClean, [])
  | .clean => s.clean.map fun s => (s, [])
  | .gcStart now => some (s.gcStart now, [])
  | .gcFinish now => (s.gcFinish now).map fun s => (s, [])
  | .findGcEvents _ _ => some (s, [])
  | .updateCoroutineInfo c info => some (s.updateCoroutineInfo c info)

end SharedStorage

/-- The machine of the storage, from the empty storage. -/
def storageMachine : LogMachine SharedStorage StorageCall Insertion where
  init := {}
  step := SharedStorage.step

/-- A log of calls, each with the entries it inserted. -/
abbrev StorageLog := List (StorageCall × List Insertion)

end KotlinTracer
