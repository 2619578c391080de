import KotlinTracer.Lib.Interleave
import KotlinTracer.Trace.SharedStorage

set_option relaxedAutoImplicit false
set_option autoImplicit false

/-!
# The storage, used by many threads

Most functions of `TraceStorage` ask a map whether it has a key and then read the key, each under
the lock of the map (`trace/traceStorage.cpp`, `concurrentCollections/concurrentMap.h`). Here a
section under a lock is a step, and the sections of any number of calls are interleaved with those
of the cleaner.

## Main definitions

* `KotlinTracer.StorageOp`, `KotlinTracer.StorageSection` — the calls, and the sections of a call.
* `KotlinTracer.StorageSection.access` — what a section does, and the fault it ends in.
* `KotlinTracer.StorageSection.expects` — the key that a section reads without asking for it.
* `KotlinTracer.storageSystem` — the threads that make these calls.

## Main results

* `KotlinTracer.runSections_eq` — a call that no other thread interrupts is the function of the
  storage.
* `KotlinTracer.StorageSection.actsOn_access` — what a section does to each of the maps.
* `KotlinTracer.storageOutline` — the proof outline of the calls: a thread that is going to read a
  key finds it, as long as the cleaner leaves it there.
* `KotlinTracer.storageSections_safe` — the interleavings in which no key holds `nullptr`, no
  `nullptr` is used and no `at` throws.

## Design

A call uses the pointer that it reads in the step that reads it. `createChildCoroutineStorage` is a
call of its own as well, since `traceStart` makes it. `getChildCoroutines`, which reads a key that
nobody asked for, is not among the calls. A fault ends the call of its thread.
-/

namespace KotlinTracer

/-! ## Calls and their sections -/

/-- The calls of the storage, as the profiler and the cleaner make them. -/
inductive StorageOp
  | getCoroutineInfo (coroutineId : JLong)
  /-- `coroutineSuspended` on a thread with a Java stack: `getCoroutineInfo`, and then
  `addSuspensionInfo` if it has found a record. -/
  | coroutineSuspended (coroutineId : JLong) (now : TraceTime) (frames : List StackFrame)
  | addSuspensionInfo (suspensionInfo : SuspensionInfo)
  | getLastSuspensionInfo (coroutineId : JLong)
  | createCoroutineInfo (coroutineId : JLong) (now : TraceTime)
  /-- `coroutineCreated`: `createCoroutineInfo`, and then `addChildCoroutine` and
  `createChildCoroutineStorage` if the parent has a list of children. -/
  | coroutineCreated (coroutineId parentId : JLong) (now : TraceTime)
  | createChildCoroutineStorage (coroutineId : JLong)
  | addProcessedTrace (coroutineId : JLong) (record : ProcessedTraceRecord)
  | getProcessedTraces (coroutineId : JLong)
  | markForClean
  | clean

/-- The next section of a call, with what the call needs for it and for its later sections. -/
inductive StorageSection
  /-- `getCoroutineInfo`, with the suspension that `coroutineSuspended` adds afterwards. -/
  | infoContains (coroutineId : JLong) (suspension : Option (TraceTime × List StackFrame))
  | infoGet (coroutineId : JLong) (suspension : Option (TraceTime × List StackFrame))
  /-- `addSuspensionInfo`. -/
  | suspensionAt (suspensionInfo : SuspensionInfo)
  /-- `getLastSuspensionInfo`. -/
  | lastContains (coroutineId : JLong)
  | lastGet (coroutineId : JLong)
  /-- `createCoroutineInfo`, with the parent for which `coroutineCreated` goes on. -/
  | createContains (coroutineId : JLong) (now : TraceTime) (parentId : Option JLong)
  | createInsert (coroutineId : JLong) (now : TraceTime) (parentId : Option JLong)
  /-- `containsChildCoroutineStorage`, `addChildCoroutine` and `createChildCoroutineStorage`. -/
  | childContains (coroutineId parentId : JLong)
  | childGet (coroutineId parentId : JLong)
  | childInsert (coroutineId : JLong)
  /-- `addProcessedTrace`. -/
  | processedContains (coroutineId : JLong) (record : ProcessedTraceRecord)
  | processedAt (coroutineId : JLong) (record : ProcessedTraceRecord)
  | processedInsert (coroutineId : JLong) (record : ProcessedTraceRecord)
  /-- `getProcessedTraces`. -/
  | tracesContains (coroutineId : JLong)
  | tracesAt (coroutineId : JLong)
  /-- `mark_for_clean` and `clean`, which go through the maps. -/
  | mark (map : CleanedMap)
  | clean (map : CleanedMap)

/-- The first section of a call. -/
def StorageOp.first : StorageOp → StorageSection
  | .getCoroutineInfo c => .infoContains c none
  | .coroutineSuspended c now frames => .infoContains c (some (now, frames))
  | .addSuspensionInfo suspensionInfo => .suspensionAt suspensionInfo
  | .getLastSuspensionInfo c => .lastContains c
  | .createCoroutineInfo c now => .createContains c now none
  | .coroutineCreated c parentId now => .createContains c now (some parentId)
  | .createChildCoroutineStorage c => .childInsert c
  | .addProcessedTrace c record => .processedContains c record
  | .getProcessedTraces c => .tracesContains c
  | .markForClean => .mark .processed
  | .clean => .clean .processed

/-- The order in which the cleaner goes through the maps. -/
def CleanedMap.next : CleanedMap → Option CleanedMap
  | .processed => some .childCoroutines
  | .childCoroutines => some .coroutineInfo
  | .coroutineInfo => none

namespace SharedStorage

/-- `mark_current_values_for_clean` on one of the maps. -/
def markMap (s : SharedStorage) : CleanedMap → SharedStorage
  | .processed => { s with processedMap := s.processedMap.mark }
  | .childCoroutines => { s with childCoroutinesMap := s.childCoroutinesMap.mark }
  | .coroutineInfo => { s with coroutineInfoMap := s.coroutineInfoMap.mark }

/-- `clean` on one of the maps. -/
def cleanMap (s : SharedStorage) : CleanedMap → SharedStorage
  | .processed => { s with processedMap := s.processedMap.clean }
  | .childCoroutines => { s with childCoroutinesMap := s.childCoroutinesMap.clean }
  | .coroutineInfo => { s with coroutineInfoMap := s.coroutineInfoMap.clean }

end SharedStorage

/-- What goes wrong with a key of a map. -/
inductive StorageFault
  /-- The pointer that the key holds is used and is `nullptr`. -/
  | nullPointer (map : CleanedMap) (key : JLong)
  /-- `at` throws, as the map does not have the key. -/
  | outOfRange (map : CleanedMap) (key : JLong)
deriving DecidableEq

/-- A section: the storage after it, the next section of the call, and the faults. -/
def StorageSection.access (s : SharedStorage) :
    StorageSection → SharedStorage × Option StorageSection × List StorageFault
  | .infoContains c suspension =>
    (s, if s.coroutineInfoMap.contains c then some (.infoGet c suspension) else none, [])
  | .infoGet c suspension =>
    let found := s.coroutineInfoMap.get c
    ({ s with coroutineInfoMap := found.2 },
      -- `coroutineSuspended` returns when it gets `nullptr`
      found.1.bind fun _ => suspension.map fun x => .suspensionAt ⟨c, x.1, 0, x.2⟩, [])
  | .suspensionAt suspensionInfo =>
    match s.coroutineInfoMap.at? suspensionInfo.coroutineId with
    | none => (s, none, [.outOfRange .coroutineInfo suspensionInfo.coroutineId])
    | some ptr =>
      match s.coroutineInfoMap.write ptr fun info =>
        { info with suspensionsList := info.suspensionsList.pushBack suspensionInfo } with
      | none => (s, none, [.nullPointer .coroutineInfo suspensionInfo.coroutineId])
      | some coroutineInfoMap => ({ s with coroutineInfoMap := coroutineInfoMap }, none, [])
  | .lastContains c => (s, if s.coroutineInfoMap.contains c then some (.lastGet c) else none, [])
  | .lastGet c =>
    let found := s.coroutineInfoMap.get c
    ({ s with coroutineInfoMap := found.2 }, none,
      if found.1.isNone then [.nullPointer .coroutineInfo c] else [])
  | .createContains c now parentId =>
    (s, if s.coroutineInfoMap.contains c then parentId.map (.childContains c)
      else some (.createInsert c now parentId), [])
  | .createInsert c now parentId =>
    ({ s with coroutineInfoMap :=
        s.coroutineInfoMap.insertShared c (TraceStorage.newCoroutineInfo now) },
      parentId.map (.childContains c), [])
  | .childContains c parentId =>
    (s, if s.childCoroutinesMap.contains parentId then some (.childGet c parentId) else none, [])
  | .childGet c parentId =>
    let found := s.childCoroutinesMap.get parentId
    match found.2.write found.1 fun list => list.pushBack c with
    | none => ({ s with childCoroutinesMap := found.2 }, none,
        [.nullPointer .childCoroutines parentId])
    | some childCoroutinesMap =>
      ({ s with childCoroutinesMap := childCoroutinesMap }, some (.childInsert c), [])
  | .childInsert c =>
    ({ s with childCoroutinesMap := s.childCoroutinesMap.insertShared c {} }, none, [])
  | .processedContains c record =>
    (s, some (if s.processedMap.contains c then .processedAt c record
      else .processedInsert c record), [])
  | .processedAt c record =>
    match s.processedMap.at? c with
    | none => (s, none, [.outOfRange .processed c])
    | some ptr =>
      match s.processedMap.write ptr fun list => list.pushBack record with
      | none => (s, none, [.nullPointer .processed c])
      | some processedMap => ({ s with processedMap := processedMap }, none, [])
  | .processedInsert c record =>
    ({ s with processedMap :=
        s.processedMap.insertShared c (ConcurrentList.pushBack {} record) }, none, [])
  | .tracesContains c => (s, if s.processedMap.contains c then some (.tracesAt c) else none, [])
  | .tracesAt c =>
    (s, none, if (s.processedMap.at? c).isNone then [.outOfRange .processed c] else [])
  | .mark map => (s.markMap map, map.next.map .mark, [])
  | .clean map => (s.cleanMap map, map.next.map .clean, [])

/-- What a thread does: call a function, or make the next section of its call. -/
inductive StorageAction
  | call (op : StorageOp)
  | access

/-- A step of a thread, which is in a call or not. -/
def storageStep (s : SharedStorage) :
    Option StorageSection → StorageAction →
      Option (SharedStorage × Option StorageSection × List StorageFault)
  | none, .call op => some (s, some op.first, [])
  | some next, .access => some (next.access s)
  | none, .access | some _, .call _ => none

/-- The threads that use the storage, from the empty storage. -/
def storageSystem :
    ThreadSystem SharedStorage (Option StorageSection) StorageAction StorageFault where
  init := {}
  start := none
  step := storageStep

/-! ## A call alone -/

/-- Make the sections of a call one after the other, `n` at most: the storage after it. -/
def runSections : ℕ → SharedStorage → StorageSection → Option SharedStorage
  | 0, _, _ => none
  | n + 1, s, next =>
    match next.access s with
    | (s', some next', _) => runSections n s' next'
    | (s', none, _) => some s'

/-- What a call does to the storage, by the functions of the storage; undefined where one of them
is. -/
def StorageOp.apply (s : SharedStorage) : StorageOp → Option SharedStorage
  | .getCoroutineInfo c => some (s.getCoroutineInfo c).2.1
  | .coroutineSuspended c now frames =>
    let found := s.getCoroutineInfo c
    if found.1 = none then some found.2.1
    else found.2.1.addSuspensionInfo ⟨c, now, 0, frames⟩
  | .addSuspensionInfo suspensionInfo => s.addSuspensionInfo suspensionInfo
  | .getLastSuspensionInfo c => (s.getLastSuspensionInfo c).map fun r => r.2.1
  | .createCoroutineInfo c now => some (s.createCoroutineInfo c now).1
  | .coroutineCreated c parentId now =>
    let s := (s.createCoroutineInfo c now).1
    if s.containsChildCoroutineStorage parentId then
      (s.addChildCoroutine c parentId).map fun r => (r.1.createChildCoroutineStorage c).1
    else some s
  | .createChildCoroutineStorage c => some (s.createChildCoroutineStorage c).1
  | .addProcessedTrace c record => (s.addProcessedTrace c record).map Prod.fst
  | .getProcessedTraces _ => some s
  | .markForClean => some { s.markForClean with gcEvents := s.gcEvents }
  | .clean => some s.cleanMaps

section Alone

variable {s s' : SharedStorage}

/-- `addSuspensionInfo` alone. -/
lemma runSections_suspensionAt (n : ℕ) {suspensionInfo : SuspensionInfo}
    (h : s.addSuspensionInfo suspensionInfo = some s') :
    runSections (n + 1) s (.suspensionAt suspensionInfo) = some s' := by
  rw [SharedStorage.addSuspensionInfo] at h
  simp only [runSections, StorageSection.access]
  cases hptr : s.coroutineInfoMap.at? suspensionInfo.coroutineId with
  | none =>
    rw [hptr] at h
    exact h
  | some ptr =>
    rw [hptr] at h
    obtain ⟨coroutineInfoMap, hwrite, rfl⟩ := Option.map_eq_some_iff.mp h
    simp only [hwrite]

/-- The part of `coroutineCreated` that comes after `createCoroutineInfo`, alone. -/
lemma runSections_childContains (n : ℕ) {c parentId : JLong}
    (h : (if s.containsChildCoroutineStorage parentId then
      (s.addChildCoroutine c parentId).map fun r => (r.1.createChildCoroutineStorage c).1
      else some s) = some s') :
    runSections (n + 3) s (.childContains c parentId) = some s' := by
  rw [SharedStorage.containsChildCoroutineStorage] at h
  by_cases hparent : s.childCoroutinesMap.contains parentId
  · rw [if_pos hparent] at h
    obtain ⟨⟨s₁, inserted⟩, hadd, rfl⟩ := Option.map_eq_some_iff.mp h
    obtain ⟨childCoroutinesMap, hwrite, hs₁⟩ := Option.map_eq_some_iff.mp hadd
    cases hs₁
    simp only [runSections, StorageSection.access, if_pos hparent, hwrite]
    rfl
  · rw [if_neg hparent] at h
    simp only [runSections, StorageSection.access, if_neg hparent]
    exact h

/-- **A call that no other thread interrupts** does what the functions of the storage do.

**Proof sketch.** By cases on the call, and on what its sections find in the maps. -/
theorem runSections_eq {op : StorageOp} (h : op.apply s = some s') :
    runSections 5 s op.first = some s' := by
  cases op with
  | getCoroutineInfo c =>
    cases h
    by_cases hc : s.coroutineInfoMap.contains c <;>
      simp [StorageOp.first, runSections, StorageSection.access, SharedStorage.getCoroutineInfo, hc]
  | coroutineSuspended c now frames =>
    simp only [StorageOp.apply, SharedStorage.getCoroutineInfo] at h
    simp only [StorageOp.first, runSections, StorageSection.access]
    by_cases hc : s.coroutineInfoMap.contains c
    · simp only [if_pos hc] at h ⊢
      cases hptr : (s.coroutineInfoMap.get c).1 with
      | none =>
        rw [if_pos hptr] at h
        exact h
      | some address =>
        rw [if_neg (by rw [hptr]; exact Option.some_ne_none _)] at h
        exact runSections_suspensionAt 2 h
    · simp only [if_neg hc] at h ⊢
      exact h
  | addSuspensionInfo suspensionInfo => exact runSections_suspensionAt 4 h
  | getLastSuspensionInfo c =>
    obtain ⟨r, hr, rfl⟩ := Option.map_eq_some_iff.mp h
    rw [SharedStorage.getLastSuspensionInfo] at hr
    simp only [StorageOp.first, runSections, StorageSection.access]
    by_cases hc : s.coroutineInfoMap.contains c
    · rw [if_pos hc] at hr
      obtain ⟨info, -, rfl⟩ := Option.map_eq_some_iff.mp hr
      simp only [if_pos hc]
    · rw [if_neg hc] at hr
      cases hr
      simp only [if_neg hc]
  | createCoroutineInfo c now =>
    cases h
    by_cases hc : s.coroutineInfoMap.contains c <;>
      simp [StorageOp.first, runSections, StorageSection.access, SharedStorage.createCoroutineInfo,
        hc]
  | coroutineCreated c parentId now =>
    simp only [StorageOp.apply, SharedStorage.createCoroutineInfo] at h
    rw [StorageOp.first, runSections]
    by_cases hc : s.coroutineInfoMap.contains c
    · simp only [if_pos hc, StorageSection.access] at h ⊢
      exact runSections_childContains 1 h
    · simp only [if_neg hc, StorageSection.access] at h ⊢
      exact runSections_childContains 0 h
  | createChildCoroutineStorage c =>
    cases h
    rfl
  | addProcessedTrace c record =>
    obtain ⟨r, hr, rfl⟩ := Option.map_eq_some_iff.mp h
    rw [SharedStorage.addProcessedTrace] at hr
    simp only [StorageOp.first, runSections, StorageSection.access]
    by_cases hc : s.processedMap.contains c
    · rw [if_pos hc] at hr
      obtain ⟨ptr, hptr, hr⟩ := Option.bind_eq_some_iff.mp hr
      obtain ⟨processedMap, hwrite, rfl⟩ := Option.map_eq_some_iff.mp hr
      simp only [if_pos hc, hptr, hwrite]
    · rw [if_neg hc] at hr
      cases hr
      simp only [if_neg hc]
  | getProcessedTraces c =>
    cases h
    by_cases hc : s.processedMap.contains c <;>
      simp [StorageOp.first, runSections, StorageSection.access, hc]
  | markForClean =>
    cases h
    rfl
  | clean =>
    cases h
    rfl

end Alone

/-! ## What a section does -/

/-- The key that a section reads without asking whether the map has it. -/
def StorageSection.expects : StorageSection → Option (CleanedMap × JLong)
  | .infoGet c _ | .lastGet c => some (.coroutineInfo, c)
  | .suspensionAt suspensionInfo => some (.coroutineInfo, suspensionInfo.coroutineId)
  | .childGet _ parentId => some (.childCoroutines, parentId)
  | .processedAt c _ | .tracesAt c => some (.processed, c)
  | _ => none

/-- A section erases a key from a map: it is the section of `clean` for the map, and the key is
marked. -/
def StorageSection.erases (s : SharedStorage) (map : CleanedMap) (key : JLong) :
    StorageSection → Bool
  | .clean name => name = map ∧ key ∈ (s.map map).cleanList
  | _ => false

/-- What a section does to one of the maps: nothing, it inserts an object, it reads the key that it
expects by `operator[]`, or it belongs to the cleaner. -/
inductive StorageSection.ActsOn (s : SharedStorage) (x : StorageSection) (name : CleanedMap)
    (m : ConcurrentCleanableMap JLong SharedPtr) : Prop
  | same (h : m = s.map name)
  | insert (k : JLong) (address : ℕ) (h : m = ((s.map name).insert k (some address)).2)
  | get (k : JLong) (hx : x.expects = some (name, k)) (h : m = ((s.map name).get none k).2)
  | mark (h : m = (s.map name).markCurrentValuesForClean)
  | clean (hx : x = .clean name) (h : m = (s.map name).clean)

/-- Writing through a pointer does not change the map. -/
lemma SharedMap.map_write {P : Type} {m m' : SharedMap P} {ptr : SharedPtr} {f : P → P}
    (h : m.write ptr f = some m') : m'.map = m.map := by
  obtain ⟨address, -, rfl⟩ := Option.map_eq_some_iff.mp h
  rfl

namespace StorageSection

section ActsOn

variable {s : SharedStorage} {x : StorageSection}

/-- A section that writes to the map of the processed traces. -/
lemma ActsOn.of_processed {m : SharedMap (ConcurrentList ProcessedTraceRecord)}
    (h : x.ActsOn s .processed m.map) (name : CleanedMap) :
    x.ActsOn s name (SharedStorage.map { s with processedMap := m } name) := by
  cases name with
  | processed => exact h
  | childCoroutines | coroutineInfo => exact .same rfl

/-- A section that writes to the map of the child lists. -/
lemma ActsOn.of_childCoroutines {m : SharedMap (ConcurrentList JLong)}
    (h : x.ActsOn s .childCoroutines m.map) (name : CleanedMap) :
    x.ActsOn s name (SharedStorage.map { s with childCoroutinesMap := m } name) := by
  cases name with
  | childCoroutines => exact h
  | processed | coroutineInfo => exact .same rfl

/-- A section that writes to the map of the coroutines. -/
lemma ActsOn.of_coroutineInfo {m : SharedMap CoroutineInfo}
    (h : x.ActsOn s .coroutineInfo m.map) (name : CleanedMap) :
    x.ActsOn s name (SharedStorage.map { s with coroutineInfoMap := m } name) := by
  cases name with
  | coroutineInfo => exact h
  | processed | childCoroutines => exact .same rfl

end ActsOn

/-- **What a section does to each of the maps.** -/
lemma actsOn_access (s : SharedStorage) (x : StorageSection) (name : CleanedMap) :
    x.ActsOn s name ((x.access s).1.map name) := by
  cases x with
  | infoContains | lastContains | createContains | childContains | processedContains
  | tracesContains | tracesAt => exact .same rfl
  | infoGet c suspension => exact .of_coroutineInfo (.get c rfl rfl) name
  | lastGet c => exact .of_coroutineInfo (.get c rfl rfl) name
  | suspensionAt suspensionInfo =>
    simp only [access]
    split
    · exact .same rfl
    · split
      · exact .same rfl
      · next hwrite => exact .of_coroutineInfo (.same (SharedMap.map_write hwrite)) name
  | createInsert c now parentId => exact .of_coroutineInfo (.insert c _ rfl) name
  | childGet c parentId =>
    simp only [access]
    split
    · exact .of_childCoroutines (.get parentId rfl rfl) name
    · next hwrite =>
      exact .of_childCoroutines (.get parentId rfl (SharedMap.map_write hwrite)) name
  | childInsert c => exact .of_childCoroutines (.insert c _ rfl) name
  | processedAt c record =>
    simp only [access]
    split
    · exact .same rfl
    · split
      · exact .same rfl
      · next hwrite => exact .of_processed (.same (SharedMap.map_write hwrite)) name
  | processedInsert c record => exact .of_processed (.insert c _ rfl) name
  | mark map =>
    cases map with
    | processed => exact .of_processed (.mark rfl) name
    | childCoroutines => exact .of_childCoroutines (.mark rfl) name
    | coroutineInfo => exact .of_coroutineInfo (.mark rfl) name
  | clean map =>
    cases map with
    | processed => exact .of_processed (.clean rfl rfl) name
    | childCoroutines => exact .of_childCoroutines (.clean rfl rfl) name
    | coroutineInfo => exact .of_coroutineInfo (.clean rfl rfl) name

end StorageSection

/-! ## Safe sections -/

/-- No key holds `nullptr`. -/
def ConcurrentCleanableMap.NoNull (m : ConcurrentCleanableMap JLong SharedPtr) : Prop :=
  ∀ k, m.at? k ≠ some none

/-- No key of the cleaned maps holds `nullptr`. -/
def SharedStorage.NoNull (s : SharedStorage) : Prop := ∀ name, (s.map name).NoNull

/-- The key that a section expects is there. -/
def StorageSection.Finds (s : SharedStorage) (x : StorageSection) : Prop :=
  ∀ y ∈ x.expects, (s.map y.1).contains y.2 = true

namespace ConcurrentCleanableMap

variable {m : ConcurrentCleanableMap JLong SharedPtr} {k : JLong}

/-- What a key of a map without `nullptr` holds. -/
lemma NoNull.exists_address (h : m.NoNull) (hk : m.contains k = true) :
    ∃ address, m.at? k = some (some address) := by
  obtain ⟨ptr, hptr⟩ := contains_iff.mp hk
  cases ptr with
  | none => exact absurd hptr (h k)
  | some address => exact ⟨address, hptr⟩

/-- Inserting an object. -/
lemma NoNull.insert (h : m.NoNull) (k : JLong) (address : ℕ) :
    (m.insert k (some address)).2.NoNull := by
  intro k'
  rw [at?_insert]
  split_ifs
  · simp
  · exact h k'

/-- Reading a key that is there by `operator[]`. -/
lemma NoNull.get (h : m.NoNull) (hk : m.contains k = true) : (m.get none k).2.NoNull := by
  intro k'
  obtain ⟨address, haddress⟩ := h.exists_address hk
  rw [at?_get]
  split_ifs
  · rw [haddress, Option.getD_some]
    simp
  · exact h k'

/-- Reading a key that is absent by `operator[]` brings `nullptr` into the map. -/
lemma not_noNull_get (hk : m.contains k = false) : ¬ (m.get none k).2.NoNull := by
  intro hget
  apply hget k
  rw [at?_get, if_pos rfl, contains_eq_false_iff.mp hk, Option.getD_none]

/-- `clean` only erases. -/
lemma NoNull.clean (h : m.NoNull) : m.clean.NoNull := by
  intro k'
  rw [at?_clean]
  split_ifs
  · simp
  · exact h k'

end ConcurrentCleanableMap

/-- Reading a key by `operator[]` in a map without `nullptr`. -/
lemma SharedMap.exists_get {P : Type} {m : SharedMap P} {k : JLong} (h : m.map.NoNull)
    (hk : m.map.contains k = true) : ∃ address, (m.get k).1 = some address := by
  obtain ⟨address, haddress⟩ := h.exists_address hk
  refine ⟨address, ?_⟩
  rw [get, ConcurrentCleanableMap.get_fst, haddress, Option.getD_some]

namespace StorageSection

variable {s : SharedStorage} {x : StorageSection}

/-- A section that finds its key brings no `nullptr` into the maps. -/
lemma noNull_access (h : s.NoNull) (hx : x.Finds s) : (x.access s).1.NoNull := by
  intro name
  cases x.actsOn_access s name with
  | same heq =>
    rw [heq]
    exact h name
  | insert k address heq =>
    rw [heq]
    exact (h name).insert k address
  | get k hexpects heq =>
    rw [heq]
    exact (h name).get (hx (name, k) hexpects)
  | mark heq =>
    rw [heq]
    exact h name
  | clean _ heq =>
    rw [heq]
    exact (h name).clean

/-- A section erases nothing but what it says. -/
lemma contains_access {name : CleanedMap} {k : JLong} (h : (s.map name).contains k = true)
    (hkeeps : ¬ x.erases s name k = true) : ((x.access s).1.map name).contains k = true := by
  rw [ConcurrentCleanableMap.contains_iff] at h ⊢
  obtain ⟨ptr, hptr⟩ := h
  cases x.actsOn_access s name with
  | same heq => exact ⟨ptr, by rw [heq, hptr]⟩
  | insert k' address heq =>
    rw [heq, ConcurrentCleanableMap.at?_insert]
    split_ifs
    · exact ⟨_, rfl⟩
    · exact ⟨ptr, hptr⟩
  | get k' _ heq =>
    rw [heq, ConcurrentCleanableMap.at?_get]
    split_ifs
    · exact ⟨_, rfl⟩
    · exact ⟨ptr, hptr⟩
  | mark heq => exact ⟨ptr, by rw [heq]; exact hptr⟩
  | clean hclean heq =>
    subst hclean
    have hmarked : k ∉ (s.map name).cleanList := by simpa [erases] using hkeeps
    exact ⟨ptr, by rw [heq, ConcurrentCleanableMap.at?_clean, if_neg hmarked, hptr]⟩

/-- A section that finds its key, in maps without `nullptr`, ends in no fault.

**Proof sketch.** Only the sections that expect a key have faults; the key holds an object, so that
`at` does not throw and the pointer can be used. -/
lemma faults_access (h : s.NoNull) (hx : x.Finds s) : (x.access s).2.2 = [] := by
  cases x with
  | infoContains | lastContains | createContains | childContains | processedContains
  | tracesContains | infoGet | createInsert | childInsert | processedInsert | mark | clean => rfl
  | suspensionAt suspensionInfo =>
    obtain ⟨address, haddress⟩ := (h .coroutineInfo).exists_address (hx _ rfl)
    have hat : s.coroutineInfoMap.at? suspensionInfo.coroutineId = some (some address) := haddress
    simp [access, hat, SharedMap.write]
  | lastGet c =>
    obtain ⟨address, hget⟩ := SharedMap.exists_get (h .coroutineInfo) (hx _ rfl)
    simp [access, hget]
  | childGet c parentId =>
    obtain ⟨address, hget⟩ := SharedMap.exists_get (h .childCoroutines) (hx _ rfl)
    simp [access, hget, SharedMap.write]
  | processedAt c record =>
    obtain ⟨address, haddress⟩ := (h .processed).exists_address (hx _ rfl)
    have hat : s.processedMap.at? c = some (some address) := haddress
    simp [access, hat, SharedMap.write]
  | tracesAt c =>
    obtain ⟨address, haddress⟩ := (h .processed).exists_address (hx _ rfl)
    have hat : s.processedMap.at? c = some (some address) := haddress
    simp [access, hat]

/-- **A section that is safe has found its key**: otherwise it brings `nullptr` into the map, or
`at` throws. -/
lemma finds_of_safe (hnull : (x.access s).1.NoNull) (hfaults : (x.access s).2.2 = []) :
    x.Finds s := by
  intro y hy
  by_contra habsent
  rw [Bool.not_eq_true] at habsent
  cases x with
  | infoContains | lastContains | createContains | childContains | processedContains
  | tracesContains | createInsert | childInsert | processedInsert | mark | clean => cases hy
  | infoGet c suspension =>
    cases hy
    exact ConcurrentCleanableMap.not_noNull_get habsent (hnull .coroutineInfo)
  | lastGet c =>
    cases hy
    exact ConcurrentCleanableMap.not_noNull_get habsent (hnull .coroutineInfo)
  | suspensionAt suspensionInfo =>
    cases hy
    have hat : s.coroutineInfoMap.at? suspensionInfo.coroutineId = none :=
      ConcurrentCleanableMap.contains_eq_false_iff.mp habsent
    simp [access, hat] at hfaults
  | childGet c parentId =>
    cases hy
    have hat : s.childCoroutinesMap.map.at? parentId = none :=
      ConcurrentCleanableMap.contains_eq_false_iff.mp habsent
    have hget : (s.childCoroutinesMap.get parentId).1 = none := by
      rw [SharedMap.get, ConcurrentCleanableMap.get_fst, hat, Option.getD_none]
    simp [access, hget, SharedMap.write] at hfaults
  | processedAt c record =>
    cases hy
    have hat : s.processedMap.at? c = none :=
      ConcurrentCleanableMap.contains_eq_false_iff.mp habsent
    simp [access, hat] at hfaults
  | tracesAt c =>
    cases hy
    have hat : s.processedMap.at? c = none :=
      ConcurrentCleanableMap.contains_eq_false_iff.mp habsent
    simp [access, hat] at hfaults

/-- A section that expects no key. -/
lemma finds_of_expects_eq_none (hx : x.expects = none) : x.Finds s := by
  intro y hy
  rw [hx] at hy
  cases hy

/-- A section that expects one key. -/
lemma finds_of_expects_eq_some {name : CleanedMap} {k : JLong} (hx : x.expects = some (name, k))
    (hk : (s.map name).contains k = true) : x.Finds s := by
  intro y hy
  rw [hx] at hy
  cases hy
  exact hk

/-- A section that comes only if the key that it expects is there. -/
lemma finds_of_checked {name : CleanedMap} {k : JLong} {y : StorageSection}
    (hx : x.expects = some (name, k))
    (hy : y ∈ if (s.map name).contains k = true then some x else none) : y.Finds s := by
  rw [Option.mem_def] at hy
  split_ifs at hy with hk
  cases hy
  exact finds_of_expects_eq_some hx hk

/-- **The key that the next section expects is there** when a section is over: the section has asked
for it, or has expected it itself. -/
lemma finds_next (hx : x.Finds s) {y : StorageSection} (hy : y ∈ (x.access s).2.1) :
    y.Finds (x.access s).1 := by
  cases x with
  | infoContains c suspension => exact finds_of_checked (x := .infoGet c suspension) rfl hy
  | infoGet c suspension =>
    simp only [access, Option.mem_def, Option.bind_eq_some_iff, Option.map_eq_some_iff] at hy
    obtain ⟨_, -, z, -, rfl⟩ := hy
    exact finds_of_expects_eq_some rfl
      (contains_access (hx (.coroutineInfo, c) rfl) Bool.false_ne_true)
  | lastContains c => exact finds_of_checked (x := .lastGet c) rfl hy
  | createContains c now parentId =>
    simp only [access, Option.mem_def] at hy
    split_ifs at hy
    · obtain ⟨parent, -, rfl⟩ := Option.map_eq_some_iff.mp hy
      exact finds_of_expects_eq_none rfl
    · cases hy
      exact finds_of_expects_eq_none rfl
  | createInsert c now parentId =>
    obtain ⟨parent, -, rfl⟩ := Option.map_eq_some_iff.mp hy
    exact finds_of_expects_eq_none rfl
  | childContains c parentId => exact finds_of_checked (x := .childGet c parentId) rfl hy
  | childGet c parentId =>
    simp only [access] at hy
    split at hy
    · cases hy
    · cases hy
      exact finds_of_expects_eq_none rfl
  | processedContains c record =>
    simp only [access, Option.mem_def, Option.some.injEq] at hy
    split_ifs at hy with hc
    · subst hy
      exact finds_of_expects_eq_some rfl hc
    · subst hy
      exact finds_of_expects_eq_none rfl
  | tracesContains c => exact finds_of_checked (x := .tracesAt c) rfl hy
  | suspensionAt suspensionInfo =>
    simp only [access] at hy
    split at hy
    · cases hy
    · split at hy <;> cases hy
  | processedAt c record =>
    simp only [access] at hy
    split at hy
    · cases hy
    · split at hy <;> cases hy
  | lastGet | childInsert | processedInsert | tracesAt => cases hy
  | mark map =>
    obtain ⟨next, -, rfl⟩ := Option.map_eq_some_iff.mp hy
    exact finds_of_expects_eq_none rfl
  | clean map =>
    obtain ⟨next, -, rfl⟩ := Option.map_eq_some_iff.mp hy
    exact finds_of_expects_eq_none rfl

end StorageSection

/-! ## Interleavings -/

/-- The storage and the positions of the threads. -/
abbrev StorageConf := ThreadSystem.Conf SharedStorage (Option StorageSection)

/-- A log of the threads that use the storage. -/
abbrev SectionLog := List ((ℕ × StorageAction) × List StorageFault)

/-- Up to this point no `nullptr` was used and no `at` has thrown, and no key holds `nullptr`. -/
structure StorageSafe (l : SectionLog) (c : StorageConf) : Prop where
  noNull : c.shared.NoNull
  noFault : ∀ e ∈ l, e.2 = []

/-- The thread that makes the step finds the key that it expects, if it expects one. -/
def FindsKey (_ : SectionLog) (c : StorageConf) (e : ℕ × StorageAction) : Prop :=
  ∀ x ∈ c.threads e.1, x.Finds c.shared

/-- `addSuspensionInfo`, when it is called directly, is called for a coroutine with a record. -/
def StorageAction.recorded (s : SharedStorage) : StorageAction → Bool
  | .call (.addSuspensionInfo suspensionInfo) =>
    s.coroutineInfoMap.contains suspensionInfo.coroutineId
  | _ => true

/-- A thread at `p` does not erase the key that a thread at `q` expects. -/
def keepsExpected (s : SharedStorage) (p q : Option StorageSection) : Bool :=
  p.all fun x => (q.bind StorageSection.expects).all fun y => !x.erases s y.1 y.2

/-- The step of a thread erases no key that another thread has asked for and is going to read. -/
def LeavesExpected : SectionLog → StorageConf → ℕ × StorageAction → Prop :=
  ThreadSystem.Undisturbed (fun s _ a => a.recorded s = true)
    (fun s p _ q => keepsExpected s p q = true)

section Interleavings

variable {s s' : SharedStorage} {p p' : Option StorageSection} {a : StorageAction}
  {o : List StorageFault} {l : SectionLog} {c c' : StorageConf} {e : ℕ × StorageAction}

/-- A step of a thread is the start of a call or a section of its call. -/
lemma storageStep_eq_some (h : storageStep s p a = some (s', p', o)) :
    (∃ op, p = none ∧ a = .call op ∧ s' = s ∧ p' = some op.first ∧ o = []) ∨
      ∃ x, p = some x ∧ x.access s = (s', p', o) := by
  cases p with
  | none =>
    cases a with
    | call op =>
      cases h
      exact .inl ⟨op, rfl, rfl, rfl, rfl, rfl⟩
    | access => cases h
  | some x =>
    cases a with
    | call op => cases h
    | access => exact .inr ⟨x, rfl, Option.some.inj h⟩

/-- A call starts with a section that expects no key, unless it is `addSuspensionInfo`. -/
lemma StorageOp.finds_first {op : StorageOp}
    (h : StorageAction.recorded s (.call op) = true) : op.first.Finds s := by
  cases op with
  | addSuspensionInfo suspensionInfo => exact StorageSection.finds_of_expects_eq_some rfl h
  | _ => exact StorageSection.finds_of_expects_eq_none rfl

/-- **A step is safe exactly if its thread finds its key.** -/
lemma storageSafe_step (hrun : storageSystem.machine.step c e = some (c', o)) :
    (StorageSafe l c → FindsKey l c e → StorageSafe (l ++ [(e, o)]) c') ∧
      (¬ FindsKey l c e → ¬ StorageSafe (l ++ [(e, o)]) c') := by
  obtain ⟨hstep, -⟩ := ThreadSystem.of_machine_step hrun
  rcases storageStep_eq_some hstep with ⟨op, hidle, -, hs, -, rfl⟩ | ⟨x, hx, haccess⟩
  · refine ⟨fun hsafe _ => ⟨?_, ?_⟩, fun hfinds => absurd ?_ hfinds⟩
    · rw [hs]
      exact hsafe.noNull
    · intro e' he'
      rcases List.mem_append.mp he' with he' | he'
      · exact hsafe.noFault e' he'
      · rw [List.mem_singleton.mp he']
    · intro x hx
      rw [hidle] at hx
      cases hx
  · have hs : c'.shared = (x.access c.shared).1 := by rw [haccess]
    have ho : o = (x.access c.shared).2.2 := by rw [haccess]
    refine ⟨fun hsafe hfinds => ⟨?_, ?_⟩, fun hfinds hsafe => hfinds ?_⟩
    · rw [hs]
      exact StorageSection.noNull_access hsafe.noNull (hfinds x hx)
    · intro e' he'
      rcases List.mem_append.mp he' with he' | he'
      · exact hsafe.noFault e' he'
      · rw [List.mem_singleton.mp he']
        exact ho.trans (StorageSection.faults_access hsafe.noNull (hfinds x hx))
    · intro x' hx'
      obtain rfl := Option.some.inj (hx.symm.trans hx')
      refine StorageSection.finds_of_safe ?_ ?_
      · rw [← hs]
        exact hsafe.noNull
      · rw [← ho]
        exact hsafe.noFault (e, o) (List.mem_append_right _ (List.mem_singleton_self _))

/-- **The proof outline of the calls.** No key holds `nullptr`, and the key that a thread is going
to read is there, as long as the cleaner leaves it there. -/
theorem storageOutline :
    storageSystem.Outline SharedStorage.NoNull (fun s p => ∀ x ∈ p, x.Finds s)
      (fun s _ a => a.recorded s = true) (fun s p _ q => keepsExpected s p q = true)
      (fun _ => False) where
  init := by
    intro name k hk
    cases name <;> cases hk
  start := by
    intro x hx
    cases hx
  own := by
    intro s p a s' p' o hnull hfinds hrecorded hstep
    rcases storageStep_eq_some hstep with ⟨op, -, rfl, rfl, rfl, rfl⟩ | ⟨x, rfl, haccess⟩
    · refine ⟨hnull, ?_, by simp⟩
      intro x hx
      obtain rfl := Option.some.inj hx
      exact StorageOp.finds_first hrecorded
    · have hsafe := StorageSection.noNull_access hnull (hfinds x rfl)
      have hfaults := StorageSection.faults_access hnull (hfinds x rfl)
      have hnext := fun y => StorageSection.finds_next (hfinds x rfl) (y := y)
      rw [haccess] at hsafe hfaults hnext
      obtain rfl : o = [] := hfaults
      exact ⟨hsafe, hnext, by simp⟩
  other := by
    intro s p a s' p' o q _ _ hfinds hkeeps hstep
    rcases storageStep_eq_some hstep with ⟨op, -, -, rfl, -, -⟩ | ⟨x, rfl, haccess⟩
    · exact hfinds
    · intro z hz y hy
      have hs : s' = (x.access s).1 := by rw [haccess]
      rw [hs]
      refine StorageSection.contains_access (hfinds z hz y hy) ?_
      rw [Option.mem_def] at hz hy
      simpa [keepsExpected, hz, hy] using hkeeps

end Interleavings

/-- **The storage under every interleaving.** However the sections of any number of calls are
interleaved with those of the cleaner: no key ever holds `nullptr`, no `nullptr` is used and no `at`
throws if the cleaner never erases a key between the section in which a call asks for it and the
section in which the call reads it. The first part only says section by section what that safety is:
every section that reads a key without asking for it finds the key. -/
theorem storageSections_safe (l : SectionLog) (c : StorageConf)
    (hrun : storageSystem.machine.Run l c) :
    (storageSystem.machine.Throughout storageSystem.machine.init StorageSafe l ↔
      storageSystem.machine.EveryStep FindsKey l) ∧
    (storageSystem.machine.EveryStep LeavesExpected l →
      storageSystem.machine.Throughout storageSystem.machine.init StorageSafe l) := by
  constructor
  · refine LogMachine.throughout_iff_everyStepFrom ⟨storageOutline.init, by simp⟩ ?_ ?_ hrun
    · intro l c e o c' _ hsafe hfinds hstep
      exact (storageSafe_step hstep).1 hsafe hfinds
    · intro l c e o c' _ hfinds hstep
      exact (storageSafe_step hstep).2 hfinds
  · intro hleaves l₁ l₂ c₁ hl hrun₁
    have hholds := storageOutline.throughout hleaves l₁ l₂ c₁ hl hrun₁
    refine ⟨hholds.invariant, fun e he => ?_⟩
    exact List.eq_nil_iff_forall_not_mem.mpr fun x hx => hholds.outputs e he x hx

/-- The cleaner erases a marked coroutine while a thread has asked for one that is not marked. -/
def cleanedBesideRead : List (ℕ × StorageAction) :=
  [(1, .call (.createCoroutineInfo 5 10)), (1, .access), (1, .access),
    (0, .call .markForClean), (0, .access), (0, .access), (0, .access),
    (1, .call (.createCoroutineInfo 6 20)), (1, .access), (1, .access),
    (1, .call (.getLastSuspensionInfo 6)), (1, .access),
    (0, .call .clean), (0, .access), (0, .access), (0, .access), (1, .access)]

/-- `cleanedBesideRead` is safe. -/
theorem storageSections_safe_cleanedBesideRead :
    ∃ l c, storageSystem.machine.Run l c ∧ l.map Prod.fst = cleanedBesideRead ∧
      storageSystem.machine.EveryStep LeavesExpected l ∧
      storageSystem.machine.Throughout storageSystem.machine.init StorageSafe l := by
  have hexec : (storageSystem.machine.exec storageSystem.machine.init cleanedBesideRead).map
      (fun _ => ()) = some () := by decide
  obtain ⟨l, c, hrun, hes, -⟩ := LogMachine.exists_run_of_map_exec hexec
  have hleaves : storageSystem.machine.EveryStep LeavesExpected l := by
    refine ThreadSystem.everyStep_undisturbed_of_check [0, 1] hrun ?_ ?_ ?_
    · rw [hes]
      decide
    · intro s p a
      cases p <;> rfl
    · rw [hes]
      decide
  exact ⟨l, c, hrun, hes, hleaves, (storageSections_safe l c hrun).2 hleaves⟩

/-- Three threads have asked for what the coroutine 5 has, one for each of the maps, and the cleaner
erases it before they read it. -/
def cleanedBeforeRead : List (ℕ × StorageAction) :=
  [(1, .call (.createCoroutineInfo 5 10)), (1, .access), (1, .access),
    (2, .call (.addProcessedTrace 5 ⟨[], "main", 11⟩)), (2, .access), (2, .access),
    (3, .call (.createChildCoroutineStorage 5)), (3, .access),
    (0, .call .markForClean), (0, .access), (0, .access), (0, .access),
    (1, .call (.getLastSuspensionInfo 5)), (1, .access),
    (2, .call (.getProcessedTraces 5)), (2, .access),
    (3, .call (.coroutineCreated 6 5 20)), (3, .access), (3, .access), (3, .access),
    (0, .call .clean), (0, .access), (0, .access), (0, .access),
    (1, .access), (2, .access), (3, .access)]

/-- **The cleaner erases a key between a check and the read**: `getLastSuspensionInfo` and
`addChildCoroutine` bring `nullptr` into the maps and use it, and the `at` of `getProcessedTraces`
throws. -/
theorem storageSections_cleanedBeforeRead :
    ∃ l c, storageSystem.machine.Run l c ∧ l.map Prod.fst = cleanedBeforeRead ∧
      (c.shared.map .coroutineInfo).at? 5 = some none ∧
      (c.shared.map .childCoroutines).at? 5 = some none ∧
      l.flatMap Prod.snd = [.nullPointer .coroutineInfo 5, .outOfRange .processed 5,
        .nullPointer .childCoroutines 5] ∧
      ¬ StorageSafe l c := by
  have hexec : (storageSystem.machine.exec storageSystem.machine.init cleanedBeforeRead).map
      (fun r => ((r.1.shared.map .coroutineInfo).at? 5, (r.1.shared.map .childCoroutines).at? 5,
        r.2.flatMap Prod.snd)) =
      some (some none, some none, [.nullPointer .coroutineInfo 5, .outOfRange .processed 5,
        .nullPointer .childCoroutines 5]) := by
    decide
  obtain ⟨l, c, hrun, hes, hend⟩ := LogMachine.exists_run_of_map_exec hexec
  simp only [Prod.mk.injEq] at hend
  exact ⟨l, c, hrun, hes, hend.1, hend.2.1, hend.2.2,
    fun hsafe => hsafe.noNull .coroutineInfo 5 hend.1⟩

end KotlinTracer
