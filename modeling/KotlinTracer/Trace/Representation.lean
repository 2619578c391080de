import KotlinTracer.Trace.SharedStorage

set_option relaxedAutoImplicit false
set_option autoImplicit false

/-!
# The values behind the pointers

`SharedStorage` has the pointers of the maps, `TraceStorage` the objects they point to. As long as
no `nullptr` is inserted, every call does to the objects what the function of `TraceStorage` does,
so that what is proved about the values holds of the storage with its pointers.

## Main definitions

* `KotlinTracer.SharedMap.Represents` — a map of pointers and the map of the objects behind them.
* `KotlinTracer.SharedStorage.Represents` — the same for the storage.
* `KotlinTracer.TraceStorage.step` — the calls of the storage on the values.

## Main results

* `KotlinTracer.SharedStorage.Represents.getCoroutineInfo`, `getProcessedTraces`,
  `getLastSuspensionInfo`, `getChildCoroutines`, `containsChildCoroutineStorage` — the answers of
  the calls that ask.
* `KotlinTracer.SharedStorage.Represents.step` — every call that does not insert `nullptr` keeps the
  representation.
* `KotlinTracer.represents_of_run` — every run that does not insert `nullptr` is a run of the
  values.

## Design

Only `getChildCoroutines` of a coroutine without child storage inserts `nullptr` and returns; the
other calls look a key up after they found it, or have undefined behaviour.
-/

namespace KotlinTracer

/-! ## Maps -/

namespace SharedMap

variable {P : Type} {m m' : SharedMap P} {v : ConcurrentCleanableMap JLong P} {k : JLong}
  {ptr : SharedPtr}

/-- Each key of `v` holds the object behind the pointer that it holds in `m`. No key holds
`nullptr`, no two keys share an object, and the same keys are marked. -/
structure Represents (m : SharedMap P) (v : ConcurrentCleanableMap JLong P) : Prop where
  object : ∀ k ptr, m.map.at? k = some ptr →
    ∃ address value, ptr = some address ∧ m.heap[address]? = some value ∧ v.at? k = some value
  absent : ∀ k, m.map.at? k = none → v.at? k = none
  injective : ∀ k k' address, m.map.at? k = some (some address) →
    m.map.at? k' = some (some address) → k = k'
  cleanList : ∀ k, k ∈ v.cleanList ↔ k ∈ m.map.cleanList

/-- The empty maps. -/
lemma represents_empty : Represents ({} : SharedMap P) {} where
  object k ptr h := by simp [ConcurrentCleanableMap.at?] at h
  absent k _ := rfl
  injective k k' address h := by simp [ConcurrentCleanableMap.at?] at h
  cleanList k := Iff.rfl

/-- The same keys hold nothing. -/
lemma Represents.at?_eq_none_iff (h : m.Represents v) (k : JLong) :
    v.at? k = none ↔ m.map.at? k = none := by
  refine ⟨fun hv => ?_, h.absent k⟩
  cases hptr : m.map.at? k with
  | none => rfl
  | some ptr =>
    obtain ⟨address, value, -, -, hvalue⟩ := h.object k ptr hptr
    rw [hv] at hvalue
    exact nomatch hvalue

/-- The two maps contain the same keys. -/
lemma Represents.contains (h : m.Represents v) (k : JLong) : v.contains k = m.contains k := by
  rw [Bool.eq_iff_iff, ← not_iff_not, Bool.not_eq_true, Bool.not_eq_true, SharedMap.contains,
    ConcurrentCleanableMap.contains_eq_false_iff, ConcurrentCleanableMap.contains_eq_false_iff]
  exact h.at?_eq_none_iff k

/-- What a key holds is what its pointer points to. -/
lemma Represents.deref_eq (h : m.Represents v) (hptr : m.map.at? k = some ptr) :
    m.deref ptr = v.at? k := by
  obtain ⟨address, value, rfl, hheap, hvalue⟩ := h.object k ptr hptr
  rw [hvalue]
  exact hheap

/-- An address that a key holds is the address of an object. -/
lemma Represents.lt_length (h : m.Represents v) {address : ℕ}
    (hptr : m.map.at? k = some (some address)) : address < m.heap.length := by
  obtain ⟨address', value, heq, hheap, -⟩ := h.object k _ hptr
  obtain rfl := Option.some.inj heq
  exact (List.getElem?_eq_some_iff.mp hheap).1

/-- `insert` of a new object. -/
lemma Represents.insertShared (h : m.Represents v) (key : JLong) (value : P) :
    (m.insertShared key value).Represents (v.insert key value).2 := by
  refine ⟨?_, ?_, ?_, ?_⟩
  · intro k ptr hptr
    rw [insertShared_map, ConcurrentCleanableMap.at?_insert] at hptr
    simp only [insertShared_heap, ConcurrentCleanableMap.at?_insert, h.at?_eq_none_iff]
    split_ifs at hptr ⊢ with hk
    · obtain rfl := Option.some.inj hptr
      exact ⟨m.heap.length, value, rfl, by simp, rfl⟩
    · obtain ⟨address, value', rfl, hheap, hvalue⟩ := h.object k ptr hptr
      refine ⟨address, value', rfl, ?_, hvalue⟩
      rw [List.getElem?_append_left (h.lt_length hptr)]
      exact hheap
  · intro k hk
    rw [insertShared_map, ConcurrentCleanableMap.at?_insert] at hk
    simp only [ConcurrentCleanableMap.at?_insert, h.at?_eq_none_iff]
    split_ifs at hk ⊢
    exact h.absent k hk
  · intro k k' address hk hk'
    rw [insertShared_map, ConcurrentCleanableMap.at?_insert] at hk hk'
    -- the new address is not that of an object that was there
    have hnew : ∀ k, m.map.at? k ≠ some (some m.heap.length) := fun k hold =>
      absurd (h.lt_length hold) (lt_irrefl _)
    split_ifs at hk hk' with h₁ h₂ h₂
    · exact h₁.1.trans h₂.1.symm
    · rw [← hk] at hk'
      exact absurd hk' (hnew k')
    · rw [← hk'] at hk
      exact absurd hk (hnew k)
    · exact h.injective k k' address hk hk'
  · intro k
    rw [ConcurrentCleanableMap.cleanList_insert, insertShared_map,
      ConcurrentCleanableMap.cleanList_insert]
    exact h.cleanList k

/-- Writing through the pointer of a key. -/
lemma Represents.write {f : P → P} (h : m.Represents v) (hptr : m.map.at? k = some ptr)
    (hwrite : m.write ptr f = some m') : m'.Represents (v.modify k f) := by
  obtain ⟨address, rfl, rfl⟩ := Option.map_eq_some_iff.mp hwrite
  refine ⟨?_, ?_, h.injective, ?_⟩
  · intro k' ptr' hptr'
    obtain ⟨address', value, rfl, hheap, hvalue⟩ := h.object k' ptr' hptr'
    rw [ConcurrentCleanableMap.at?_modify]
    by_cases hk : k' = k
    · subst hk
      obtain rfl : address' = address := by
        rw [hptr] at hptr'
        exact (Option.some.inj (Option.some.inj hptr')).symm
      exact ⟨address', f value, rfl, by simp [hheap], by simp [hvalue]⟩
    · have hne : address ≠ address' := by
        rintro rfl
        exact hk (h.injective k' k address hptr' hptr)
      exact ⟨address', value, rfl, by simp [hheap, hne], by simp [hk, hvalue]⟩
  · intro k' hk'
    have hne : k' ≠ k := by
      rintro rfl
      exact Option.some_ne_none _ (hptr.symm.trans hk')
    rw [ConcurrentCleanableMap.at?_modify, if_neg hne]
    exact h.absent k' hk'
  · intro k'
    rw [ConcurrentCleanableMap.cleanList_modify]
    exact h.cleanList k'

/-- `get` of a key that is there. -/
lemma get_of_at? (h : m.map.at? k = some ptr) : m.get k = (ptr, m) := by
  have hlookup : m.map.map.lookup k = some ptr := h
  rw [get, ConcurrentCleanableMap.get, hlookup]

/-- `get` of a key that is not there. -/
lemma insertedByGet_of_at? (h : m.map.at? k = none) : m.insertedByGet k = [(k, none)] := by
  rw [insertedByGet, ConcurrentCleanableMap.contains_eq_false_iff.mpr h]
  rfl

/-- Marking. -/
lemma Represents.mark (h : m.Represents v) :
    m.mark.Represents v.markCurrentValuesForClean := by
  refine ⟨h.object, h.absent, h.injective, fun k => ?_⟩
  rw [mark_map, ConcurrentCleanableMap.mem_cleanList_mark,
    ConcurrentCleanableMap.mem_cleanList_mark, h.cleanList, ← Option.ne_none_iff_exists',
    ← Option.ne_none_iff_exists', Ne, h.at?_eq_none_iff]

/-- Cleaning. -/
lemma Represents.clean (h : m.Represents v) : m.clean.Represents v.clean := by
  have hclean : ∀ k ptr, m.clean.map.at? k = some ptr →
      k ∉ m.map.cleanList ∧ m.map.at? k = some ptr := by
    intro k ptr hptr
    rw [clean_map, ConcurrentCleanableMap.at?_clean] at hptr
    split_ifs at hptr with hk
    exact ⟨hk, hptr⟩
  refine ⟨?_, ?_, ?_, fun k => Iff.rfl⟩
  · intro k ptr hptr
    obtain ⟨hk, hptr⟩ := hclean k ptr hptr
    rw [ConcurrentCleanableMap.at?_clean, if_neg (mt (h.cleanList k).mp hk)]
    exact h.object k ptr hptr
  · intro k hk
    rw [clean_map, ConcurrentCleanableMap.at?_clean] at hk
    simp only [ConcurrentCleanableMap.at?_clean, h.cleanList]
    split_ifs at hk ⊢
    · rfl
    · exact h.absent k hk
  · intro k k' address hk hk'
    exact h.injective k k' address (hclean k _ hk).2 (hclean k' _ hk').2

end SharedMap

/-! ## The storage -/

/-- One call on the values; `none` is undefined behaviour. A call that only asks changes nothing. -/
def TraceStorage.step (v : TraceStorage) : StorageCall → Option TraceStorage
  | .addRawTrace time trace c => some (v.addRawTrace time trace c)
  | .removeRawTraceHeader => some v.removeRawTraceHeader.2
  | .addProcessedTrace c record => some (v.addProcessedTrace c record)
  | .getProcessedTraces _ => some v
  | .addOngoingTraceInfo traceInfo => some (v.addOngoingTraceInfo traceInfo).2
  | .findOngoingTraceInfo c => some (v.findOngoingTraceInfo c).2
  | .removeOngoingTraceInfo c => some (v.removeOngoingTraceInfo c)
  -- when `at` throws, the storage is as it was
  | .addSuspensionInfo suspensionInfo => some ((v.addSuspensionInfo suspensionInfo).getD v)
  | .createCoroutineInfo c now => some (v.createCoroutineInfo c now)
  | .getCoroutineInfo _ => some v
  | .getLastSuspensionInfo _ => some v
  | .getChildCoroutines _ => some v
  | .addChildCoroutine c parent => some (v.addChildCoroutine c parent)
  | .createChildCoroutineStorage c => some (v.createChildCoroutineStorage c)
  | .containsChildCoroutineStorage _ => some v
  | .markForClean => some v.markForClean
  | .clean => v.clean
  | .gcStart now => some (v.gcStart now)
  | .gcFinish now => v.gcFinish now
  | .findGcEvents _ _ => some v
  | .updateCoroutineInfo c info => some (v.updateCoroutineInfo c fun _ => info)

namespace SharedStorage

/-- The storage with pointers has the values of `v` behind them. -/
structure Represents (s : SharedStorage) (v : TraceStorage) : Prop where
  rawList : s.rawList = v.rawList
  processedMap : s.processedMap.Represents v.processedMap
  ongoingTraceInfoMap : s.ongoingTraceInfoMap = v.ongoingTraceInfoMap
  childCoroutinesMap : s.childCoroutinesMap.Represents v.childCoroutinesMap
  coroutineInfoMap : s.coroutineInfoMap.Represents v.coroutineInfoMap
  gcEvents : s.gcEvents = v.gcEvents
  gcHeap : s.gcHeap = v.gcHeap

namespace Represents

variable {s s' : SharedStorage} {v : TraceStorage} {call : StorageCall} {o : List Insertion}

/-- `getCoroutineInfo` changes nothing and returns a pointer to the record. -/
lemma getCoroutineInfo (h : s.Represents v) (c : JLong) :
    (s.getCoroutineInfo c).2 = (s, []) ∧
      s.coroutineInfoMap.deref (s.getCoroutineInfo c).1 = v.getCoroutineInfo c := by
  rw [SharedStorage.getCoroutineInfo, TraceStorage.getCoroutineInfo, h.coroutineInfoMap.contains]
  split_ifs with hcontains
  · obtain ⟨ptr, hptr⟩ := ConcurrentCleanableMap.contains_iff.mp hcontains
    rw [SharedMap.get_of_at? hptr]
    refine ⟨?_, h.coroutineInfoMap.deref_eq hptr⟩
    rw [SharedMap.contains] at hcontains
    rw [SharedMap.insertedByGet, if_pos hcontains]
    rfl
  · exact ⟨rfl, rfl⟩

/-- `getProcessedTraces` returns a pointer to the samples. -/
lemma getProcessedTraces (h : s.Represents v) (c : JLong) :
    (s.getProcessedTraces c).bind s.processedMap.deref = v.getProcessedTraces c := by
  rw [SharedStorage.getProcessedTraces, TraceStorage.getProcessedTraces, h.processedMap.contains]
  split_ifs with hcontains
  · obtain ⟨ptr, hptr⟩ := ConcurrentCleanableMap.contains_iff.mp hcontains
    rw [SharedMap.at?, hptr]
    exact h.processedMap.deref_eq hptr
  · rfl

/-- `addProcessedTrace`. -/
lemma addProcessedTrace (h : s.Represents v) {c : JLong} {record : ProcessedTraceRecord}
    (hstep : s.addProcessedTrace c record = some (s', o)) :
    s'.Represents (v.addProcessedTrace c record) := by
  rw [SharedStorage.addProcessedTrace] at hstep
  split_ifs at hstep with hcontains
  · obtain ⟨list, hlist, hstep⟩ := Option.bind_eq_some_iff.mp hstep
    obtain ⟨m, hwrite, hstep⟩ := Option.map_eq_some_iff.mp hstep
    obtain ⟨rfl, rfl⟩ := Prod.mk.inj hstep
    refine { h with processedMap := ?_ }
    rw [TraceStorage.addProcessedTrace_processedMap, h.processedMap.contains, if_pos hcontains]
    exact h.processedMap.write hlist hwrite
  · obtain ⟨rfl, rfl⟩ := Prod.mk.inj (Option.some.inj hstep)
    refine { h with processedMap := ?_ }
    rw [TraceStorage.addProcessedTrace_processedMap, h.processedMap.contains, if_neg hcontains]
    exact h.processedMap.insertShared c _

/-- `createCoroutineInfo`. -/
lemma createCoroutineInfo (h : s.Represents v) (c : JLong) (now : TraceTime) :
    (s.createCoroutineInfo c now).1.Represents (v.createCoroutineInfo c now) := by
  rw [SharedStorage.createCoroutineInfo]
  split_ifs with hcontains
  · refine { h with coroutineInfoMap := ?_ }
    rw [TraceStorage.createCoroutineInfo_coroutineInfoMap, h.coroutineInfoMap.contains,
      if_pos hcontains]
    exact h.coroutineInfoMap
  · refine { h with coroutineInfoMap := ?_ }
    rw [TraceStorage.createCoroutineInfo_coroutineInfoMap, h.coroutineInfoMap.contains,
      if_neg hcontains]
    exact h.coroutineInfoMap.insertShared c _

/-- `addSuspensionInfo`. -/
lemma addSuspensionInfo (h : s.Represents v) {suspensionInfo : SuspensionInfo}
    (hstep : s.addSuspensionInfo suspensionInfo = some s') :
    s'.Represents ((v.addSuspensionInfo suspensionInfo).getD v) := by
  rw [SharedStorage.addSuspensionInfo] at hstep
  rw [TraceStorage.addSuspensionInfo]
  split at hstep
  · next hnone =>
    rw [h.coroutineInfoMap.absent _ hnone, ← Option.some.inj hstep]
    exact h
  · next ptr hptr =>
    obtain ⟨m, hwrite, rfl⟩ := Option.map_eq_some_iff.mp hstep
    obtain ⟨address, info, -, -, hinfo⟩ := h.coroutineInfoMap.object _ ptr hptr
    rw [hinfo]
    exact { h with coroutineInfoMap := h.coroutineInfoMap.write hptr hwrite }

/-- `getLastSuspensionInfo` changes nothing and answers what is asked of the values. -/
lemma getLastSuspensionInfo (h : s.Represents v) (c : JLong) :
    s.getLastSuspensionInfo c = some (v.getLastSuspensionInfo c, s, []) := by
  rw [SharedStorage.getLastSuspensionInfo, TraceStorage.getLastSuspensionInfo,
    h.coroutineInfoMap.contains]
  split_ifs with hcontains
  · obtain ⟨ptr, hptr⟩ := ConcurrentCleanableMap.contains_iff.mp hcontains
    obtain ⟨address, info, -, -, hinfo⟩ := h.coroutineInfoMap.object c ptr hptr
    rw [SharedMap.contains] at hcontains
    rw [SharedMap.get_of_at? hptr, SharedMap.insertedByGet, if_pos hcontains]
    dsimp only
    rw [h.coroutineInfoMap.deref_eq hptr, hinfo]
    rfl
  · rfl

/-- `getChildCoroutines`, unless it inserts `nullptr`. -/
lemma getChildCoroutines (h : s.Represents v) {c : JLong}
    (hnull : ∀ x ∈ (s.getChildCoroutines c).2.2, x.2.2 ≠ none) :
    (s.getChildCoroutines c).2.1 = s ∧
      s.childCoroutinesMap.deref (s.getChildCoroutines c).1 = v.getChildCoroutines c := by
  cases hptr : s.childCoroutinesMap.map.at? c with
  | none =>
    rw [SharedStorage.getChildCoroutines, SharedMap.insertedByGet_of_at? hptr] at hnull
    exact absurd rfl (hnull (.childCoroutines, c, none) (by simp))
  | some ptr =>
    rw [SharedStorage.getChildCoroutines, SharedMap.get_of_at? hptr]
    exact ⟨rfl, h.childCoroutinesMap.deref_eq hptr⟩

/-- `containsChildCoroutineStorage` answers what is asked of the values. -/
lemma containsChildCoroutineStorage (h : s.Represents v) (c : JLong) :
    s.containsChildCoroutineStorage c = v.containsChildCoroutineStorage c :=
  (h.childCoroutinesMap.contains c).symm

/-- `addChildCoroutine`: undefined when the parent has no list. -/
lemma addChildCoroutine (h : s.Represents v) {c parent : JLong}
    (hstep : s.addChildCoroutine c parent = some (s', o)) :
    s'.Represents (v.addChildCoroutine c parent) := by
  obtain ⟨m, hwrite, hstep⟩ := Option.map_eq_some_iff.mp hstep
  obtain ⟨rfl, rfl⟩ := Prod.mk.inj hstep
  cases hptr : s.childCoroutinesMap.map.at? parent with
  | none =>
    have hget : (s.childCoroutinesMap.get parent).1 = none := by
      rw [SharedMap.get, ConcurrentCleanableMap.get_fst, hptr]
      rfl
    rw [hget] at hwrite
    exact nomatch hwrite
  | some ptr =>
    rw [SharedMap.get_of_at? hptr] at hwrite
    exact { h with childCoroutinesMap := h.childCoroutinesMap.write hptr hwrite }

/-- A callback writes to the record of a coroutine. -/
lemma updateCoroutineInfo (h : s.Represents v) (c : JLong) (info : CoroutineInfo) :
    (s.updateCoroutineInfo c info).1.Represents (v.updateCoroutineInfo c fun _ => info) := by
  rw [SharedStorage.updateCoroutineInfo, (h.getCoroutineInfo c).1]
  dsimp only
  cases hptr : s.coroutineInfoMap.map.at? c with
  | none =>
    have hcontains : s.coroutineInfoMap.contains c = false :=
      ConcurrentCleanableMap.contains_eq_false_iff.mpr hptr
    have hlookup : v.coroutineInfoMap.map.lookup c = none := h.coroutineInfoMap.absent c hptr
    rw [SharedStorage.getCoroutineInfo, hcontains]
    refine { h with coroutineInfoMap := ?_ }
    rw [TraceStorage.updateCoroutineInfo_coroutineInfoMap, ConcurrentCleanableMap.modify, hlookup]
    exact h.coroutineInfoMap
  | some ptr =>
    obtain ⟨address, old, rfl, -, -⟩ := h.coroutineInfoMap.object c ptr hptr
    have hcontains : s.coroutineInfoMap.contains c = true :=
      ConcurrentCleanableMap.contains_iff.mpr ⟨_, hptr⟩
    rw [SharedStorage.getCoroutineInfo, if_pos hcontains, SharedMap.get_of_at? hptr]
    exact { h with coroutineInfoMap := h.coroutineInfoMap.write hptr rfl }

/-- `clean`. -/
lemma clean (h : s.Represents v) (hstep : s.clean = some s') :
    ∃ v', v.clean = some v' ∧ s'.Represents v' := by
  obtain ⟨gcEvents, hclean, rfl⟩ := Option.map_eq_some_iff.mp hstep
  have hvalues : v.gcEvents.clean = some gcEvents := by
    rw [← h.gcEvents]
    exact hclean
  rw [TraceStorage.clean, hvalues]
  refine ⟨_, rfl, ?_⟩
  exact { h with
    processedMap := h.processedMap.clean
    childCoroutinesMap := h.childCoroutinesMap.clean
    coroutineInfoMap := h.coroutineInfoMap.clean
    gcEvents := rfl }

/-- `gcFinish`. -/
lemma gcFinish (h : s.Represents v) {now : TraceTime} (hstep : s.gcFinish now = some s') :
    ∃ v', v.gcFinish now = some v' ∧ s'.Represents v' := by
  obtain ⟨gcEvent, hback, rfl⟩ := Option.map_eq_some_iff.mp hstep
  rw [h.gcEvents] at hback
  rw [TraceStorage.gcFinish, hback]
  refine ⟨_, rfl, ?_⟩
  exact { h with
    gcEvents := by rw [h.gcEvents]
    gcHeap := by rw [h.gcHeap] }

/-- **The calls on the pointers refine the calls on the values**, as long as no `nullptr` is
inserted. -/
theorem step (h : s.Represents v) (hstep : s.step call = some (s', o))
    (hnull : ∀ x ∈ o, x.2.2 ≠ none) : ∃ v', v.step call = some v' ∧ s'.Represents v' := by
  cases call with
  | addProcessedTrace c record => exact ⟨_, rfl, h.addProcessedTrace hstep⟩
  | addSuspensionInfo suspensionInfo =>
    obtain ⟨s₁, hs₁, hstep⟩ := Option.map_eq_some_iff.mp hstep
    obtain ⟨rfl, rfl⟩ := Prod.mk.inj hstep
    exact ⟨_, rfl, h.addSuspensionInfo hs₁⟩
  | createCoroutineInfo c now =>
    have hs' : (s.createCoroutineInfo c now).1 = s' := congrArg Prod.fst (Option.some.inj hstep)
    refine ⟨_, rfl, ?_⟩
    rw [← hs']
    exact h.createCoroutineInfo c now
  | getCoroutineInfo c =>
    rw [SharedStorage.step, (h.getCoroutineInfo c).1] at hstep
    obtain ⟨rfl, rfl⟩ := Prod.mk.inj (Option.some.inj hstep)
    exact ⟨v, rfl, h⟩
  | getLastSuspensionInfo c =>
    rw [SharedStorage.step, h.getLastSuspensionInfo c] at hstep
    obtain ⟨rfl, rfl⟩ := Prod.mk.inj (Option.some.inj hstep)
    exact ⟨v, rfl, h⟩
  | getChildCoroutines c =>
    obtain ⟨rfl, rfl⟩ := Prod.mk.inj (Option.some.inj hstep)
    refine ⟨v, rfl, ?_⟩
    show (s.getChildCoroutines c).2.1.Represents v
    rw [(h.getChildCoroutines hnull).1]
    exact h
  | addChildCoroutine c parent => exact ⟨_, rfl, h.addChildCoroutine hstep⟩
  | createChildCoroutineStorage c =>
    obtain ⟨rfl, rfl⟩ := Prod.mk.inj (Option.some.inj hstep)
    exact ⟨_, rfl, { h with childCoroutinesMap := h.childCoroutinesMap.insertShared c _ }⟩
  | updateCoroutineInfo c info =>
    have hs' : (s.updateCoroutineInfo c info).1 = s' := congrArg Prod.fst (Option.some.inj hstep)
    refine ⟨_, rfl, ?_⟩
    rw [← hs']
    exact h.updateCoroutineInfo c info
  | markForClean =>
    obtain ⟨rfl, rfl⟩ := Prod.mk.inj (Option.some.inj hstep)
    refine ⟨_, rfl, ?_⟩
    exact { h with
      processedMap := h.processedMap.mark
      childCoroutinesMap := h.childCoroutinesMap.mark
      coroutineInfoMap := h.coroutineInfoMap.mark
      gcEvents := congrArg ConcurrentList.markForClean h.gcEvents }
  | clean =>
    obtain ⟨s₁, hs₁, hstep⟩ := Option.map_eq_some_iff.mp hstep
    obtain ⟨rfl, rfl⟩ := Prod.mk.inj hstep
    exact h.clean hs₁
  | gcFinish now =>
    obtain ⟨s₁, hs₁, hstep⟩ := Option.map_eq_some_iff.mp hstep
    obtain ⟨rfl, rfl⟩ := Prod.mk.inj hstep
    exact h.gcFinish hs₁
  | addRawTrace time trace c =>
    obtain ⟨rfl, rfl⟩ := Prod.mk.inj (Option.some.inj hstep)
    exact ⟨_, rfl, { h with rawList := congrArg (ConcurrentList.pushBack · _) h.rawList }⟩
  | removeRawTraceHeader =>
    obtain ⟨rfl, rfl⟩ := Prod.mk.inj (Option.some.inj hstep)
    exact ⟨_, rfl, { h with rawList := congrArg (fun l => l.popFront.2) h.rawList }⟩
  | addOngoingTraceInfo traceInfo =>
    obtain ⟨rfl, rfl⟩ := Prod.mk.inj (Option.some.inj hstep)
    refine ⟨_, rfl, { h with ongoingTraceInfoMap := ?_ }⟩
    rw [SharedStorage.addOngoingTraceInfo, TraceStorage.addOngoingTraceInfo, h.ongoingTraceInfoMap]
  | findOngoingTraceInfo c =>
    obtain ⟨rfl, rfl⟩ := Prod.mk.inj (Option.some.inj hstep)
    refine ⟨_, rfl, { h with ongoingTraceInfoMap := ?_ }⟩
    rw [SharedStorage.findOngoingTraceInfo, TraceStorage.findOngoingTraceInfo,
      h.ongoingTraceInfoMap]
  | removeOngoingTraceInfo c =>
    obtain ⟨rfl, rfl⟩ := Prod.mk.inj (Option.some.inj hstep)
    refine ⟨_, rfl, { h with ongoingTraceInfoMap := ?_ }⟩
    rw [SharedStorage.removeOngoingTraceInfo, TraceStorage.removeOngoingTraceInfo,
      h.ongoingTraceInfoMap]
  | gcStart now =>
    obtain ⟨rfl, rfl⟩ := Prod.mk.inj (Option.some.inj hstep)
    refine ⟨_, rfl, ?_⟩
    exact { h with
      gcEvents := congrArg₂ ConcurrentList.pushBack h.gcEvents (congrArg List.length h.gcHeap)
      gcHeap := congrArg (· ++ _) h.gcHeap }
  | getProcessedTraces | containsChildCoroutineStorage | findGcEvents =>
    obtain ⟨rfl, rfl⟩ := Prod.mk.inj (Option.some.inj hstep)
    exact ⟨v, rfl, h⟩

end Represents

end SharedStorage

/-! ## Runs -/

/-- **Runs on the pointers are runs on the values.** Every run that inserts no `nullptr` ends with
the values that the same calls give on the values.

**Proof sketch.** Induction along the run, with one call at its end
(`SharedStorage.Represents.step`). -/
theorem represents_of_run {l : StorageLog} {s : SharedStorage} (hrun : storageMachine.Run l s)
    (hnull : ∀ x ∈ l, ∀ y ∈ x.2, y.2.2 ≠ none) :
    ∃ v, (l.map Prod.fst).foldlM TraceStorage.step {} = some v ∧ s.Represents v := by
  refine LogMachine.RunFrom.invariant (I := fun l s => (∀ x ∈ l, ∀ y ∈ x.2, y.2.2 ≠ none) →
    ∃ v, (l.map Prod.fst).foldlM TraceStorage.step {} = some v ∧ s.Represents v) ?_ ?_ hrun hnull
  · intro _
    exact ⟨{}, rfl, rfl, SharedMap.represents_empty, rfl, SharedMap.represents_empty,
      SharedMap.represents_empty, rfl, rfl⟩
  · intro l s call o s' _ ih hstep hnull
    rw [List.forall_mem_append, List.forall_mem_singleton] at hnull
    obtain ⟨v, hv, hs⟩ := ih hnull.1
    obtain ⟨v', hv', hs'⟩ := hs.step hstep hnull.2
    refine ⟨v', ?_, hs'⟩
    rw [List.map_append, List.foldlM_append, hv]
    simpa using hv'

end KotlinTracer
