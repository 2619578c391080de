import KotlinTracer.Trace.SharedStorage

set_option relaxedAutoImplicit false
set_option autoImplicit false

/-!
# What the cleaner leaves

`mark_for_clean` appends the keys of a map to a vector, and `clean` erases the keys of the vector,
so several marks may come before a `clean`. Nothing but `clean` erases from the cleaned maps, and
neither `insert` nor `operator[]` replaces an entry; so a marked key still denotes the marked entry
when it is erased, and what is left are the entries that were inserted after the latest mark.

## Main definitions

* `KotlinTracer.ConcurrentCleanableMap.Grows` — a map gains entries for absent keys.
* `KotlinTracer.ConcurrentCleanableMap.MarksAgree` — the entries that are not marked are those of a
  given relation.
* `KotlinTracer.CleanedExactly` — the maps have the entries that a `clean` has to leave.

## Main results

* `KotlinTracer.SharedStorage.grows_of_step` — a call of the storage other than `mark_for_clean` and
  `clean` only adds the entries it reports to the cleaned maps.
* `KotlinTracer.clean_exact` — what a `clean` leaves, with and without a mark since the latest one.
-/

namespace KotlinTracer

/-! ## Marks of a map -/

namespace ConcurrentCleanableMap

variable {K V : Type*} [DecidableEq K] {m m' : ConcurrentCleanableMap K V}
  {new since : K → V → Prop}

/-- The map `m'` has the entries of `m` and the new ones, whose keys `m` does not have. -/
structure Grows (m m' : ConcurrentCleanableMap K V) (new : K → V → Prop) : Prop where
  cleanList : m'.cleanList = m.cleanList
  at? : ∀ k v, m'.at? k = some v ↔ m.at? k = some v ∨ new k v
  absent : ∀ k v, new k v → m.at? k = none

/-- A map that gains nothing. -/
lemma Grows.refl (h : ∀ k v, ¬ new k v) : Grows m m new where
  cleanList := rfl
  at? k v := by simp [h k v]
  absent k v hnew := absurd hnew (h k v)

/-- `insert` adds its entry if the key is absent. -/
lemma grows_insert (m : ConcurrentCleanableMap K V) (k : K) (v : V) :
    Grows m (m.insert k v).2 fun k' v' => (m.insert k v).1 = true ∧ k' = k ∧ v' = v where
  cleanList := cleanList_insert m k v
  at? k' v' := by
    rw [at?_insert, insert_fst]
    by_cases hk : k' = k ∧ m.at? k = none
    · obtain ⟨rfl, hnone⟩ := hk
      simp [hnone, eq_comm]
    · rw [if_neg hk]
      constructor
      · exact .inl
      · rintro (h | ⟨hnone, rfl, -⟩)
        · exact h
        · exact absurd ⟨rfl, hnone⟩ hk
  absent k' v' := by
    rintro ⟨hfst, rfl, -⟩
    exact insert_fst.mp hfst

/-- `get` adds the default if the key is absent. -/
lemma grows_get (m : ConcurrentCleanableMap K V) (d : V) (k : K) :
    Grows m (m.get d k).2 fun k' v' => m.contains k = false ∧ k' = k ∧ v' = d where
  cleanList := cleanList_get m d k
  at? k' v' := by
    rw [at?_get, contains_eq_false_iff]
    by_cases hk : k' = k
    · subst hk
      cases hv : m.at? k' <;> simp [eq_comm]
    · simp [hk]
  absent k' v' := by
    rintro ⟨hcontains, rfl, -⟩
    exact contains_eq_false_iff.mp hcontains

/-- The marked keys hold a value, and the entries whose key is not marked are those of `since`. -/
structure MarksAgree (m : ConcurrentCleanableMap K V) (since : K → V → Prop) : Prop where
  marked : ∀ k ∈ m.cleanList, m.at? k ≠ none
  unmarked : ∀ k v, since k v ↔ m.at? k = some v ∧ k ∉ m.cleanList

/-- New entries are not marked. -/
lemma MarksAgree.grow (h : MarksAgree m since) (hgrow : Grows m m' new) :
    MarksAgree m' fun k v => since k v ∨ new k v := by
  refine ⟨?_, ?_⟩
  · intro k hk
    rw [hgrow.cleanList] at hk
    obtain ⟨v, hv⟩ := Option.ne_none_iff_exists'.mp (h.marked k hk)
    rw [(hgrow.at? k v).mpr (.inl hv)]
    exact Option.some_ne_none v
  · intro k v
    rw [hgrow.cleanList, hgrow.at?, h.unmarked]
    constructor
    · rintro (⟨hv, hk⟩ | hnew)
      · exact ⟨.inl hv, hk⟩
      · exact ⟨.inr hnew, fun hk => h.marked k hk (hgrow.absent k v hnew)⟩
    · rintro ⟨hv | hnew, hk⟩
      · exact .inl ⟨hv, hk⟩
      · exact .inr hnew

/-- Right after a mark all entries are marked. -/
lemma MarksAgree.mark (h : MarksAgree m since) :
    MarksAgree m.markCurrentValuesForClean fun _ _ => False := by
  refine ⟨?_, ?_⟩
  · intro k hk
    rcases (mem_cleanList_mark m k).mp hk with hk | ⟨v, hv⟩
    · exact h.marked k hk
    · show m.at? k ≠ none
      rw [hv]
      exact Option.some_ne_none v
  · intro k v
    refine ⟨False.elim, ?_⟩
    rintro ⟨hv, hk⟩
    exact hk ((mem_cleanList_mark m k).mpr (.inr ⟨v, hv⟩))

/-- `clean` leaves the entries that are not marked. -/
lemma MarksAgree.at?_clean_iff (h : MarksAgree m since) (k : K) (v : V) :
    m.clean.at? k = some v ↔ since k v := by
  rw [at?_clean, h.unmarked]
  split_ifs with hk <;> simp [hk]

/-- Right after a `clean` nothing is marked. -/
lemma marksAgree_clean (m : ConcurrentCleanableMap K V) :
    MarksAgree m.clean fun k v => m.clean.at? k = some v where
  marked k hk := by simp at hk
  unmarked k v := by simp

/-- A `clean` without marks removes nothing. -/
lemma at?_clean_of_cleanList (h : m.cleanList = []) (k : K) : m.clean.at? k = m.at? k := by
  rw [at?_clean, h, if_neg List.not_mem_nil]

end ConcurrentCleanableMap

/-! ## The calls of the storage -/

namespace SharedMap

variable {P : Type}

/-- `insertShared` adds the entry it reports. -/
lemma grows_insertShared (m : SharedMap P) (key : JLong) (object : P) :
    m.map.Grows (m.insertShared key object).map fun k v => (k, v) ∈ m.insertedShared key := by
  have hgrows := ConcurrentCleanableMap.grows_insert m.map key (some m.heap.length)
  have hentry : (fun k v => (k, v) ∈ m.insertedShared key) = fun k v =>
      (m.map.insert key (some m.heap.length)).1 = true ∧ k = key ∧ v = some m.heap.length := by
    funext k v
    rw [insertedShared]
    split_ifs with h <;> simp [h]
  rw [hentry]
  exact hgrows

/-- `get` adds the entry it reports. -/
lemma grows_get (m : SharedMap P) (key : JLong) :
    m.map.Grows (m.get key).2.map fun k v => (k, v) ∈ m.insertedByGet key := by
  have hgrows := ConcurrentCleanableMap.grows_get m.map none key
  have hentry : (fun k v => (k, v) ∈ m.insertedByGet key) = fun k v =>
      m.map.contains key = false ∧ k = key ∧ v = none := by
    funext k v
    rw [insertedByGet]
    split_ifs with h <;> simp [h]
  rw [hentry]
  exact hgrows

/-- Writing through a pointer does not change the map. -/
lemma map_of_write {m m' : SharedMap P} {ptr : SharedPtr} {f : P → P}
    (h : m.write ptr f = some m') : m'.map = m.map := by
  obtain ⟨address, -, rfl⟩ := Option.map_eq_some_iff.mp h
  rfl

end SharedMap

namespace SharedStorage

variable {s s' : SharedStorage} {call : StorageCall} {o : List Insertion}

/-- A call that leaves the cleaned maps alone. -/
lemma grows_of_map_eq (h : ∀ name, s'.map name = s.map name) (name : CleanedMap) :
    (s.map name).Grows (s'.map name) fun k v => (name, k, v) ∈ ([] : List Insertion) := by
  rw [h name]
  exact .refl fun k v hmem => nomatch hmem

/-- A call that adds entries to one of the cleaned maps. -/
lemma grows_of_entries {which : CleanedMap} {entries : List SharedEntry}
    (hwhich : (s.map which).Grows (s'.map which) fun k v => (k, v) ∈ entries)
    (hother : ∀ name, name ≠ which → s'.map name = s.map name) (name : CleanedMap) :
    (s.map name).Grows (s'.map name) fun k v => (name, k, v) ∈ entries.map (which, ·) := by
  by_cases hname : name = which
  · subst hname
    have hentry : (fun k v => (name, k, v) ∈ entries.map (name, ·)) = fun k v =>
        (k, v) ∈ entries := by
      funext k v
      simp
    rw [hentry]
    exact hwhich
  · rw [hother name hname]
    refine .refl fun k v hmem => ?_
    obtain ⟨entry, -, hentry⟩ := List.mem_map.mp hmem
    exact hname (congrArg Prod.fst hentry).symm

/-- A call that adds entries to the samples. -/
lemma grows_of_processedMap {m : SharedMap (ConcurrentList ProcessedTraceRecord)}
    {entries : List SharedEntry}
    (h : s.processedMap.map.Grows m.map fun k v => (k, v) ∈ entries) (name : CleanedMap) :
    (s.map name).Grows ({ s with processedMap := m }.map name) fun k v =>
      (name, k, v) ∈ entries.map (.processed, ·) := by
  refine @grows_of_entries s { s with processedMap := m } .processed entries h ?_ name
  intro name hname
  cases name with
  | processed => exact absurd rfl hname
  | _ => rfl

/-- A call that adds entries to the children. -/
lemma grows_of_childCoroutinesMap {m : SharedMap (ConcurrentList JLong)}
    {entries : List SharedEntry}
    (h : s.childCoroutinesMap.map.Grows m.map fun k v => (k, v) ∈ entries) (name : CleanedMap) :
    (s.map name).Grows ({ s with childCoroutinesMap := m }.map name) fun k v =>
      (name, k, v) ∈ entries.map (.childCoroutines, ·) := by
  refine @grows_of_entries s { s with childCoroutinesMap := m } .childCoroutines entries h ?_ name
  intro name hname
  cases name with
  | childCoroutines => exact absurd rfl hname
  | _ => rfl

/-- A call that adds entries to the records of the coroutines. -/
lemma grows_of_coroutineInfoMap {m : SharedMap CoroutineInfo} {entries : List SharedEntry}
    (h : s.coroutineInfoMap.map.Grows m.map fun k v => (k, v) ∈ entries) (name : CleanedMap) :
    (s.map name).Grows ({ s with coroutineInfoMap := m }.map name) fun k v =>
      (name, k, v) ∈ entries.map (.coroutineInfo, ·) := by
  refine @grows_of_entries s { s with coroutineInfoMap := m } .coroutineInfo entries h ?_ name
  intro name hname
  cases name with
  | coroutineInfo => exact absurd rfl hname
  | _ => rfl

/-- `getCoroutineInfo` adds the entries it reports. -/
lemma grows_getCoroutineInfo (s : SharedStorage) (c : JLong) (name : CleanedMap) :
    (s.map name).Grows ((s.getCoroutineInfo c).2.1.map name) fun k v =>
      (name, k, v) ∈ (s.getCoroutineInfo c).2.2 := by
  rw [getCoroutineInfo]
  split_ifs
  · exact grows_of_coroutineInfoMap (s.coroutineInfoMap.grows_get c) name
  · exact grows_of_map_eq (fun _ => rfl) name

/-- The cleaned maps after a write to the record of a coroutine. -/
lemma map_of_write {m : SharedMap CoroutineInfo} {ptr : SharedPtr}
    {f : CoroutineInfo → CoroutineInfo}
    (h : s.coroutineInfoMap.write ptr f = some m) (name : CleanedMap) :
    { s with coroutineInfoMap := m }.map name = s.map name := by
  cases name with
  | coroutineInfo => exact SharedMap.map_of_write h
  | _ => rfl

/-- `addProcessedTrace` adds the entry it reports. -/
lemma grows_addProcessedTrace {c : JLong} {record : ProcessedTraceRecord}
    (h : s.addProcessedTrace c record = some (s', o)) (name : CleanedMap) :
    (s.map name).Grows (s'.map name) fun k v => (name, k, v) ∈ o := by
  rw [addProcessedTrace] at h
  split_ifs at h
  · obtain ⟨list, -, h⟩ := Option.bind_eq_some_iff.mp h
    obtain ⟨m, hwrite, h⟩ := Option.map_eq_some_iff.mp h
    obtain ⟨rfl, rfl⟩ := Prod.mk.inj h
    refine grows_of_map_eq (fun name => ?_) name
    cases name with
    | processed => exact SharedMap.map_of_write hwrite
    | _ => rfl
  · obtain ⟨rfl, rfl⟩ := Prod.mk.inj (Option.some.inj h)
    exact grows_of_processedMap (s.processedMap.grows_insertShared c _) name

/-- `createCoroutineInfo` adds the entry it reports. -/
lemma grows_createCoroutineInfo (s : SharedStorage) (c : JLong) (now : TraceTime)
    (name : CleanedMap) :
    (s.map name).Grows ((s.createCoroutineInfo c now).1.map name) fun k v =>
      (name, k, v) ∈ (s.createCoroutineInfo c now).2 := by
  rw [createCoroutineInfo]
  split_ifs
  · exact grows_of_map_eq (fun _ => rfl) name
  · exact grows_of_coroutineInfoMap (s.coroutineInfoMap.grows_insertShared c _) name

/-- `getLastSuspensionInfo` adds the entry it reports. -/
lemma grows_getLastSuspensionInfo {c : JLong} {answer : Option SuspensionInfo}
    (h : s.getLastSuspensionInfo c = some (answer, s', o)) (name : CleanedMap) :
    (s.map name).Grows (s'.map name) fun k v => (name, k, v) ∈ o := by
  rw [getLastSuspensionInfo] at h
  split_ifs at h
  · obtain ⟨info, -, h⟩ := Option.map_eq_some_iff.mp h
    obtain ⟨-, rfl, rfl⟩ := by simpa using h
    exact grows_of_coroutineInfoMap (s.coroutineInfoMap.grows_get c) name
  · obtain ⟨-, rfl, rfl⟩ := by simpa using h
    exact grows_of_map_eq (fun _ => rfl) name

/-- `addChildCoroutine` adds the entry it reports. -/
lemma grows_addChildCoroutine {c parent : JLong}
    (h : s.addChildCoroutine c parent = some (s', o)) (name : CleanedMap) :
    (s.map name).Grows (s'.map name) fun k v => (name, k, v) ∈ o := by
  obtain ⟨m, hwrite, h⟩ := Option.map_eq_some_iff.mp h
  obtain ⟨rfl, rfl⟩ := Prod.mk.inj h
  have hgrows := s.childCoroutinesMap.grows_get parent
  rw [← SharedMap.map_of_write hwrite] at hgrows
  exact grows_of_childCoroutinesMap hgrows name

/-- `addSuspensionInfo` leaves the maps alone: it writes through a pointer. -/
lemma map_of_addSuspensionInfo {suspensionInfo : SuspensionInfo}
    (h : s.addSuspensionInfo suspensionInfo = some s') (name : CleanedMap) :
    s'.map name = s.map name := by
  rw [addSuspensionInfo] at h
  split at h
  · rw [← Option.some.inj h]
  · obtain ⟨m, hwrite, rfl⟩ := Option.map_eq_some_iff.mp h
    exact map_of_write hwrite name

/-- A callback that writes to a record adds what `getCoroutineInfo` does. -/
lemma grows_updateCoroutineInfo (s : SharedStorage) (c : JLong) (info : CoroutineInfo)
    (name : CleanedMap) :
    (s.map name).Grows ((s.updateCoroutineInfo c info).1.map name) fun k v =>
      (name, k, v) ∈ (s.updateCoroutineInfo c info).2 := by
  have hgrows := s.grows_getCoroutineInfo c name
  rw [updateCoroutineInfo]
  dsimp only
  split
  · exact hgrows
  · next m hwrite =>
    rw [map_of_write hwrite]
    exact hgrows

/-- **What a call does to the cleaned maps**: unless it marks or cleans, it adds the entries it
reports. -/
lemma grows_of_step (h : s.step call = some (s', o)) (hmark : call ≠ .markForClean)
    (hclean : call ≠ .clean) (name : CleanedMap) :
    (s.map name).Grows (s'.map name) fun k v => (name, k, v) ∈ o := by
  cases call with
  | addProcessedTrace c record => exact grows_addProcessedTrace h name
  | createCoroutineInfo c now =>
    obtain ⟨rfl, rfl⟩ := Prod.mk.inj (Option.some.inj h)
    exact s.grows_createCoroutineInfo c now name
  | getCoroutineInfo c =>
    obtain ⟨rfl, rfl⟩ := Prod.mk.inj (Option.some.inj h)
    exact s.grows_getCoroutineInfo c name
  | getLastSuspensionInfo c =>
    obtain ⟨⟨answer, s₁, o₁⟩, hfound, h⟩ := Option.map_eq_some_iff.mp h
    obtain ⟨rfl, rfl⟩ := Prod.mk.inj h
    exact grows_getLastSuspensionInfo hfound name
  | getChildCoroutines c =>
    obtain ⟨rfl, rfl⟩ := Prod.mk.inj (Option.some.inj h)
    exact grows_of_childCoroutinesMap (s.childCoroutinesMap.grows_get c) name
  | addChildCoroutine c parent => exact grows_addChildCoroutine h name
  | createChildCoroutineStorage c =>
    obtain ⟨rfl, rfl⟩ := Prod.mk.inj (Option.some.inj h)
    exact grows_of_childCoroutinesMap (s.childCoroutinesMap.grows_insertShared c _) name
  | addSuspensionInfo suspensionInfo =>
    obtain ⟨s₁, hs₁, h⟩ := Option.map_eq_some_iff.mp h
    obtain ⟨rfl, rfl⟩ := Prod.mk.inj h
    exact grows_of_map_eq (map_of_addSuspensionInfo hs₁) name
  | updateCoroutineInfo c info =>
    obtain ⟨rfl, rfl⟩ := Prod.mk.inj (Option.some.inj h)
    exact s.grows_updateCoroutineInfo c info name
  | gcFinish now =>
    obtain ⟨s₁, hs₁, h⟩ := Option.map_eq_some_iff.mp h
    obtain ⟨rfl, rfl⟩ := Prod.mk.inj h
    obtain ⟨gcEvent, -, rfl⟩ := Option.map_eq_some_iff.mp hs₁
    exact grows_of_map_eq (fun name => by cases name <;> rfl) name
  | markForClean => exact absurd rfl hmark
  | clean => exact absurd rfl hclean
  | _ =>
    -- calls that do not touch the cleaned maps
    obtain ⟨rfl, rfl⟩ := Prod.mk.inj (Option.some.inj h)
    exact grows_of_map_eq (fun name => by cases name <;> rfl) name

/-- `mark_for_clean` marks each of the maps. -/
lemma map_markForClean (s : SharedStorage) (name : CleanedMap) :
    s.markForClean.map name = (s.map name).markCurrentValuesForClean := by
  cases name <;> rfl

/-- `clean` cleans each of the maps. -/
lemma map_cleanMaps (s : SharedStorage) (name : CleanedMap) :
    s.cleanMaps.map name = (s.map name).clean := by
  cases name <;> rfl

/-- What a step of `mark_for_clean` does. -/
lemma eq_of_step_markForClean (h : s.step .markForClean = some (s', o)) :
    s' = s.markForClean := by
  rw [step, Option.some.injEq] at h
  exact (Prod.mk.inj h).1.symm

/-- What a step of `clean` does: after the maps it cleans the list of GC events. -/
lemma eq_of_step_clean (h : s.step .clean = some (s', o)) :
    ∃ gcEvents, s' = { s.cleanMaps with gcEvents := gcEvents } := by
  obtain ⟨s₁, hs₁, h⟩ := Option.map_eq_some_iff.mp h
  obtain ⟨gcEvents, -, rfl⟩ := Option.map_eq_some_iff.mp hs₁
  exact ⟨gcEvents, (Prod.mk.inj h).1.symm⟩

/-- The maps after a step of `clean`. -/
lemma map_of_step_clean (h : s.step .clean = some (s', o)) (name : CleanedMap) :
    s'.map name = (s.map name).clean := by
  obtain ⟨gcEvents, rfl⟩ := eq_of_step_clean h
  rw [← map_cleanMaps]
  cases name <;> rfl

end SharedStorage

/-! ## Runs -/

section Runs

variable {l : StorageLog} {s s' : SharedStorage} {call : StorageCall} {o : List Insertion}

/-- **What one step does to the marks.** After every call the marked keys still hold a value. -/
lemma marksAgree_step (hstep : s.step call = some (s', o))
    (h : ∀ name, ∃ since, (s.map name).MarksAgree since) (name : CleanedMap) :
    ∃ since, (s'.map name).MarksAgree since := by
  obtain ⟨since, hsince⟩ := h name
  by_cases hmark : call = .markForClean
  · subst hmark
    rw [SharedStorage.eq_of_step_markForClean hstep, SharedStorage.map_markForClean]
    exact ⟨_, hsince.mark⟩
  by_cases hclean : call = .clean
  · subst hclean
    rw [SharedStorage.map_of_step_clean hstep]
    exact ⟨_, ConcurrentCleanableMap.marksAgree_clean _⟩
  exact ⟨_, hsince.grow (SharedStorage.grows_of_step hstep hmark hclean name)⟩

/-- Along every run the marked keys hold a value. -/
lemma marksAgree_of_run (hrun : storageMachine.Run l s) (name : CleanedMap) :
    ∃ since, (s.map name).MarksAgree since := by
  refine hrun.state_invariant (I := fun s => ∀ name, ∃ since, (s.map name).MarksAgree since) ?_
    ?_ name
  · intro name
    refine ⟨fun _ _ => False, ?_, ?_⟩ <;> cases name <;> simp [storageMachine, SharedStorage.map,
      ConcurrentCleanableMap.at?]
  · intro s call o s' h hstep
    exact marksAgree_step hstep h

/-- Calls that neither mark nor clean, after a mark: the entries that are not marked are those
that these calls inserted.

**Proof sketch.** Induction along the calls: each adds the entries it reports
(`SharedStorage.grows_of_step`), and new entries are not marked
(`ConcurrentCleanableMap.MarksAgree.grow`). -/
lemma marksAgree_since {s₀ : SharedStorage} {name : CleanedMap}
    (h₀ : (s₀.map name).MarksAgree fun _ _ => False) (hrun : storageMachine.RunFrom s₀ l s)
    (hquiet : ∀ x ∈ l, x.1 ≠ .markForClean ∧ x.1 ≠ .clean) :
    (s.map name).MarksAgree fun k v => (name, k, v) ∈ l.flatMap Prod.snd := by
  refine hrun.invariant (I := fun l s => (∀ x ∈ l, x.1 ≠ .markForClean ∧ x.1 ≠ .clean) →
    (s.map name).MarksAgree fun k v => (name, k, v) ∈ l.flatMap Prod.snd) ?_ ?_ hquiet
  · intro _
    simpa using h₀
  · intro l s call o s' _ ih hstep hquiet
    rw [List.forall_mem_append, List.forall_mem_singleton] at hquiet
    obtain ⟨hl, hmark, hclean⟩ := hquiet
    have hgrow := (ih hl).grow (SharedStorage.grows_of_step hstep hmark hclean name)
    simpa using hgrow

/-- There is a mark after the latest `clean` of the log. -/
def MarkedSinceClean (l : StorageLog) : Prop :=
  ∃ l₁ o l₂, l = l₁ ++ (.markForClean, o) :: l₂ ∧ ∀ x ∈ l₂, x.1 ≠ .clean

/-- A call other than `clean` keeps the marks. -/
lemma MarkedSinceClean.concat (h : MarkedSinceClean l) (hclean : call ≠ .clean) :
    MarkedSinceClean (l ++ [(call, o)]) := by
  obtain ⟨l₁, o₁, l₂, rfl, hl₂⟩ := h
  refine ⟨l₁, o₁, l₂ ++ [(call, o)], by simp, ?_⟩
  rw [List.forall_mem_append, List.forall_mem_singleton]
  exact ⟨hl₂, hclean⟩

/-- Without a mark since the latest `clean`, the clean lists are empty. -/
lemma cleanList_eq_nil_of_run (hrun : storageMachine.Run l s) (hl : ¬ MarkedSinceClean l)
    (name : CleanedMap) : (s.map name).cleanList = [] := by
  refine LogMachine.RunFrom.invariant (I := fun l s => ¬ MarkedSinceClean l →
    (s.map name).cleanList = []) ?_ ?_ hrun hl
  · intro _
    cases name <;> rfl
  · intro l s call o s' _ ih hstep hl
    by_cases hmark : call = .markForClean
    · subst hmark
      exact absurd ⟨l, o, [], rfl, fun x hx => nomatch hx⟩ hl
    by_cases hclean : call = .clean
    · subst hclean
      rw [SharedStorage.map_of_step_clean hstep]
      exact ConcurrentCleanableMap.cleanList_clean _
    rw [(SharedStorage.grows_of_step hstep hmark hclean name).cleanList]
    exact ih fun hmarked => hl (hmarked.concat hclean)

/-- What a `clean` in the state `s`, after the calls of the log, has to leave in the maps of `s'`:
the entries that were inserted since the latest mark, or everything if there is no mark since the
latest `clean`. -/
structure CleanedExactly (l : StorageLog) (s s' : SharedStorage) : Prop where
  sinceMark : ∀ l₁ o l₂, l = l₁ ++ (.markForClean, o) :: l₂ →
    (∀ x ∈ l₂, x.1 ≠ .markForClean ∧ x.1 ≠ .clean) →
    ∀ name k v, (s'.map name).at? k = some v ↔ (name, k, v) ∈ l₂.flatMap Prod.snd
  notMarked : ¬ MarkedSinceClean l → ∀ name k, (s'.map name).at? k = (s.map name).at? k

/-- Cleaning the maps leaves what it has to.

**Proof sketch.** Right after the latest mark every entry is marked, and the calls after it add
entries that are not (`marksAgree_since`); without a mark nothing is erased. -/
lemma cleanedExactly_of_run (hrun : storageMachine.Run l s)
    (hmap : ∀ name, s'.map name = (s.map name).clean) : CleanedExactly l s s' := by
  refine ⟨?_, ?_⟩
  · rintro l₁ o l₂ rfl hquiet name k v
    obtain ⟨s₁, s₂, hrun₁, hstep, hrest⟩ := hrun.split
    obtain ⟨since, hsince⟩ := marksAgree_of_run hrun₁ name
    have hs₂ : (s₂.map name).MarksAgree fun _ _ => False := by
      rw [SharedStorage.eq_of_step_markForClean hstep, SharedStorage.map_markForClean]
      exact hsince.mark
    rw [hmap]
    exact (marksAgree_since hs₂ hrest hquiet).at?_clean_iff k v
  · intro hl name k
    rw [hmap]
    exact ConcurrentCleanableMap.at?_clean_of_cleanList (cleanList_eq_nil_of_run hrun hl name) k

/-- **The cleaner is exact.** After every run of calls, `clean` leaves in the three cleaned maps
exactly the entries that were inserted since the latest mark, and without a mark since the latest
`clean` it removes nothing; this is so of the part of `clean` that cleans the maps, whether or not
the list of GC events can be cleaned then. Neither `mark_for_clean` nor `clean` changes the ongoing
traces or the raw samples. -/
theorem clean_exact {l : StorageLog} {s : SharedStorage} (hrun : storageMachine.Run l s) :
    CleanedExactly l s s.cleanMaps ∧
      (∀ s' o, s.step .clean = some (s', o) → CleanedExactly l s s') ∧
      ∀ call s' o, call = .markForClean ∨ call = .clean → s.step call = some (s', o) →
        s'.ongoingTraceInfoMap = s.ongoingTraceInfoMap ∧ s'.rawList = s.rawList := by
  refine ⟨cleanedExactly_of_run hrun s.map_cleanMaps, ?_, ?_⟩
  · intro s' o hstep
    exact cleanedExactly_of_run hrun (SharedStorage.map_of_step_clean hstep)
  · rintro call s' o (rfl | rfl) hstep
    · rw [SharedStorage.eq_of_step_markForClean hstep]
      exact ⟨rfl, rfl⟩
    · obtain ⟨gcEvents, rfl⟩ := SharedStorage.eq_of_step_clean hstep
      exact ⟨rfl, rfl⟩

/-- A coroutine before a mark, another after it, and a question for children that are not there. -/
def callsAroundMark : List StorageCall :=
  [.createCoroutineInfo 1 10, .markForClean, .createCoroutineInfo 2 20, .getChildCoroutines 5]

/-- After `callsAroundMark`, `clean` leaves the second coroutine and the children's `nullptr`. -/
theorem clean_exact_callsAroundMark :
    ∃ l s, storageMachine.Run l s ∧ l.map Prod.fst = callsAroundMark ∧
      CleanedExactly l s s.cleanMaps ∧ (s.map .coroutineInfo).at? 1 = some (some 0) ∧
      (s.cleanMaps.map .coroutineInfo).at? 1 = none ∧
      (s.cleanMaps.map .coroutineInfo).at? 2 = some (some 1) ∧
      (s.cleanMaps.map .childCoroutines).at? 5 = some none := by
  have hexec : (storageMachine.exec storageMachine.init callsAroundMark).map (fun p =>
      ((p.1.map .coroutineInfo).at? 1, (p.1.cleanMaps.map .coroutineInfo).at? 1,
        (p.1.cleanMaps.map .coroutineInfo).at? 2, (p.1.cleanMaps.map .childCoroutines).at? 5)) =
      some (some (some 0), none, some (some 1), some none) := by
    decide
  obtain ⟨l, s, hrun, hes, hvalues⟩ := LogMachine.exists_run_of_map_exec hexec
  simp only [Prod.mk.injEq] at hvalues
  exact ⟨l, s, hrun, hes, (clean_exact hrun).1, hvalues⟩

end Runs

end KotlinTracer
