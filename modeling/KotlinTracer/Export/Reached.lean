import KotlinTracer.Export.Lineage
import KotlinTracer.Lib.BreadthFirst

set_option relaxedAutoImplicit false
set_option autoImplicit false

/-!
# The coroutine tracks of a storage snapshot

`add_trace_info` walks the child lists from the traced coroutine with a queue and a set of visited
coroutines. This module says which coroutine tracks the walk emits, for any snapshot of the storage:
the coroutines that it reaches through coroutines with an info, each below a parent whose track is
emitted before. The set of visited coroutines is consulted when a child is enqueued and filled when
it is taken, so a coroutine that is listed twice before its turn comes is emitted twice.

## Main definitions

* `KotlinTracer.coroutineFlows`, `KotlinTracer.coroutineIds` — the coroutine tracks of packets, with
  the flow ids and the coroutines they are of.
* `KotlinTracer.ReachedWithInfo` — there is a path in the child lists all of whose coroutines have
  an info.
* `KotlinTracer.ListedOnce` — in breadth-first order, no coroutine with an info is listed twice
  before its turn.

## Main results

* `KotlinTracer.coroutineIds_addTraceInfo` — the coroutine tracks are those of the coroutines
  reached along infos, and their flows come from tracks before them.
* `KotlinTracer.nodup_coroutineIds_iff` — no coroutine has two tracks if and only if none is listed
  twice before its turn.
-/

namespace KotlinTracer

/-! ## The coroutine tracks of packets -/

/-- The flow ids of the coroutine slice that a packet begins: a slice that is named after the last
of its flow ids. -/
def coroutineFlow (x : TracePacket) : Option (List JLong) :=
  match x.data with
  | .trackDescriptor _ => none
  | .trackEvent event =>
    if event.type = .sliceBegin ∧ event.flowIds ≠ [] ∧
        event.name = event.flowIds.getLast?.map coroutineName then some event.flowIds
    else none

/-- The flow ids of the coroutine slices of packets, in order. -/
def coroutineFlows (packets : List TracePacket) : List (List JLong) :=
  packets.filterMap coroutineFlow

/-- The coroutines of the coroutine slices of packets, in order. -/
def coroutineIds (packets : List TracePacket) : List JLong :=
  (coroutineFlows packets).filterMap List.getLast?

/-- The coroutine slices of one packet list after another. -/
lemma coroutineFlows_append (l₁ l₂ : List TracePacket) :
    coroutineFlows (l₁ ++ l₂) = coroutineFlows l₁ ++ coroutineFlows l₂ :=
  List.filterMap_append

/-- A slice without flow ids is not one of a coroutine. -/
lemma coroutineFlow_of_flowIds_eq_nil {x : TracePacket} {event : TrackEvent}
    (hx : x.data = .trackEvent event) (hflow : event.flowIds = []) : coroutineFlow x = none := by
  rw [coroutineFlow, hx]
  simp [hflow]

/-- A descriptor is not a slice. -/
lemma coroutineFlow_descriptorPacket (sequenceId : ℕ) (name : String) (uuid : ℕ) :
    coroutineFlow (descriptorPacket sequenceId name uuid) = none := rfl

/-! ## What the export of an item emits -/

/-- The flow ids of an item. -/
def CoroutineQueueItem.flow (item : CoroutineQueueItem) : List JLong :=
  if item.parentCoroutineId = 0 then [item.coroutineId]
  else [item.parentCoroutineId, item.coroutineId]

/-- The flow of an item ends in its coroutine. -/
lemma CoroutineQueueItem.getLast?_flow (item : CoroutineQueueItem) :
    item.flow.getLast? = some item.coroutineId := by
  rw [flow]
  split_ifs <;> rfl

/-- `w'` has the packets of `w` and then packets with the coroutine slices `flows`. -/
def TraceWriter.Emits (w w' : TraceWriter) (flows : List (List JLong)) : Prop :=
  ∃ emitted, w'.packets = w.packets ++ emitted ∧ coroutineFlows emitted = flows

namespace TraceWriter

variable {w w' w'' : TraceWriter} {flows flows' : List (List JLong)}

/-- Nothing is emitted. -/
lemma Emits.refl (w : TraceWriter) : w.Emits w [] := ⟨[], by simp, rfl⟩

/-- What is emitted in two steps. -/
lemma Emits.trans (h : w.Emits w' flows) (h' : w'.Emits w'' flows') :
    w.Emits w'' (flows ++ flows') := by
  obtain ⟨emitted, hpackets, rfl⟩ := h
  obtain ⟨emitted', hpackets', rfl⟩ := h'
  refine ⟨emitted ++ emitted', ?_, coroutineFlows_append _ _⟩
  rw [hpackets', hpackets, List.append_assoc]

/-- A second step that emits no coroutine slice. -/
lemma Emits.trans_nil (h : w.Emits w' flows) (h' : w'.Emits w'' []) : w.Emits w'' flows := by
  have htrans := h.trans h'
  rwa [List.append_nil] at htrans

/-- What is emitted in as many steps as there are elements. -/
lemma Emits.foldl {α : Type} {f : TraceWriter → α → TraceWriter} {g : α → List (List JLong)}
    (h : ∀ (w : TraceWriter) a, w.Emits (f w a) (g a)) (l : List α) (w : TraceWriter) :
    w.Emits (l.foldl f w) (l.flatMap g) := by
  induction l generalizing w with
  | nil => exact .refl w
  | cons a l ih => exact (h w a).trans (ih (f w a))

end TraceWriter

/-- A suspension is not a slice of a coroutine. -/
lemma emits_addSuspension (w : TraceWriter) (suspension : SuspensionInfo) (name : String)
    (sequenceId : ℕ) (traceEndTime : TraceTime) :
    w.Emits (addSuspension w suspension name sequenceId traceEndTime) [] :=
  ⟨_, rfl, rfl⟩

/-- Samples are no slices. -/
lemma emits_addCallStack (w : TraceWriter) (traces : ConcurrentList ProcessedTraceRecord)
    (traceInfo : TraceInfo) (sequenceId trackId : ℕ) :
    w.Emits (addCallStack w traces traceInfo sequenceId trackId) [] := by
  rw [addCallStack_eq]
  refine ⟨_, rfl, ?_⟩
  rw [coroutineFlows, List.filterMap_eq_nil_iff]
  intro x hx
  obtain ⟨y, hy, rfl⟩ := List.mem_map.mp hx
  obtain ⟨sample, -, rfl⟩ := List.mem_map.mp hy
  exact coroutineFlow_of_flowIds_eq_nil rfl rfl

section Export

variable (traceInfo : TraceInfo) (storage : TraceStorage) (sequenceId : ℕ)

/-- The export of a coroutine emits its slice, and no other slice of a coroutine. -/
lemma emits_exportCoroutine (w : TraceWriter) (item : CoroutineQueueItem) (info : CoroutineInfo) :
    w.Emits (exportCoroutine traceInfo storage sequenceId w item info) [item.flow] := by
  have hbegin : coroutineFlow (eventPacket sequenceId (coroutineBegin traceInfo info item)
      (coroutineBeginEvent info item (w.trackCounter + 1))) = some item.flow := by
    have hlast := item.getLast?_flow
    have hne : item.flow ≠ [] := by
      rintro heq
      rw [heq] at hlast
      cases hlast
    show (if TrackEventType.sliceBegin = .sliceBegin ∧ item.flow ≠ [] ∧
      some (coroutineName item.coroutineId) = item.flow.getLast?.map coroutineName
      then some item.flow else none) = some item.flow
    rw [hlast, if_pos ⟨rfl, hne, rfl⟩]
  rw [exportCoroutine, ConcurrentList.forEach]
  -- the suspensions come last, and before them the samples
  have hsuspensions : ∀ w' : TraceWriter, w'.Emits (info.suspensionsList.list.foldl
      (fun w suspension => addSuspension w suspension (coroutineName item.coroutineId) sequenceId
        traceInfo.endTime) w') [] := by
    intro w'
    have hfold := TraceWriter.Emits.foldl (fun w suspension => emits_addSuspension w suspension
      (coroutineName item.coroutineId) sequenceId traceInfo.endTime) info.suspensionsList.list w'
    rwa [List.flatMap_eq_nil_iff.mpr fun _ _ => rfl] at hfold
  have hheader : w.Emits
      { trackCounter := w.trackCounter + 1 + 1
        packets := w.packets ++
          [descriptorPacket sequenceId (coroutineName item.coroutineId) (w.trackCounter + 1),
            eventPacket sequenceId (coroutineBegin traceInfo info item)
              (coroutineBeginEvent info item (w.trackCounter + 1)),
            eventPacket sequenceId (coroutineEnd traceInfo info item)
              { type := .sliceEnd, trackUuid := w.trackCounter + 1 },
            descriptorPacket sequenceId "Samples" (w.trackCounter + 1 + 1)] } [item.flow] := by
    refine ⟨_, rfl, ?_⟩
    rw [coroutineFlows, List.filterMap_cons_none (coroutineFlow_descriptorPacket _ _ _),
      List.filterMap_cons_some hbegin]
    rfl
  refine (hheader.trans_nil ?_).trans_nil (hsuspensions _)
  cases storage.getProcessedTraces item.coroutineId with
  | none => exact .refl _
  | some traces => exact emits_addCallStack _ _ _ _ _

/-- The items of the export that have an info. -/
def exportedItems : List CoroutineQueueItem :=
  (exportOrder traceInfo storage).filter fun item =>
    (storage.getCoroutineInfo item.coroutineId).isSome

/-- `addTraceInfo` exports the items with an info. -/
lemma addTraceInfo_eq_foldl (w : TraceWriter) :
    addTraceInfo traceInfo storage w sequenceId =
      (exportedItems traceInfo storage).foldl (exportItem traceInfo storage sequenceId) w := by
  rw [addTraceInfo_eq, exportedItems, List.foldl_filter]
  congr 1
  funext w item
  split_ifs with hinfo
  · rfl
  · rw [exportItem, Option.not_isSome_iff_eq_none.mp hinfo]

/-- **What `addTraceInfo` emits**: one coroutine slice for each item of the export with an info, in
the order of the export. -/
lemma emits_addTraceInfo (w : TraceWriter) :
    w.Emits (addTraceInfo traceInfo storage w sequenceId)
      ((exportedItems traceInfo storage).map CoroutineQueueItem.flow) := by
  have hitem : ∀ (w : TraceWriter) item, w.Emits (exportItem traceInfo storage sequenceId w item)
      (if (storage.getCoroutineInfo item.coroutineId).isSome then [item.flow] else []) := by
    intro w item
    rw [exportItem]
    cases storage.getCoroutineInfo item.coroutineId with
    | none => exact .refl w
    | some info => exact emits_exportCoroutine traceInfo storage sequenceId w item info
  have hfold := TraceWriter.Emits.foldl hitem (exportOrder traceInfo storage) w
  rw [addTraceInfo_eq]
  have hflows : (exportedItems traceInfo storage).map CoroutineQueueItem.flow =
      (exportOrder traceInfo storage).flatMap fun item =>
        if (storage.getCoroutineInfo item.coroutineId).isSome then [item.flow] else [] := by
    rw [exportedItems]
    induction exportOrder traceInfo storage with
    | nil => rfl
    | cons item items ih =>
      rw [List.flatMap_cons, ← ih]
      by_cases hinfo : (storage.getCoroutineInfo item.coroutineId).isSome
      · simp [hinfo]
      · simp [hinfo]
  rw [hflows]
  exact hfold

end Export

/-! ## The coroutines that are reached -/

section Reached

variable {traceInfo : TraceInfo} {storage : TraceStorage}

/-- There is a path from `root` to `d` in the child lists all of whose coroutines have an info. -/
def ReachedWithInfo (storage : TraceStorage) (root d : JLong) : Prop :=
  ∃ path, List.IsChain storage.IsChild (root :: path) ∧ (root :: path).getLast? = some d ∧
    ∀ c ∈ root :: path, (storage.getCoroutineInfo c).isSome

/-- A path of coroutines with an info is a path that the loop goes. -/
lemma reachedWithInfo_iff {root d : JLong} :
    ReachedWithInfo storage root d ↔ Relation.ReflTransGen storage.Lists root d ∧
      (storage.getCoroutineInfo d).isSome := by
  constructor
  · rintro ⟨path, hchain, hlast, hinfo⟩
    refine ⟨?_, hinfo d (List.mem_of_getLast? hlast)⟩
    induction path generalizing root with
    | nil =>
      rw [List.getLast?_singleton, Option.some.injEq] at hlast
      rw [hlast]
    | cons c path ih =>
      rw [List.isChain_cons_cons] at hchain
      have hrest := ih hchain.2 (by rwa [List.getLast?_cons_cons] at hlast)
        fun c' hc' => hinfo c' (List.mem_cons_of_mem root hc')
      exact .head ⟨hinfo root List.mem_cons_self, hchain.1⟩ hrest
  · rintro ⟨hpath, hinfo⟩
    induction hpath using Relation.ReflTransGen.head_induction_on with
    | refl => exact ⟨[], .singleton d, rfl, by simpa using hinfo⟩
    | head hlists _ ih =>
      obtain ⟨path, hchain, hlast, hall⟩ := ih
      refine ⟨_ :: path, .cons_cons hlists.2 hchain, by rwa [List.getLast?_cons_cons], ?_⟩
      intro c hc
      rcases List.mem_cons.mp hc with rfl | hc
      · exact hlists.1
      · exact hall c hc

/-- The coroutines of the coroutine slices that `addTraceInfo` emits. -/
lemma coroutineIds_of_flows {emitted : List TracePacket}
    (h : coroutineFlows emitted =
      (exportedItems traceInfo storage).map CoroutineQueueItem.flow) :
    coroutineIds emitted =
      (exportedItems traceInfo storage).map CoroutineQueueItem.coroutineId := by
  rw [coroutineIds, h, List.filterMap_map, ← List.filterMap_eq_map]
  exact List.filterMap_congr fun item _ => item.getLast?_flow

/-- A coroutine is exported if it is reached along infos. -/
lemma mem_exportedItems_iff {d : JLong} :
    d ∈ (exportedItems traceInfo storage).map CoroutineQueueItem.coroutineId ↔
      ReachedWithInfo storage traceInfo.coroutineId d := by
  rw [reachedWithInfo_iff, ← exportOrder_iff, List.mem_map]
  constructor
  · rintro ⟨item, hitem, rfl⟩
    obtain ⟨hmem, hinfo⟩ := List.mem_filter.mp hitem
    exact ⟨⟨item, hmem, rfl⟩, hinfo⟩
  · rintro ⟨⟨item, hmem, rfl⟩, hinfo⟩
    exact ⟨item, List.mem_filter.mpr ⟨hmem, hinfo⟩, rfl⟩

/-- The parent of an exported item other than the root is exported before it. -/
lemma parent_of_exportedItems_eq {item : CoroutineQueueItem}
    {before after : List CoroutineQueueItem}
    (h : exportedItems traceInfo storage = before ++ item :: after)
    (hroot : item.coroutineId ≠ traceInfo.coroutineId) :
    storage.IsChild item.parentCoroutineId item.coroutineId ∧
      ∃ parent ∈ before, parent.coroutineId = item.parentCoroutineId := by
  obtain ⟨l₁, l₂, hsplit, rfl, hrest⟩ := List.filter_eq_append_iff.mp h
  obtain ⟨m₁, m₂, rfl, hskipped, -, -⟩ := List.filter_eq_cons_iff.mp hrest
  rw [← List.append_assoc] at hsplit
  rcases parent_of_exportOrder_eq hsplit with ⟨rfl, -⟩ | ⟨-, hlists, parent, hparent, hid⟩
  · exact absurd rfl hroot
  · refine ⟨hlists.2, parent, ?_, hid⟩
    have hinfo : (storage.getCoroutineInfo parent.coroutineId).isSome := by
      rw [hid]
      exact hlists.1
    rcases List.mem_append.mp hparent with hmem | hmem
    · exact List.mem_filter.mpr ⟨hmem, hinfo⟩
    · exact absurd hinfo (hskipped parent hmem)

/-- **The coroutine tracks that `add_trace_info` emits.** For every storage and every trace, with
coroutine ids that are not zero: the coroutines with a coroutine track are those that are reached
from the root along coroutines with an info, and the first flow id of every track but those of the
root is a coroutine with a track that is emitted before and whose child list holds the coroutine. -/
theorem coroutineIds_addTraceInfo (traceInfo : TraceInfo) (storage : TraceStorage)
    (w : TraceWriter) (sequenceId : ℕ) (hroot : traceInfo.coroutineId ≠ 0)
    (hids : ∀ a b, storage.IsChild a b → b ≠ 0) :
    ∃ emitted, (addTraceInfo traceInfo storage w sequenceId).packets = w.packets ++ emitted ∧
      (∀ d, d ∈ coroutineIds emitted ↔ ReachedWithInfo storage traceInfo.coroutineId d) ∧
      (coroutineFlows emitted).AtEvery fun before flow =>
        ∀ d, flow.getLast? = some d → d ≠ traceInfo.coroutineId →
          ∃ parent, flow.head? = some parent ∧ (∃ flow' ∈ before, flow'.getLast? = some parent) ∧
            storage.IsChild parent d := by
  obtain ⟨emitted, hpackets, hflows⟩ := emits_addTraceInfo traceInfo storage sequenceId w
  refine ⟨emitted, hpackets, fun d => ?_, ?_⟩
  · rw [coroutineIds_of_flows hflows, mem_exportedItems_iff]
  · intro before flow after hsplit d hlast hne
    rw [hflows] at hsplit
    obtain ⟨items, rest, hitems, rfl, hrest⟩ := List.map_eq_append_iff.mp hsplit
    obtain ⟨item, rest, rfl, rfl, rfl⟩ := List.map_eq_cons_iff.mp hrest
    obtain rfl : item.coroutineId = d := Option.some.inj (item.getLast?_flow.symm.trans hlast)
    obtain ⟨hchild, parent, hparent, hid⟩ := parent_of_exportedItems_eq hitems hne
    -- the parent is a coroutine of the export, so its id is not zero
    have hnonzero : item.parentCoroutineId ≠ 0 := by
      rw [← hid]
      have hmem : parent ∈ exportOrder traceInfo storage :=
        (List.mem_filter.mp (hitems ▸ List.mem_append_left _ hparent)).1
      rcases mem_exportOrder hmem with rfl | ⟨-, hlists, -⟩
      · exact hroot
      · exact hids _ _ hlists.2
    refine ⟨item.parentCoroutineId, ?_, ⟨parent.flow, List.mem_map_of_mem hparent, ?_⟩, hchild⟩
    · rw [CoroutineQueueItem.flow, if_neg hnonzero]
      rfl
    · rw [parent.getLast?_flow, hid]

/-- A coroutine with one child, both with an info. -/
def parentAndChild : TraceStorage :=
  ((((({} : TraceStorage).createCoroutineInfo 5 2).createCoroutineInfo 6 3
    ).createChildCoroutineStorage 5).addChildCoroutine 6 5)

/-- The trace of the parent has a track of the child, whose flow begins in the parent. -/
theorem coroutineIds_parentAndChild :
    ∃ emitted, (addTraceInfo ⟨5, 4, 9⟩ parentAndChild {} 1).packets = emitted ∧
      6 ∈ coroutineIds emitted ∧ coroutineFlows emitted = [[5], [5, 6]] := by
  have hids : ∀ a b, parentAndChild.IsChild a b → b ≠ 0 := by
    rintro a b ⟨l, hl, hb⟩
    rw [parentAndChild, TraceStorage.getChildCoroutines_addChildCoroutine] at hl
    split_ifs at hl with ha
    · obtain rfl : l = ⟨[6], 0⟩ := (Option.some.inj hl).symm
      rw [List.mem_singleton.mp hb]
      decide
    · rw [TraceStorage.getChildCoroutines_createChildCoroutineStorage, if_neg (by simp [ha])] at hl
      cases hl
  obtain ⟨emitted, hpackets, hreached, -⟩ :=
    coroutineIds_addTraceInfo ⟨5, 4, 9⟩ parentAndChild {} 1 (by decide) hids
  have hchild : parentAndChild.IsChild 5 6 := ⟨⟨[6], 0⟩, rfl, List.mem_singleton_self 6⟩
  refine ⟨emitted, hpackets, (hreached 6).mpr ⟨[6], ?_, rfl, by decide⟩, ?_⟩
  · exact .cons_cons hchild (.singleton 6)
  · rw [List.nil_append] at hpackets
    rw [← hpackets]
    decide

end Reached

/-! ## Coroutines with two tracks -/

section Nodup

/-- The coroutines that the loop goes to from a coroutine: its child list, if it has an info. -/
def childIds (storage : TraceStorage) (c : JLong) : List JLong :=
  match storage.getCoroutineInfo c with
  | none => []
  | some _ => ((storage.getChildCoroutines c).getD {}).list

/-- In the breadth-first order of the coroutines that are reached from `root`, no coroutine with an
info has two entries in the child lists of the coroutines before it. -/
def ListedOnce (storage : TraceStorage) (root : JLong) : Prop :=
  (Worklist.breadthFirst (childIds storage) (childEntryCount storage) [root]).AtEvery
    fun before c => (storage.getCoroutineInfo c).isSome →
      (before.flatMap (childIds storage)).count c ≤ 1

instance (storage : TraceStorage) (root : JLong) : Decidable (ListedOnce storage root) :=
  inferInstanceAs (Decidable (List.AtEvery _ _))

variable {traceInfo : TraceInfo} {storage : TraceStorage}

/-- The children of an item are the coroutines that the loop goes to from its coroutine. -/
lemma map_childItems (item : CoroutineQueueItem) :
    (childItems storage item).map CoroutineQueueItem.coroutineId =
      childIds storage item.coroutineId := by
  rw [childItems, childIds]
  cases storage.getCoroutineInfo item.coroutineId with
  | none => rfl
  | some info =>
    by_cases hstorage : storage.containsChildCoroutineStorage item.coroutineId = true
    · simp [hstorage, Function.comp_def]
    · have hnone : storage.getChildCoroutines item.coroutineId = none := by
        rw [Option.eq_none_iff_forall_ne_some]
        intro l hl
        exact hstorage ((storage.containsChildCoroutineStorage_iff _).mpr ⟨l, hl⟩)
      simp [hstorage, hnone]

/-- Every coroutine of the export is the root or an id in a child list. -/
lemma mem_exportUniverse {item : CoroutineQueueItem} (h : item ∈ exportOrder traceInfo storage) :
    item.coroutineId ∈ exportUniverse traceInfo storage := by
  rcases mem_exportOrder h with rfl | ⟨-, ⟨-, l, hl, hmem⟩, -⟩
  · exact Finset.mem_insert_self _ _
  · refine Finset.mem_insert_of_mem (List.mem_toFinset.mpr (List.mem_flatMap.mpr ?_))
    exact ⟨⟨item.parentCoroutineId, l⟩, AList.mem_lookup_iff.mp hl, hmem⟩

/-- The coroutines of the export without repetition, by the breadth-first order. -/
lemma nodup_exportedItems_iff :
    ((exportedItems traceInfo storage).map CoroutineQueueItem.coroutineId).Nodup ↔
      ListedOnce storage traceInfo.coroutineId := by
  have hkeys : (exportOrder traceInfo storage).map CoroutineQueueItem.coroutineId =
      Worklist.order id (childIds storage) (exportFuel storage) [traceInfo.coroutineId] ∅ :=
    Worklist.map_key_order map_childItems _ _ _
  have hexhausts : Worklist.Exhausts id (childIds storage) (exportFuel storage)
      [traceInfo.coroutineId] ∅ := Worklist.exhausts_map_key map_childItems exhausts_exportFuel
  have hfuel : exportFuel storage ≠ 0 := (Nat.pow_pos (Nat.succ_pos _)).ne'
  have hcard : (Worklist.order id (childIds storage) (exportFuel storage)
      [traceInfo.coroutineId] ∅).toFinset.card ≤ childEntryCount storage + 1 := by
    have hbound : (exportUniverse traceInfo storage).card ≤ childEntryCount storage + 1 :=
      exportUniverse_card_le
    refine (Finset.card_le_card fun c hc => ?_).trans hbound
    rw [← hkeys, List.mem_toFinset, List.mem_map] at hc
    obtain ⟨item, hitem, rfl⟩ := hc
    exact mem_exportUniverse hitem
  have hnext : ∀ c, ¬ (storage.getCoroutineInfo c).isSome → childIds storage c = [] := by
    intro c hc
    rw [childIds, Option.not_isSome_iff_eq_none.mp hc]
  have hiff := Worklist.nodup_filter_order_iff
    (P := fun c => (storage.getCoroutineInfo c).isSome = true) hnext hexhausts hfuel hcard
  rw [ListedOnce, ← hiff, exportedItems]
  have hmap : ((exportOrder traceInfo storage).filter fun item =>
      (storage.getCoroutineInfo item.coroutineId).isSome).map CoroutineQueueItem.coroutineId =
      ((exportOrder traceInfo storage).map CoroutineQueueItem.coroutineId).filter fun c =>
        (storage.getCoroutineInfo c).isSome := by
    rw [List.filter_map]
    rfl
  rw [hmap, hkeys]
  simp

/-- **When no coroutine has two tracks.** For every storage and every trace, `add_trace_info`
exports its items one after another, with one coroutine track each, and no coroutine has two of them
if and only if, in the breadth-first order from the root, no coroutine with an info is listed twice
by the coroutines before it. -/
theorem nodup_coroutineIds_iff (traceInfo : TraceInfo) (storage : TraceStorage) (w : TraceWriter)
    (sequenceId : ℕ) :
    ∃ (emitted : List TracePacket) (items : List CoroutineQueueItem),
      (addTraceInfo traceInfo storage w sequenceId).packets = w.packets ++ emitted ∧
      addTraceInfo traceInfo storage w sequenceId =
        items.foldl (exportItem traceInfo storage sequenceId) w ∧
      coroutineIds emitted = items.map CoroutineQueueItem.coroutineId ∧
      ((coroutineIds emitted).Nodup ↔ ListedOnce storage traceInfo.coroutineId) := by
  obtain ⟨emitted, hpackets, hflows⟩ := emits_addTraceInfo traceInfo storage sequenceId w
  have hids := coroutineIds_of_flows hflows
  refine ⟨emitted, exportedItems traceInfo storage, hpackets,
    addTraceInfo_eq_foldl traceInfo storage sequenceId w, hids, ?_⟩
  rw [hids]
  exact nodup_exportedItems_iff

/-- A traced coroutine creates a coroutine twice: the thread that runs it has one id. -/
def createdTwice : List Event :=
  [(Call.threadStart "main" 0 0).at 1 1, (Call.coroutineCreated 5).at 1 2,
    (Call.coroutineResumed 5).at 1 3, (Call.traceStart 5).at 1 4, (Call.coroutineCreated 6).at 1 5,
    (Call.coroutineCreated 6).at 1 6]

/-- **A coroutine that is created twice has two tracks.** -/
theorem coroutineIds_createdTwice :
    ∃ p, (machine .sample).Reaches createdTwice p ∧
      coroutineIds (addTraceInfo ⟨5, 4, 9⟩ p.storage {} 1).packets = [5, 6, 6] ∧
      ¬ (coroutineIds (addTraceInfo ⟨5, 4, 9⟩ p.storage {} 1).packets).Nodup := by
  have hexec : ((machine .sample).exec (machine .sample).init createdTwice).map
      (fun q => coroutineIds (addTraceInfo ⟨5, 4, 9⟩ q.1.storage {} 1).packets) =
      some [5, 6, 6] := by decide
  obtain ⟨l, p, hrun, hes, hids⟩ := LogMachine.exists_run_of_map_exec hexec
  refine ⟨p, ⟨l, hrun, hes⟩, hids, ?_⟩
  rw [hids]
  decide

end Nodup

end KotlinTracer
