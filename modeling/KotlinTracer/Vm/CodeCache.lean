import KotlinTracer.Lib.Loop
import KotlinTracer.Profiler.Callbacks

set_option relaxedAutoImplicit false
set_option autoImplicit false

/-!
# The code cache of the VM

The lookup of the method that a machine instruction belongs to (`vm/jvmCodeCache.cpp`). A code heap
`[low, high)` is divided into segments of equal size, and its segment map has one byte for every
segment: `0` at the first segment of a block, and at a later segment of the block the number of
segments to go back, towards the first one. `getJMethodId` follows these hops to the header of the
block and reads the code blob behind it.

## Main definitions

* `KotlinTracer.VmMemory`, `KotlinTracer.VmStructs` — what `getJMethodId` reads of the memory of the
  VM, and the offsets that it uses.
* `KotlinTracer.isJavaFrame`, `KotlinTracer.getJMethodId` — the two queries of `JVMCodeCache`.
* `KotlinTracer.CodeHeap.segmentWalk` — the loop over the segment map.
* `KotlinTracer.CodeHeap.UsedBlock`, `KotlinTracer.CodeHeap.Format` — the format of a segment map.

## Main results

* `KotlinTracer.CodeHeap.segmentWalk_finds_block` — from an instruction in a used block the walk
  ends at the first segment of the block, and the address computed there is in the block.
* `KotlinTracer.CodeHeap.segmentWalk_safe_iff` — from an arbitrary instruction the walk stays in the
  map and ends at a block iff a segment at a multiple of 255 below it belongs to a block.
* `KotlinTracer.getJMethodId_of_usedBlock` — the query reads the code blob of the block that
  contains the instruction.

## Design

Addresses and the index `seg_idx` are `UInt64`, so that all address arithmetic wraps as in the
source, and an entry of the segment map is a `UInt8`. The walk of the source has no bound; the model
takes the number of iterations it may use, and its results say that some number is enough.

A shift by a segment size of 64 bits or more is undefined in the source; the model shifts modulo 64,
as the processors do.
-/

namespace KotlinTracer

/-! ## The lookup -/

/-- What `JVMCodeCache` reads of the memory of the process, by address: words, `int`s (extended to
64 bits), `u2`s, bytes and zero-terminated strings; and the answers of `is_valid`. -/
structure VmMemory where
  word : UInt64 → UInt64
  int : UInt64 → UInt64
  u2 : UInt64 → UInt16
  byte : UInt64 → UInt8
  string : UInt64 → String
  isValid : UInt64 → Bool

/-- The offsets of the fields that `JVMCodeCache` uses, and the size of `HeapBlock`. -/
structure VmStructs where
  compiledMethod : UInt64
  constMethod : UInt64
  constants : UInt64
  methodIdNum : UInt64
  poolHolder : UInt64
  jmethodIds : UInt64
  codeBlobName : UInt64
  memory : UInt64
  segmap : UInt64
  log2SegmentSize : UInt64
  low : UInt64
  high : UInt64
  heapBlockTypeSize : UInt64

/-- A code heap: its address range, the logarithm of its segment size and its segment map. -/
structure CodeHeap where
  low : UInt64
  high : UInt64
  log2SegmentSize : UInt64
  segMap : UInt64 → UInt8

namespace CodeHeap

/-- `low <= instruction_pointer && instruction_pointer < high`. -/
def Contains (h : CodeHeap) (ip : UInt64) : Prop := h.low ≤ ip ∧ ip < h.high

instance (h : CodeHeap) (ip : UInt64) : Decidable (h.Contains ip) :=
  inferInstanceAs (Decidable (h.low ≤ ip ∧ ip < h.high))

/-- The index of the segment of an instruction, the first `seg_idx`. -/
def segmentIndex (h : CodeHeap) (ip : UInt64) : UInt64 := (ip - h.low) >>> h.log2SegmentSize

/-- An iteration of the loop over the segment map. -/
def segmentStep (h : CodeHeap) (segIdx : UInt64) : Option (ForInStep UInt64) :=
  if 0 < h.segMap segIdx then some (.yield (segIdx - (h.segMap segIdx).toUInt64))
  else some (.done segIdx)

/-- The loop over the segment map: the last `seg_idx`, if `n` iterations are enough. -/
def segmentWalk (h : CodeHeap) (n : ℕ) (segIdx : UInt64) : Option UInt64 :=
  Loop.run h.segmentStep n segIdx

/-- The address of a segment, `low + (seg_idx << _log2_segment_size)`. -/
def segmentAddress (h : CodeHeap) (segIdx : UInt64) : UInt64 :=
  h.low + (segIdx <<< h.log2SegmentSize)

end CodeHeap

/-- The code heap at an address. -/
def VmMemory.codeHeap (mem : VmMemory) (vm : VmStructs) (heap : UInt64) : CodeHeap :=
  let memoryPtr := heap + vm.memory
  let segmapPtr := heap + vm.segmap
  { low := mem.word (memoryPtr + vm.low)
    high := mem.word (memoryPtr + vm.high)
    log2SegmentSize := mem.int (heap + vm.log2SegmentSize)
    segMap := fun segIdx => mem.byte (mem.word (segmapPtr + vm.low) + segIdx) }

/-- `JVMCodeCache::isJavaFrame`, for the heaps of the code cache. -/
def isJavaFrame (mem : VmMemory) (vm : VmStructs) (heaps : List UInt64) (ip : UInt64) : Bool :=
  heaps.any fun heap => (mem.codeHeap vm heap).Contains ip

/-- The entry of the cache of method ids for a method, null if there is none. -/
def cachedMethodId (mem : VmMemory) (jmethodIds : UInt64) (idnum : UInt16) : UInt64 :=
  if jmethodIds ≠ 0 ∧ idnum.toUInt64 < mem.word jmethodIds then
    mem.word (jmethodIds + 8 * (idnum.toUInt64 + 1))
  else 0

/-- The method id of an interpreted frame: every pointer is checked before it is followed. -/
def interpretedMethodId (mem : VmMemory) (vm : VmStructs) (fp : UInt64) : UInt64 :=
  if ¬ mem.isValid fp then 0 else
  let methodPtr := mem.word (fp - 24)
  if ¬ mem.isValid methodPtr then 0 else
  let constMethodPtr := mem.word (methodPtr + vm.constMethod)
  if ¬ mem.isValid constMethodPtr then 0 else
  let idnum := mem.u2 (constMethodPtr + vm.methodIdNum)
  let constantPoolPtr := mem.word (constMethodPtr + vm.constants)
  if ¬ mem.isValid constantPoolPtr then 0 else
  let poolHolderPtr := mem.word (constantPoolPtr + vm.poolHolder)
  if ¬ mem.isValid poolHolderPtr then 0 else
  if ¬ mem.isValid (poolHolderPtr + vm.jmethodIds) then 0 else
  let id := cachedMethodId mem (mem.word (poolHolderPtr + vm.jmethodIds)) idnum
  if ¬ mem.isValid id then 0 else id

/-- The method id of a compiled method, the blob at an address. -/
def compiledMethodId (mem : VmMemory) (vm : VmStructs) (blob : UInt64) : UInt64 :=
  let methodPtr := mem.word (blob + vm.compiledMethod)
  let constMethodPtr := mem.word (methodPtr + vm.constMethod)
  let idnum := mem.u2 (constMethodPtr + vm.methodIdNum)
  let constantPoolPtr := mem.word (constMethodPtr + vm.constants)
  let poolHolderPtr := mem.word (constantPoolPtr + vm.poolHolder)
  cachedMethodId mem (mem.word (poolHolderPtr + vm.jmethodIds)) idnum

/-- What `getJMethodId` returns for the code blob at an address; `none` for a blob that is neither
the interpreter nor a compiled method. -/
def codeBlobMethodId (mem : VmMemory) (vm : VmStructs) (blob fp : UInt64) : Option UInt64 :=
  let name := mem.string (mem.word (blob + vm.codeBlobName))
  if name = "Interpreter" then some (interpretedMethodId mem vm fp)
  else if "nmethod".toList <:+: name.toList then some (compiledMethodId mem vm blob)
  else none

/-- The loop of `getJMethodId` over the heaps; a blob of another kind does not end it. `none` when
the walk over a segment map does not end within `n` iterations. -/
def findMethodId (mem : VmMemory) (vm : VmStructs) (n : ℕ) (ip fp : UInt64) :
    List UInt64 → Option UInt64
  | [] => some 0
  | heapPtr :: heaps =>
    let heap := mem.codeHeap vm heapPtr
    if heap.Contains ip then
      match heap.segmentWalk n (heap.segmentIndex ip) with
      | none => none
      | some segIdx =>
        match codeBlobMethodId mem vm (heap.segmentAddress segIdx + vm.heapBlockTypeSize) fp with
        | some id => some id
        | none => findMethodId mem vm n ip fp heaps
    else findMethodId mem vm n ip fp heaps

/-- `JVMCodeCache::getJMethodId`. -/
def getJMethodId (mem : VmMemory) (vm : VmStructs) (heaps : List UInt64) (n : ℕ)
    (ip fp : UInt64) : Option UInt64 :=
  if ¬ mem.isValid fp then some 0 else findMethodId mem vm n ip fp heaps

/-! ## The format of a segment map -/

namespace CodeHeap

/-- The segments `b, …, e - 1` are a used block: the first one has the entry `0`, and the entry of
every other one goes back by at least one segment, but not beyond the first one. -/
structure UsedBlock (h : CodeHeap) (b e : UInt64) : Prop where
  nonempty : b < e
  header : h.segMap b = 0
  hop_pos : ∀ i, b < i → i < e → 0 < h.segMap i
  hop_le : ∀ i, b < i → i < e → (h.segMap i).toNat ≤ i.toNat - b.toNat

/-- The segment belongs to the heap. -/
def HasSegment (h : CodeHeap) (i : UInt64) : Prop :=
  i.toNat * 2 ^ (h.log2SegmentSize.toNat % 64) < h.high.toNat - h.low.toNat

/-- The segment belongs to one of the blocks. -/
def Used (blocks : List (UInt64 × UInt64)) (i : UInt64) : Prop :=
  ∃ p ∈ blocks, p.1 ≤ i ∧ i < p.2

/-- The segment map is in the format of the VM: the blocks are used blocks, and the segments of the
heap that belong to none of them carry the free sentinel `0xFF`. -/
structure Format (h : CodeHeap) (blocks : List (UInt64 × UInt64)) : Prop where
  used : ∀ p ∈ blocks, h.UsedBlock p.1 p.2
  free : ∀ i, h.HasSegment i → ¬ Used blocks i → h.segMap i = 0xFF

section

variable {h : CodeHeap} {b e i j ip : UInt64}

lemma segmentStep_of_pos (hpos : 0 < h.segMap i) :
    h.segmentStep i = some (.yield (i - (h.segMap i).toUInt64)) := by
  rw [segmentStep, if_pos hpos]

lemma segmentStep_of_zero (hzero : h.segMap i = 0) : h.segmentStep i = some (.done i) := by
  rw [segmentStep, hzero, if_neg (by decide)]

/-- An iteration that goes on hops back by the entry of its segment. -/
lemma segmentStep_eq_yield_iff :
    h.segmentStep i = some (.yield j) ↔ 0 < h.segMap i ∧ j = i - (h.segMap i).toUInt64 := by
  unfold segmentStep
  split_ifs with hpos
  · simp [hpos, eq_comm]
  · simp [hpos]

/-- The walk is left at a segment with the entry `0`. -/
lemma segmentStep_eq_done_iff :
    h.segmentStep i = some (.done j) ↔ h.segMap i = 0 ∧ j = i := by
  unfold segmentStep
  split_ifs with hpos
  · simp [(UInt8.pos_iff_ne_zero).mp hpos]
  · have hzero : h.segMap i = 0 := by
      by_contra hne
      exact hpos (UInt8.pos_iff_ne_zero.mpr hne)
    simp [hzero, eq_comm]

/-- A hop that does not go below the first segment of the map does not wrap. -/
lemma toNat_hop (hle : (h.segMap i).toNat ≤ i.toNat) :
    (i - (h.segMap i).toUInt64).toNat = i.toNat - (h.segMap i).toNat := by
  have hle64 : (h.segMap i).toUInt64 ≤ i := by
    rw [UInt64.le_iff_toNat_le, UInt8.toNat_toUInt64]
    exact hle
  rw [UInt64.toNat_sub_of_le _ _ hle64, UInt8.toNat_toUInt64]

/-- The index of the segment of an instruction, without wrapping. -/
lemma toNat_segmentIndex (hlow : h.low ≤ ip) :
    (h.segmentIndex ip).toNat =
      (ip.toNat - h.low.toNat) / 2 ^ (h.log2SegmentSize.toNat % 64) := by
  rw [segmentIndex, UInt64.toNat_shiftRight, UInt64.toNat_sub_of_le _ _ hlow,
    Nat.shiftRight_eq_div_pow]

/-- The segment of an instruction of the heap belongs to the heap. -/
lemma hasSegment_segmentIndex (hip : h.Contains ip) : h.HasSegment (h.segmentIndex ip) := by
  have hlt : ip.toNat < h.high.toNat := UInt64.lt_iff_toNat_lt.mp hip.2
  have hle : h.low.toNat ≤ ip.toNat := UInt64.le_iff_toNat_le.mp hip.1
  rw [HasSegment, toNat_segmentIndex hip.1]
  calc _ ≤ ip.toNat - h.low.toNat := Nat.div_mul_le_self _ _
    _ < h.high.toNat - h.low.toNat := by omega

/-- The segments below a segment of the heap belong to the heap. -/
lemma HasSegment.of_le (hj : h.HasSegment j) (hij : i.toNat ≤ j.toNat) : h.HasSegment i :=
  lt_of_le_of_lt (Nat.mul_le_mul_right _ hij) hj

/-- The address of a segment up to the one of an instruction, without wrapping. -/
lemma toNat_segmentAddress (hlow : h.low ≤ ip) (hi : i.toNat ≤ (h.segmentIndex ip).toNat) :
    (h.segmentAddress i).toNat =
        h.low.toNat + i.toNat * 2 ^ (h.log2SegmentSize.toNat % 64) ∧
      h.low.toNat + i.toNat * 2 ^ (h.log2SegmentSize.toNat % 64) ≤ ip.toNat := by
  have hle : h.low.toNat ≤ ip.toNat := UInt64.le_iff_toNat_le.mp hlow
  have hbound : i.toNat * 2 ^ (h.log2SegmentSize.toNat % 64) ≤ ip.toNat - h.low.toNat := by
    rw [toNat_segmentIndex hlow] at hi
    calc _ ≤ _ := Nat.mul_le_mul_right _ hi
      _ ≤ ip.toNat - h.low.toNat := Nat.div_mul_le_self _ _
  have hip : ip.toNat < 2 ^ 64 := ip.toNat_lt
  refine ⟨?_, by omega⟩
  rw [segmentAddress, UInt64.toNat_add, UInt64.toNat_shiftLeft, Nat.shiftLeft_eq,
    Nat.mod_eq_of_lt (by omega), Nat.mod_eq_of_lt (by omega)]

/-! ## Instructions in a used block -/

/-- A hop in a used block stays in the block and goes back. -/
lemma UsedBlock.of_yield (hblock : h.UsedBlock b e) (hb : b ≤ i) (he : i < e)
    (hstep : h.segmentStep i = some (.yield j)) : b ≤ j ∧ j < i := by
  obtain ⟨hpos, rfl⟩ := segmentStep_eq_yield_iff.mp hstep
  have hlt : b < i := by
    refine UInt64.lt_of_le_of_ne hb fun heq => ?_
    rw [← heq, hblock.header] at hpos
    exact absurd hpos (by decide)
  have hle := hblock.hop_le i hlt he
  have hpos' : 0 < (h.segMap i).toNat := UInt8.lt_iff_toNat_lt.mp hpos
  rw [UInt64.lt_iff_toNat_lt] at hlt
  rw [UInt64.le_iff_toNat_le, UInt64.lt_iff_toNat_lt, toNat_hop (by omega)]
  omega

/-- In a used block, only the first segment has the entry `0`. -/
lemma UsedBlock.eq_of_segMap_eq_zero (hblock : h.UsedBlock b e) (hb : b ≤ i) (he : i < e)
    (hzero : h.segMap i = 0) : i = b := by
  by_contra hne
  have hpos := hblock.hop_pos i (UInt64.lt_of_le_of_ne hb (Ne.symm hne)) he
  rw [hzero] at hpos
  exact absurd hpos (by decide)

/-- The walk from a segment of a used block stays between the first segment of the block and the
segment where it started. -/
lemma UsedBlock.of_visits (hblock : h.UsedBlock b e) (hb : b ≤ i) (he : i < e)
    (hvisits : Loop.Visits h.segmentStep i j) : b ≤ j ∧ j ≤ i := by
  refine Loop.Visits.invariant (I := fun k => b ≤ k ∧ k ≤ i) ?_ ⟨hb, UInt64.le_rfl⟩ hvisits
  rintro k l ⟨hbk, hki⟩ hstep
  obtain ⟨hbl, hlk⟩ := hblock.of_yield hbk (UInt64.lt_of_le_of_lt hki he) hstep
  exact ⟨hbl, UInt64.le_trans (UInt64.le_of_lt hlk) hki⟩

/-- The walk from a segment of a used block ends at the first segment of the block.

**Proof sketch.** Every hop goes back, so the index is a measure; the walk stays in the block, where
only the first segment leaves it. -/
lemma UsedBlock.segmentWalk_eq (hblock : h.UsedBlock b e) (hb : b ≤ i) (he : i < e) {n : ℕ}
    (hn : i.toNat < n) : h.segmentWalk n i = some b := by
  obtain ⟨r, hr⟩ : ∃ r, h.segmentWalk n i = some r := by
    refine Loop.exists_run_of_measure (I := fun k => b ≤ k ∧ k ≤ i) (μ := UInt64.toNat) ?_
      ⟨hb, UInt64.le_rfl⟩ hn
    rintro k ⟨hbk, hki⟩
    have hke : k < e := UInt64.lt_of_le_of_lt hki he
    by_cases hzero : h.segMap k = 0
    · exact .inl ⟨k, segmentStep_of_zero hzero⟩
    · have hstep := segmentStep_of_pos (UInt8.pos_iff_ne_zero.mpr hzero)
      obtain ⟨hbl, hlk⟩ := hblock.of_yield hbk hke hstep
      exact .inr ⟨_, hstep, ⟨hbl, UInt64.le_trans (UInt64.le_of_lt hlk) hki⟩,
        UInt64.lt_iff_toNat_lt.mp hlk⟩
  obtain ⟨k, hvisits, hdone⟩ := Loop.exists_visits_of_run hr
  obtain ⟨hbk, hki⟩ := hblock.of_visits hb he hvisits
  obtain ⟨hzero, rfl⟩ := segmentStep_eq_done_iff.mp hdone
  rw [hr, hblock.eq_of_segMap_eq_zero hbk (UInt64.lt_of_le_of_lt hki he) hzero]

/-- **The segment walk finds the block.** From an instruction of the heap in a used block, the walk
ends at the first segment of the block, and reads the segment map only between this segment and the
segment of the instruction; the address computed from it is not behind the instruction and lies in
the first segment of the block. -/
theorem segmentWalk_finds_block (h : CodeHeap) (b e ip : UInt64) (hip : h.Contains ip)
    (hblock : h.UsedBlock b e) (hb : b ≤ h.segmentIndex ip) (he : h.segmentIndex ip < e) :
    (∃ n, ∀ m, n ≤ m → h.segmentWalk m (h.segmentIndex ip) = some b) ∧
    (∀ i, Loop.Visits h.segmentStep (h.segmentIndex ip) i → b ≤ i ∧ i ≤ h.segmentIndex ip) ∧
    h.low ≤ h.segmentAddress b ∧ h.segmentAddress b ≤ ip ∧
    h.segmentIndex (h.segmentAddress b) = b := by
  obtain ⟨haddress, hle⟩ := toNat_segmentAddress hip.1 (UInt64.le_iff_toNat_le.mp hb)
  have hlow : h.low ≤ h.segmentAddress b := by
    rw [UInt64.le_iff_toNat_le, haddress]
    omega
  refine ⟨⟨(h.segmentIndex ip).toNat + 1, fun m hm => hblock.segmentWalk_eq hb he (by omega)⟩,
    fun i hvisits => hblock.of_visits hb he hvisits, hlow, ?_, ?_⟩
  · rw [UInt64.le_iff_toNat_le, haddress]
    exact hle
  · rw [← UInt64.toNat_inj, toNat_segmentIndex hlow, haddress, Nat.add_sub_cancel_left]
    exact Nat.mul_div_cancel _ (Nat.two_pow_pos _)

/-- A heap with one block, the segments 4 to 7; the other segments are free. -/
def sampleHeap : CodeHeap where
  low := 0x1000
  high := 0x2000
  log2SegmentSize := 7
  segMap := fun i => if 4 ≤ i ∧ i < 8 then (if i = 4 then 0 else 1) else 0xFF

lemma sampleHeap_usedBlock : sampleHeap.UsedBlock 4 8 where
  nonempty := by decide
  header := by decide
  hop_pos := by
    intro i hb he
    have hne : i ≠ 4 := fun heq => UInt64.lt_irrefl 4 (heq ▸ hb)
    simp [sampleHeap, UInt64.le_of_lt hb, he, hne]
  hop_le := by
    intro i hb he
    have hne : i ≠ 4 := fun heq => UInt64.lt_irrefl 4 (heq ▸ hb)
    rw [UInt64.lt_iff_toNat_lt] at hb
    simp only [sampleHeap, UInt64.le_iff_toNat_le, hb.le, he, hne, and_self, if_true, if_false]
    exact Nat.le_sub_of_add_le (by rw [Nat.add_comm]; exact hb)

/-- The walk from the third segment of the block of the sample heap. -/
theorem sampleHeap_finds_block :
    (∃ n, ∀ m, n ≤ m →
      sampleHeap.segmentWalk m (sampleHeap.segmentIndex 0x1300) = some 4) ∧
    (∀ i, Loop.Visits sampleHeap.segmentStep (sampleHeap.segmentIndex 0x1300) i →
      4 ≤ i ∧ i ≤ sampleHeap.segmentIndex 0x1300) ∧
    sampleHeap.low ≤ sampleHeap.segmentAddress 4 ∧ sampleHeap.segmentAddress 4 ≤ 0x1300 ∧
    sampleHeap.segmentIndex (sampleHeap.segmentAddress 4) = 4 :=
  segmentWalk_finds_block sampleHeap 4 8 0x1300 (by decide) sampleHeap_usedBlock (by decide)
    (by decide)

/-! ## Arbitrary instructions -/

variable {blocks : List (UInt64 × UInt64)}

/-- A segment of a block lies at a multiple of 255 below the segment, possibly at the segment
itself. -/
def HopsToUsed (blocks : List (UInt64 × UInt64)) (i : UInt64) : Prop :=
  ∃ k, Used blocks k ∧ k ≤ i ∧ 255 ∣ i.toNat - k.toNat

/-- The walk from a segment never moves the index below zero, and it ends at blocks only. -/
def SafeFrom (h : CodeHeap) (blocks : List (UInt64 × UInt64)) (i : UInt64) : Prop :=
  (∀ j, Loop.Visits h.segmentStep i j → (h.segMap j).toNat ≤ j.toNat) ∧
  ∀ n j, h.segmentWalk n i = some j → ∃ e, (j, e) ∈ blocks

/-- A free segment below which a segment of a block lies at a multiple of 255 is at least 255
segments above the start of the map, and its hop keeps the property. -/
lemma HopsToUsed.of_free (hi : HopsToUsed blocks i) (hused : ¬ Used blocks i)
    (hfree : h.segMap i = 0xFF) :
    255 ≤ i.toNat ∧ HopsToUsed blocks (i - (h.segMap i).toUInt64) := by
  obtain ⟨k, hk, hki, hdvd⟩ := hi
  have hne : k ≠ i := by
    rintro rfl
    exact hused hk
  have hlt := UInt64.lt_iff_toNat_lt.mp (UInt64.lt_of_le_of_ne hki hne)
  have hfar : 255 ≤ i.toNat - k.toNat := Nat.le_of_dvd (by omega) hdvd
  have hhop : (i - (h.segMap i).toUInt64).toNat = i.toNat - 255 := by
    rw [toNat_hop (by rw [hfree]; exact (by omega : 255 ≤ i.toNat)), hfree]
    rfl
  refine ⟨by omega, k, hk, ?_, ?_⟩
  · rw [UInt64.le_iff_toNat_le, hhop]
    omega
  · rw [hhop, show i.toNat - 255 - k.toNat = i.toNat - k.toNat - 255 by omega]
    exact Nat.dvd_sub hdvd (dvd_refl 255)

/-- A hop that does not wrap leads to a segment of the heap. -/
lemma HasSegment.hop (hi : h.HasSegment i) (hle : (h.segMap i).toNat ≤ i.toNat) :
    h.HasSegment (i - (h.segMap i).toUInt64) :=
  hi.of_le (by rw [toNat_hop hle]; omega)

/-- Along the walk, a segment of a block stays at a multiple of 255 below the index. -/
lemma HopsToUsed.of_visits (hformat : h.Format blocks) (hi : HopsToUsed blocks i)
    (hheap : h.HasSegment i) (hvisits : Loop.Visits h.segmentStep i j) :
    HopsToUsed blocks j ∧ h.HasSegment j := by
  refine Loop.Visits.invariant (I := fun k => HopsToUsed blocks k ∧ h.HasSegment k) ?_
    ⟨hi, hheap⟩ hvisits
  rintro k l ⟨hk, hheapk⟩ hstep
  by_cases hused : Used blocks k
  · -- inside a block the walk stays in the block
    obtain ⟨p, hp, hpk, hkp⟩ := hused
    obtain ⟨hpl, hlk⟩ := (hformat.used p hp).of_yield hpk hkp hstep
    refine ⟨⟨l, ⟨p, hp, hpl, UInt64.lt_trans hlk hkp⟩, UInt64.le_rfl, ?_⟩, hheapk.of_le ?_⟩
    · rw [Nat.sub_self]
      exact dvd_zero _
    · exact UInt64.le_iff_toNat_le.mp (UInt64.le_of_lt hlk)
  · have hfree := hformat.free k hheapk hused
    obtain ⟨hfar, hl⟩ := hk.of_free hused hfree
    obtain ⟨-, rfl⟩ := segmentStep_eq_yield_iff.mp hstep
    exact ⟨hl, hheapk.hop (by rw [hfree]; exact hfar)⟩

/-- With a segment of a block at a multiple of 255 below it, the walk is safe. -/
lemma SafeFrom.of_hopsToUsed (hformat : h.Format blocks) (hi : HopsToUsed blocks i)
    (hheap : h.HasSegment i) : h.SafeFrom blocks i := by
  constructor
  · intro j hvisits
    obtain ⟨hj, hheapj⟩ := hi.of_visits hformat hheap hvisits
    by_cases hused : Used blocks j
    · obtain ⟨p, hp, hpj, hjp⟩ := hused
      by_cases heq : p.1 = j
      · rw [← heq, (hformat.used p hp).header]
        exact Nat.zero_le _
      · have hle := (hformat.used p hp).hop_le j (UInt64.lt_of_le_of_ne hpj heq) hjp
        omega
    · have hfree := hformat.free j hheapj hused
      rw [hfree]
      exact (hj.of_free hused hfree).1
  · intro n j hwalk
    obtain ⟨k, hvisits, hdone⟩ := Loop.exists_visits_of_run hwalk
    obtain ⟨hzero, rfl⟩ := segmentStep_eq_done_iff.mp hdone
    obtain ⟨-, hheapj⟩ := hi.of_visits hformat hheap hvisits
    by_cases hused : Used blocks j
    · obtain ⟨p, hp, hpj, hjp⟩ := hused
      rw [(hformat.used p hp).eq_of_segMap_eq_zero hpj hjp hzero]
      exact ⟨p.2, hp⟩
    · rw [hformat.free j hheapj hused] at hzero
      exact absurd hzero (by decide)

/-- Without a segment of a block at a multiple of 255 below it, the walk moves the index below zero.

**Proof sketch.** By induction on the index. The segment is free, so the walk goes back by 255
segments: below zero if there are fewer, and otherwise to a free segment of the same kind. -/
lemma exists_wrap_of_not_hopsToUsed (hformat : h.Format blocks) (hi : ¬ HopsToUsed blocks i)
    (hheap : h.HasSegment i) :
    ∃ j, Loop.Visits h.segmentStep i j ∧ j.toNat < (h.segMap j).toNat := by
  induction hm : i.toNat using Nat.strong_induction_on generalizing i with
  | _ m ih =>
    have hused : ¬ Used blocks i := by
      intro hused
      exact hi ⟨i, hused, UInt64.le_rfl, by rw [Nat.sub_self]; exact dvd_zero _⟩
    have hfree := hformat.free i hheap hused
    by_cases hfar : 255 ≤ i.toNat
    · have hle : (h.segMap i).toNat ≤ i.toNat := by
        rw [hfree]
        exact hfar
      have hhop : (i - (h.segMap i).toUInt64).toNat = i.toNat - 255 := by
        rw [toNat_hop hle, hfree]
        rfl
      have hnext : h.segmentStep i = some (.yield (i - (h.segMap i).toUInt64)) :=
        segmentStep_of_pos (by rw [hfree]; decide)
      obtain ⟨j, hvisits, hwrap⟩ := ih (i.toNat - 255) (by omega) (i := i - (h.segMap i).toUInt64)
        (by
          rintro ⟨k, hk, hki, hdvd⟩
          rw [UInt64.le_iff_toNat_le, hhop] at hki
          rw [hhop] at hdvd
          refine hi ⟨k, hk, UInt64.le_iff_toNat_le.mpr (by omega), ?_⟩
          rw [show i.toNat - k.toNat = i.toNat - 255 - k.toNat + 255 by omega]
          exact Nat.dvd_add hdvd (dvd_refl 255))
        (hheap.hop hle) hhop
      exact ⟨j, Relation.ReflTransGen.head hnext hvisits, hwrap⟩
    · refine ⟨i, Loop.Visits.refl _ i, ?_⟩
      rw [hfree]
      exact (by omega : i.toNat < 255)

/-- **The segment walk from an arbitrary instruction.** In a segment map in the format of the VM,
the walk from an instruction of the heap keeps the index at or above zero and ends at the header of
a used block, if at all, exactly when some segment at a multiple of 255 below the segment of the
instruction, or this segment, belongs to a used block: the walk takes the sentinel of a free segment
for a hop by 255 segments. -/
theorem segmentWalk_safe_iff (h : CodeHeap) (blocks : List (UInt64 × UInt64)) (ip : UInt64)
    (hformat : h.Format blocks) (hip : h.Contains ip) :
    h.SafeFrom blocks (h.segmentIndex ip) ↔ HopsToUsed blocks (h.segmentIndex ip) := by
  have hheap := hasSegment_segmentIndex hip
  constructor
  · rintro ⟨hnowrap, -⟩
    by_contra hnot
    obtain ⟨j, hvisits, hwrap⟩ := exists_wrap_of_not_hopsToUsed hformat hnot hheap
    exact absurd (hnowrap j hvisits) (not_le.mpr hwrap)
  · intro hhops
    exact SafeFrom.of_hopsToUsed hformat hhops hheap

lemma sampleHeap_format : sampleHeap.Format [(4, 8)] where
  used := by
    intro p hp
    obtain rfl := List.mem_singleton.mp hp
    exact sampleHeap_usedBlock
  free := by
    intro i _ hused
    refine if_neg fun hi => hused ⟨(4, 8), List.mem_singleton_self _, hi⟩

/-- From an instruction in the block of the sample heap the walk is safe. -/
theorem sampleHeap_safe_iff :
    sampleHeap.Contains 0x1300 ∧
    (sampleHeap.SafeFrom [(4, 8)] (sampleHeap.segmentIndex 0x1300) ↔
      HopsToUsed [(4, 8)] (sampleHeap.segmentIndex 0x1300)) :=
  ⟨by decide, segmentWalk_safe_iff sampleHeap [(4, 8)] 0x1300 sampleHeap_format (by decide)⟩

/-- From an instruction in the free segments below the block of the sample heap, the walk moves the
index below zero: it takes the sentinel at segment 3 for a hop by 255. -/
theorem sampleHeap_free_segment_wraps :
    sampleHeap.Format [(4, 8)] ∧ sampleHeap.Contains 0x1180 ∧
    sampleHeap.segmentStep (sampleHeap.segmentIndex 0x1180) = some (.yield (3 - 255)) ∧
    ¬ sampleHeap.SafeFrom [(4, 8)] (sampleHeap.segmentIndex 0x1180) := by
  refine ⟨sampleHeap_format, by decide, rfl, ?_⟩
  rintro ⟨hnowrap, -⟩
  exact absurd (hnowrap _ (Loop.Visits.refl _ _)) (by decide)

end

end CodeHeap

/-! ## The method of an instruction -/

/-- The heaps before the first one that contains the instruction play no role. -/
lemma findMethodId_append {mem : VmMemory} {vm : VmStructs} {n : ℕ} {ip fp : UInt64}
    {before heaps : List UInt64} (hbefore : ∀ p ∈ before, ¬ (mem.codeHeap vm p).Contains ip) :
    findMethodId mem vm n ip fp (before ++ heaps) = findMethodId mem vm n ip fp heaps := by
  induction before with
  | nil => rfl
  | cons p before ih =>
    obtain ⟨hp, hrest⟩ := List.forall_mem_cons.mp hbefore
    rw [List.cons_append, findMethodId, if_neg hp]
    exact ih hrest

/-- **The method of an instruction in a used block** is read from the code blob behind the header of
this block, when the blob is the interpreter or a compiled method. -/
theorem getJMethodId_of_usedBlock {mem : VmMemory} {vm : VmStructs} {ip fp id heapPtr b e : UInt64}
    {before after : List UInt64} (hfp : mem.isValid fp)
    (hbefore : ∀ p ∈ before, ¬ (mem.codeHeap vm p).Contains ip)
    (hip : (mem.codeHeap vm heapPtr).Contains ip)
    (hblock : (mem.codeHeap vm heapPtr).UsedBlock b e)
    (hb : b ≤ (mem.codeHeap vm heapPtr).segmentIndex ip)
    (he : (mem.codeHeap vm heapPtr).segmentIndex ip < e)
    (hid : codeBlobMethodId mem vm
      ((mem.codeHeap vm heapPtr).segmentAddress b + vm.heapBlockTypeSize) fp = some id)
    {n : ℕ} (hn : ((mem.codeHeap vm heapPtr).segmentIndex ip).toNat < n) :
    getJMethodId mem vm (before ++ heapPtr :: after) n ip fp = some id := by
  rw [getJMethodId, if_neg (not_not_intro hfp), findMethodId_append hbefore, findMethodId,
    if_pos hip, hblock.segmentWalk_eq hb he hn]
  simp only [hid]

end KotlinTracer
