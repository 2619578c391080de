import KotlinTracer.Unwind.Aarch64

set_option relaxedAutoImplicit false
set_option autoImplicit false

/-!
# Which frames the frame-pointer walk records

Properties of the walk of `unwind_stack` on AArch64 over an arbitrary memory: that it stays in the
stack and in the trace, which return addresses it records, and whether it makes progress.

## Main definitions

* `KotlinTracer.Aarch64.InStack` — an aligned word that lies in the stack.

## Main results

* `KotlinTracer.LinuxAarch64.unwindStack_safe` — every load lies in the stack and every write in the
  trace, for every memory and every capacity that an `int` can count.
* `KotlinTracer.Aarch64.returnAddresses_recorded_iff` — the return addresses of the frame records
  that the walk passes are all recorded iff the first one is the first instruction or is in the link
  register, or all of them are equal.
* `KotlinTracer.Aarch64.framePointers_increasing_iff` — the frame pointers increase strictly iff no
  frame record that the walk passes stores its own address.

## Design

All results follow from `Aarch64.Walked`: the frames of a walk are those along the chain, and the
loop goes on only where `Aarch64.Continues` holds. The conditions of the two equivalences are about
the memory, the registers and the answers of the VM, from which `Aarch64.Reaches` says how far a
walk gets.
-/

namespace KotlinTracer

open Aarch64

variable {env : UnwindEnv} {strip : UInt64 → UInt64} {lo hi : UInt64} {r : Registers}
  {trace : AsyncTrace} {u : Unwound} {k : ℕ}

namespace Aarch64

/-! ## Loads in the stack -/

/-- The eight bytes at the address lie in the stack, and the address is aligned. -/
structure InStack (lo hi a : UInt64) : Prop where
  le : lo ≤ a
  below : a.toNat + 8 ≤ hi.toNat
  aligned : a % 8 = 0

lemma mod_eight_eq_zero_iff {a : UInt64} : a % 8 = 0 ↔ a.toNat % 8 = 0 := by
  rw [← UInt64.toNat_inj, UInt64.toNat_mod]
  rfl

/-- The frame record at which the walk starts. -/
lemma Starts.inStack_fp (h : Starts lo hi r) (hhi : hi % 8 = 0) : InStack lo hi r.fp := by
  have hlt := UInt64.lt_iff_toNat_lt.mp h.inStack.2
  have halign := mod_eight_eq_zero_iff.mp h.aligned
  rw [mod_eight_eq_zero_iff] at hhi
  exact ⟨h.inStack.1, by omega, h.aligned⟩

/-- The frame record at which the walk goes on. The loop checks only the address of the return
address; the frame pointer below it is in the stack because it is not below the last one.

**Proof sketch.** If the addition wrapped around, an aligned frame pointer would give the address 0,
which is below the stack. -/
lemma Continues.inStack_next (h : Continues env strip lo hi r) (hlo : 0 < lo) (hhi : hi % 8 = 0)
    (hfp : InStack lo hi r.fp) :
    InStack lo hi (r.next env strip).fp ∧ InStack lo hi ((r.next env strip).fp + 8) := by
  change InStack lo hi (env.word (strip r.fp)) ∧ InStack lo hi (env.word (strip r.fp) + 8)
  obtain ⟨⟨hlow, hhigh⟩, halign, hle, -, -⟩ := h
  generalize env.word (strip r.fp) = fp at hlow hhigh halign hle ⊢
  have hbound := fp.toNat_lt
  have hlo' : 0 < lo.toNat := UInt64.lt_iff_toNat_lt.mp hlo
  have halign' := mod_eight_eq_zero_iff.mp halign
  have hhi' := mod_eight_eq_zero_iff.mp hhi
  have hle' := UInt64.le_iff_toNat_le.mp (UInt64.not_lt.mp hle)
  have hfp' := UInt64.le_iff_toNat_le.mp hfp.le
  have hadd : (fp + 8).toNat = (fp.toNat + 8) % 2 ^ 64 := UInt64.toNat_add fp 8
  have hlow' := UInt64.le_iff_toNat_le.mp hlow
  have hhigh' := UInt64.lt_iff_toNat_lt.mp hhigh
  have hnowrap : (fp + 8).toNat = fp.toNat + 8 := by omega
  refine ⟨⟨UInt64.le_iff_toNat_le.mpr (by omega), by omega, halign⟩, ⟨hlow, by omega, ?_⟩⟩
  rw [mod_eight_eq_zero_iff, hnowrap]
  omega

/-- Every frame record that the walk visits lies in the stack. -/
lemma Walked.inStack_fp (h : Walked env strip lo hi r trace u k) (hstarts : Starts lo hi r)
    (hlo : 0 < lo) (hhi : hi % 8 = 0) {i : ℕ} (hi' : i ≤ k) :
    InStack lo hi (registersAt env strip r i).fp := by
  induction i with
  | zero => exact hstarts.inStack_fp hhi
  | succ i ih =>
    rw [registersAt_succ]
    have hcontinues := (h.goesOn i hi').continues
    exact (hcontinues.inStack_next hlo hhi (ih (Nat.le_of_succ_le hi'))).1

/-- Every load of a walk is one of a word in the stack, up to the authentication code. -/
lemma Walked.loads_inStack (h : Walked env strip lo hi r trace u k) (hstarts : Starts lo hi r)
    (hlo : 0 < lo) (hhi : hi % 8 = 0) {a : UInt64} (ha : Action.load a ∈ u.actions) :
    ∃ b, a = strip b ∧ InStack lo hi b := by
  rcases h.loads a ha with ⟨i, hik, rfl⟩ | ⟨i, hik, hcontinues, rfl⟩
  · exact ⟨_, rfl, h.inStack_fp hstarts hlo hhi hik⟩
  · refine ⟨_, rfl, ?_⟩
    rw [registersAt_succ]
    exact (hcontinues.inStack_next hlo hhi (h.inStack_fp hstarts hlo hhi hik)).2

/-- The walk is defined if the capacity of the trace is an `int`.

**Proof sketch.** The index counts the iterations and stays below the capacity. -/
lemma exists_unwindStack (hsize : 1 ≤ trace.size) (hint : trace.size < 2 ^ 31) :
    ∃ u, unwindStack env strip lo hi r trace = some u := by
  unfold unwindStack
  split_ifs with hchecks
  · exact ⟨_, rfl⟩
  · obtain ⟨s, hs⟩ : ∃ s, Loop.run (unwindStep env strip lo hi trace.size) (trace.size + 1)
        ⟨r, 0, trace.instructions, []⟩ = some s := by
      refine Loop.exists_run_of_measure (I := fun s => s.traceIndex < trace.size)
        (μ := fun s => trace.size - s.traceIndex) ?_ hsize (Nat.lt_succ_self _)
      intro s hs
      have hdefined : (∃ s', unwindStep env strip lo hi trace.size s = some (.done s')) ∨
          unwindStep env strip lo hi trace.size s = some (.yield (s.next env strip)) :=
        unwindStep_defined (by omega)
      rcases hdefined with hdone | hyield
      · exact .inl hdone
      · have hlt := (unwindStep_eq_yield hyield).2.room
        have hindex : (s.next env strip).traceIndex = s.traceIndex + 1 := rfl
        exact .inr ⟨_, hyield, by omega, by omega⟩
    rw [hs]
    exact ⟨_, rfl⟩

end Aarch64

/-- **The walk on Linux is safe** for every memory content, all registers, every stack `[lo, hi)`
above address 0 with an aligned end, every answer of the VM and every capacity from 1 to
`2 ^ 31 - 1`: it is defined; every load is one of eight aligned bytes in the stack; every write is
one to a slot of the trace; the size at the end is at most the capacity; every slot below it was
written, and the slots are the result of these writes. -/
theorem LinuxAarch64.unwindStack_safe (env : UnwindEnv) (lo hi : UInt64) (r : Registers)
    (trace : AsyncTrace) (hlo : 0 < lo) (hhi : hi % 8 = 0) (hsize : 1 ≤ trace.size)
    (hint : trace.size < 2 ^ 31) :
    ∃ u, LinuxAarch64.unwindStack env lo hi r trace = some u ∧
      (∀ a, Action.load a ∈ u.actions → InStack lo hi a) ∧
      (∀ i ip fp info, Action.write i ip fp info ∈ u.actions → i < trace.size) ∧
      u.trace.size ≤ trace.size ∧
      (∀ i < u.trace.size, ∃ ip fp info, Action.write i ip fp info ∈ u.actions) ∧
      u.trace.instructions = applyWrites u.actions trace.instructions := by
  obtain ⟨u, hu⟩ : ∃ u, Aarch64.unwindStack env id lo hi r trace = some u :=
    exists_unwindStack hsize hint
  refine ⟨u, hu, ?_⟩
  rcases Walked.of_unwindStack hu with ⟨rfl, -⟩ | ⟨hstarts, k, hwalked⟩
  · simp [applyWrites]
  · have hk : k < trace.size := by
      cases k with
      | zero => exact hsize
      | succ k => exact (hwalked.goesOn k (Nat.lt_succ_self k)).room
    have hlast := hwalked.size
    refine ⟨?_, ?_, by omega, ?_, hwalked.instructions⟩
    · intro a ha
      obtain ⟨b, rfl, hb⟩ := hwalked.loads_inStack hstarts hlo hhi ha
      exact hb
    · intro i ip fp info hwrite
      exact lt_of_le_of_lt ((hwalked.writes i).mp ⟨ip, fp, info, hwrite⟩) hk
    · intro i hi'
      exact (hwalked.writes i).mpr (by omega)

/-- A frame record that stores its own address. -/
def selfLoopEnv : UnwindEnv where
  word := fun a => if a = 0x1008 then 0x40 else 0x1000
  isJavaFrame := fun _ _ => false
  getJMethodId := fun _ _ _ => 0

/-- Registers that point to this frame record. -/
def selfLoopRegisters : Registers := ⟨0x40, 0x1000, 0x40⟩

/-- Walking along this frame record, into a trace of the capacity that the profiler uses. -/
theorem LinuxAarch64.unwindStack_safe_selfLoop :
    ∃ u, LinuxAarch64.unwindStack selfLoopEnv 0x1000 0x2000 selfLoopRegisters
        ⟨List.replicate 30 ⟨0, 0, false⟩, 30, 1⟩ = some u ∧
      (∀ a, Action.load a ∈ u.actions → InStack 0x1000 0x2000 a) ∧
      (∀ i ip fp info, Action.write i ip fp info ∈ u.actions → i < 30) ∧
      u.trace.size ≤ 30 ∧
      (∀ i < u.trace.size, ∃ ip fp info, Action.write i ip fp info ∈ u.actions) ∧
      u.trace.instructions = applyWrites u.actions (List.replicate 30 ⟨0, 0, false⟩) :=
  LinuxAarch64.unwindStack_safe selfLoopEnv 0x1000 0x2000 selfLoopRegisters
    ⟨List.replicate 30 ⟨0, 0, false⟩, 30, 1⟩ (by decide) (by decide) (by decide) (by decide)

namespace Aarch64

/-- An iteration at the frame record that stores its own address goes on with the same registers, as
long as the trace has room. -/
lemma unwindStep_selfLoop {capacity : ℕ} {s : WalkState} (hr : s.registers = selfLoopRegisters)
    (hint : s.traceIndex + 1 < 2 ^ 31) (hroom : s.traceIndex + 1 < capacity) :
    unwindStep selfLoopEnv id 0x1000 0x2000 capacity s =
        some (.yield (s.next selfLoopEnv id)) ∧
      (s.next selfLoopEnv id).registers = selfLoopRegisters := by
  obtain ⟨registers, traceIndex, instructions, actions⟩ := s
  obtain rfl : registers = selfLoopRegisters := hr
  refine ⟨?_, rfl⟩
  have hcontinues : Continues selfLoopEnv id 0x1000 0x2000 selfLoopRegisters :=
    ⟨by decide, by decide, by decide, by decide, by decide⟩
  have hgo := continues_iff (s := ⟨selfLoopRegisters, traceIndex, instructions, actions⟩).mp
    hcontinues
  unfold unwindStep
  dsimp only
  rw [if_pos hint, if_neg hgo, if_pos ⟨rfl, hroom⟩]
  rfl

/-- A walk that never ends before the index overflows is undefined.

**Proof sketch.** Induction on the iterations: the index is at most `2 ^ 31 - 1`, and incrementing
that one is undefined. -/
lemma run_selfLoop {capacity : ℕ} (hcapacity : 2 ^ 31 ≤ capacity) (n : ℕ) (s : WalkState)
    (hr : s.registers = selfLoopRegisters) (hindex : s.traceIndex < 2 ^ 31) :
    Loop.run (unwindStep selfLoopEnv id 0x1000 0x2000 capacity) n s = none := by
  induction n generalizing s with
  | zero => rfl
  | succ n ih =>
    by_cases hint : s.traceIndex + 1 < 2 ^ 31
    · have hroom : s.traceIndex + 1 < capacity := by omega
      obtain ⟨hstep, hnext⟩ := unwindStep_selfLoop hr hint hroom
      rw [Loop.run_of_yield hstep]
      exact ih _ hnext hint
    · refine Loop.run_of_undefined ?_
      unfold unwindStep
      rw [if_neg hint]

end Aarch64

/-- **The index overflows in a trace of `2 ^ 31` slots**: on a frame record that stores its own
address the walk is undefined. -/
theorem LinuxAarch64.unwindStack_overflow :
    LinuxAarch64.unwindStack selfLoopEnv 0x1000 0x2000 selfLoopRegisters
      ⟨List.replicate (2 ^ 31) ⟨0, 0, false⟩, 2 ^ 31, 1⟩ = none := by
  unfold LinuxAarch64.unwindStack Aarch64.unwindStack
  rw [if_neg (by decide), run_selfLoop le_rfl _ _ rfl (by norm_num)]
  rfl

namespace Aarch64

/-! ## Return addresses -/

/-- The frames of a defined walk: none, or those along the chain. -/
lemma frames_eq_range (h : unwindStack env strip lo hi r trace = some u) :
    u.frames = (List.range u.frames.length).map fun i =>
      ((registersAt env strip r i).ip, (registersAt env strip r i).fp) := by
  rcases Walked.of_unwindStack h with ⟨rfl, -⟩ | ⟨-, k, hwalked⟩
  · rfl
  · rw [hwalked.frames, List.length_map, List.length_range]

/-- The instruction pointers of the frames: the first two are in the registers, and then each one is
the return address of the frame record before. -/
lemma ips_eq (n : ℕ) :
    (List.range (n + 2)).map (fun i => (registersAt env strip r i).ip) =
      r.ip :: strip r.lr :: (List.range n).map fun i =>
        returnAddress env strip (framePointerAt env strip r.fp (i + 1)) := by
  rw [List.range_succ_eq_map, List.range_succ_eq_map]
  simp only [List.map_cons, List.map_map]
  refine List.cons_eq_cons.mpr ⟨rfl, List.cons_eq_cons.mpr ⟨rfl, List.map_congr_left ?_⟩⟩
  intro i _
  exact ip_registersAt_add_two r i

/-- The values of a function at the first numbers do not change when they are shifted by one exactly
if they are all equal. -/
lemma map_range_eq_shift_iff {α : Type*} {g : ℕ → α} {n : ℕ} :
    (List.range n).map g = (List.range n).map (fun i => g (i + 1)) ↔ ∀ i ≤ n, g i = g 0 := by
  constructor
  · intro h i hi
    have hstep : ∀ i < n, g i = g (i + 1) := by
      intro i hi
      have hget := congrArg (·[i]?) h
      simpa [hi] using hget
    induction i with
    | zero => rfl
    | succ i ih => rw [← hstep i hi, ih (Nat.le_of_succ_le hi)]
  · intro h
    refine List.map_congr_left fun i hi => ?_
    rw [List.mem_range] at hi
    rw [h i (by omega), h (i + 1) (by omega)]

/-- A list, and the list shifted by one behind two other elements: the list is a part of it, in
order, only if its first element is one of the two, or if the shift does not matter. -/
lemma sublist_shift_iff {α : Type*} {g : ℕ → α} {a b : α} (n : ℕ) :
    ((List.range n).map g).Sublist (a :: b :: (List.range n).map fun i => g (i + 1)) ↔
      n = 0 ∨ g 0 = a ∨ g 0 = b ∨ ∀ i ≤ n, g i = g 0 := by
  cases n with
  | zero => simp
  | succ n =>
    have hlist : (List.range (n + 1)).map g =
        g 0 :: (List.range n).map (fun i => g (i + 1)) := by
      rw [List.range_succ_eq_map, List.map_cons, List.map_map]
      rfl
    have hpart : ((List.range n).map (fun i => g (i + 1))).Sublist
        ((List.range (n + 1)).map fun i => g (i + 1)) := by
      rw [List.range_succ, List.map_append]
      exact List.sublist_append_left _ _
    constructor
    · intro h
      by_cases ha : g 0 = a
      · exact .inr (.inl ha)
      by_cases hb : g 0 = b
      · exact .inr (.inr (.inl hb))
      -- neither of the two is used, so the list is a part of its shift, of the same length
      rw [hlist, List.cons_sublist_cons', List.cons_sublist_cons'] at h
      have hsub := (h.resolve_right fun h => ha h.1).resolve_right fun h => hb h.1
      rw [← hlist] at hsub
      exact .inr (.inr (.inr (map_range_eq_shift_iff.mp (hsub.eq_of_length (by simp)))))
    · rintro (hzero | ha | hb | hconst)
      · cases hzero
      · rw [hlist, ha]
        exact List.Sublist.cons_cons a (hpart.cons b)
      · rw [hlist, hb]
        exact (List.Sublist.cons_cons b hpart).cons a
      · rw [map_range_eq_shift_iff.mpr hconst]
        exact ((List.Sublist.refl _).cons b).cons a

/-- **Return addresses that the walk records.** For every memory, all registers and every capacity:
let the walk record the frames `0, …, k`. The return addresses in the frame records `0, …, k - 2`
are among the recorded instruction pointers, in their order, exactly when the walk does not get to a
third frame, or the first one is the instruction pointer or in the link register, or those of the
frame records that the walk leaves for a next one are all equal: the walk never reads the return
address of the first frame record, and reports the link register in its place.

**Proof sketch.** The recorded instruction pointers are the first one, the link register and the
return addresses of the frame records `1, …, k - 1`. -/
theorem returnAddresses_recorded_iff (env : UnwindEnv) (strip : UInt64 → UInt64) (lo hi : UInt64)
    (r : Registers) (trace : AsyncTrace) (u : Unwound)
    (h : unwindStack env strip lo hi r trace = some u) :
    ((u.frames.take (u.frames.length - 2)).map fun f => returnAddress env strip f.2).Sublist
        (u.frames.map Prod.fst) ↔
      ¬ Reaches env strip lo hi trace.size r 2 ∨ returnAddress env strip r.fp = r.ip ∨
      returnAddress env strip r.fp = strip r.lr ∨
      ∀ i, Reaches env strip lo hi trace.size r (i + 1) →
        returnAddress env strip (framePointerAt env strip r.fp i) =
          returnAddress env strip r.fp := by
  simp only [← lt_length_frames_iff h, not_lt]
  have hframes := frames_eq_range h
  generalize u.frames = frames at hframes ⊢
  by_cases hshort : frames.length < 2
  · have hnone : frames.length - 2 = 0 := by omega
    simp [hnone, hshort.le]
  · obtain ⟨n, hn⟩ := Nat.exists_eq_add_of_le' (not_lt.mp hshort)
    have hips : frames.map Prod.fst = r.ip :: strip r.lr :: (List.range n).map fun i =>
        returnAddress env strip (framePointerAt env strip r.fp (i + 1)) := by
      rw [hframes, List.map_map, hn]
      exact ips_eq n
    have hreturns : (frames.take (frames.length - 2)).map
          (fun f => returnAddress env strip f.2) =
        (List.range n).map fun i =>
          returnAddress env strip (framePointerAt env strip r.fp i) := by
      rw [hn, Nat.add_sub_cancel, hframes, hn, ← List.map_take, List.take_range,
        min_eq_left (Nat.le_add_right n 2), List.map_map]
      refine List.map_congr_left fun i _ => ?_
      rw [← fp_registersAt]
      rfl
    have hshift := sublist_shift_iff (a := r.ip) (b := strip r.lr) n
      (g := fun i => returnAddress env strip (framePointerAt env strip r.fp i))
    rw [hreturns, hips, hshift, hn]
    simp only [show n + 2 ≤ 2 ↔ n = 0 by omega, show ∀ i, i + 1 < n + 2 ↔ i ≤ n by omega]
    rfl

/-- A chain of four frame records, the last one the outermost. -/
def chainEnv : UnwindEnv where
  word := fun a =>
    if a = 0x1000 then 0x1010 else if a = 0x1008 then 0x50
    else if a = 0x1010 then 0x1020 else if a = 0x1018 then 0x60
    else if a = 0x1020 then 0x1030 else if a = 0x1028 then 0x70
    else if a = 0x1038 then 0x80 else 0
  isJavaFrame := fun _ _ => false
  getJMethodId := fun _ _ _ => 0

/-- The walk along this chain on Linux, into a trace of the capacity that the profiler uses. -/
def chainWalk (lr : UInt64) : Option Unwound :=
  unwindStack chainEnv id 0x1000 0x2000 ⟨0x40, 0x1000, lr⟩
    ⟨List.replicate 30 ⟨0, 0, false⟩, 30, 1⟩

/-- With the return address of the first frame record in the link register, the walk along the chain
records the return addresses in their order. -/
theorem returnAddresses_recorded_chainWalk :
    ∃ u, chainWalk 0x50 = some u ∧
      ((u.frames.take (u.frames.length - 2)).map fun f => returnAddress chainEnv id f.2).Sublist
        (u.frames.map Prod.fst) := by
  obtain ⟨u, hu⟩ : ∃ u, chainWalk 0x50 = some u := exists_unwindStack (by decide) (by decide)
  refine ⟨u, hu, ?_⟩
  refine (returnAddresses_recorded_iff chainEnv id 0x1000 0x2000 ⟨0x40, 0x1000, 0x50⟩ _ u hu).mpr ?_
  exact .inr (.inr (.inl (by decide)))

/-- **A return address is skipped**: with the return address of a finished call in the link
register, the one of the first frame record is not recorded. -/
theorem returnAddress_skipped_chainWalk :
    ∃ u, chainWalk 0x48 = some u ∧
      u.frames = [(0x40, 0x1000), (0x48, 0x1010), (0x60, 0x1020), (0x70, 0x1030)] ∧
      returnAddress chainEnv id 0x1000 = 0x50 ∧ 0x50 ∉ u.frames.map Prod.fst := by
  have hframes : (chainWalk 0x48).map Unwound.frames =
      some [(0x40, 0x1000), (0x48, 0x1010), (0x60, 0x1020), (0x70, 0x1030)] := by decide
  obtain ⟨u, hu, hframes⟩ := Option.map_eq_some_iff.mp hframes
  refine ⟨u, hu, hframes, by decide, ?_⟩
  rw [hframes]
  decide

/-! ## Progress -/

/-- The frame pointers of a walk do not decrease. -/
lemma Walked.framePointerAt_le (h : Walked env strip lo hi r trace u k) {i : ℕ} (hik : i < k) :
    framePointerAt env strip r.fp i ≤ framePointerAt env strip r.fp (i + 1) := by
  have hle := (h.goesOn i hik).continues.le
  rw [← fp_registersAt, ← fp_registersAt, registersAt_succ]
  exact UInt64.not_lt.mp hle

/-- **Progress of the walk.** For every memory, all registers and every capacity: the frame pointers
of the recorded frames increase strictly exactly when no frame record that the walk leaves for a
next one stores its own address.

**Proof sketch.** The loop goes on only if the next frame pointer is not below the last one, so the
frame pointers never decrease; that they are equal is not excluded. -/
theorem framePointers_increasing_iff (env : UnwindEnv) (strip : UInt64 → UInt64) (lo hi : UInt64)
    (r : Registers) (trace : AsyncTrace) (u : Unwound)
    (h : unwindStack env strip lo hi r trace = some u) :
    (u.frames.map Prod.snd).Pairwise (fun a b => a < b) ↔
      ∀ i, Reaches env strip lo hi trace.size r (i + 1) →
        env.word (strip (framePointerAt env strip r.fp i)) ≠ framePointerAt env strip r.fp i := by
  simp only [← lt_length_frames_iff h]
  have hsucc : ∀ i, framePointerAt env strip r.fp (i + 1) =
      env.word (strip (framePointerAt env strip r.fp i)) := fun i => by
    unfold framePointerAt
    rw [Function.iterate_succ_apply']
  have hle : ∀ i, i + 1 < u.frames.length →
      framePointerAt env strip r.fp i ≤ framePointerAt env strip r.fp (i + 1) := by
    intro i hi'
    rcases Walked.of_unwindStack h with ⟨rfl, -⟩ | ⟨-, k, hwalked⟩
    · exact absurd hi' (Nat.not_lt_zero _)
    · rw [hwalked.frames, List.length_map, List.length_range] at hi'
      exact hwalked.framePointerAt_le (by omega)
  have hfps : u.frames.map Prod.snd =
      (List.range u.frames.length).map (framePointerAt env strip r.fp) := by
    conv_lhs => rw [frames_eq_range h]
    rw [List.map_map]
    refine List.map_congr_left fun i _ => ?_
    rw [← fp_registersAt]
    rfl
  rw [hfps, List.pairwise_map, List.pairwise_iff_getElem]
  simp only [List.length_range, List.getElem_range]
  constructor
  · intro hlt i hi' heq
    have hstep := hlt i (i + 1) (by omega) hi' (Nat.lt_succ_self i)
    rw [hsucc, heq] at hstep
    exact UInt64.lt_irrefl _ hstep
  · intro hne i j hi' hj hij
    have hstep : ∀ i, i + 1 < u.frames.length →
        framePointerAt env strip r.fp i < framePointerAt env strip r.fp (i + 1) := by
      intro i hi'
      refine UInt64.lt_of_le_of_ne (hle i hi') fun heq => hne i hi' ?_
      rw [← hsucc]
      exact heq.symm
    induction j, hij using Nat.le_induction with
    | base => exact hstep i hj
    | succ j hij ih => exact UInt64.lt_trans (ih (by omega)) (hstep j hj)

/-- Along the chain of four frame records the frame pointers increase. -/
theorem framePointers_increasing_chainWalk :
    ∃ u, chainWalk 0x50 = some u ∧ (u.frames.map Prod.snd).Pairwise (fun a b => a < b) := by
  have hframes : (chainWalk 0x50).map (fun u => u.frames.length) = some 4 := by decide
  obtain ⟨u, hu, hlength⟩ := Option.map_eq_some_iff.mp hframes
  refine ⟨u, hu, ?_⟩
  refine (framePointers_increasing_iff chainEnv id 0x1000 0x2000 ⟨0x40, 0x1000, 0x50⟩ _ u hu).mpr ?_
  intro i hreaches
  have hlt := (lt_length_frames_iff hu).mpr hreaches
  rw [hlength] at hlt
  have hcases : i = 0 ∨ i = 1 ∨ i = 2 := by omega
  rcases hcases with rfl | rfl | rfl <;> decide

/-- **A frame record that stores its own address fills the trace** with repetitions of one frame. -/
theorem framePointers_selfLoop :
    ∃ u, LinuxAarch64.unwindStack selfLoopEnv 0x1000 0x2000 selfLoopRegisters
        ⟨List.replicate 30 ⟨0, 0, false⟩, 30, 1⟩ = some u ∧
      u.trace.size = 30 ∧ u.frames = List.replicate 30 (0x40, 0x1000) ∧
      ¬ (u.frames.map Prod.snd).Pairwise (fun a b => a < b) := by
  have hwalk : (LinuxAarch64.unwindStack selfLoopEnv 0x1000 0x2000 selfLoopRegisters
      ⟨List.replicate 30 ⟨0, 0, false⟩, 30, 1⟩).map (fun u => (u.trace.size, u.frames)) =
        some (30, List.replicate 30 (0x40, 0x1000)) := by decide
  obtain ⟨u, hu, hend⟩ := Option.map_eq_some_iff.mp hwalk
  simp only [Prod.mk.injEq] at hend
  obtain ⟨hsize, hframes⟩ := hend
  refine ⟨u, hu, hsize, hframes, ?_⟩
  rw [hframes]
  decide

end Aarch64

end KotlinTracer
