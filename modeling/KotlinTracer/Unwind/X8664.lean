import KotlinTracer.Sampler.Handoff

set_option relaxedAutoImplicit false
set_option autoImplicit false

/-!
# The cursor walks on x86-64

`unwind_stack` on x86-64 takes the frames from a cursor of libunwind. The model of the one on Linux
(`profiler/unwind/linux_x86_64.inline.hpp`) is part of the sampler; this module adds the one on
macOS (`profiler/unwind/apple_x86_64.inline.hpp`) and compares the two on the same cursor.

## Main definitions

* `KotlinTracer.AppleX8664.unwindStack`, `KotlinTracer.LinuxX8664.unwindStack` — the walks on the
  two systems, with an `int` as index.
* `KotlinTracer.Resolvable` — the cursors on which the two are meant to agree.

## Main results

* `KotlinTracer.unwindStack_agree_iff` — on such a cursor both walks give the first frames up to the
  capacity iff the trace has less room than the cursor has frames.

## Design

The list of a cursor holds the instruction and frame pointers of its frames, from the frame of the
interrupted function on. `trace_index` starts at 0 and is incremented once for every frame that is
counted; as an `int` it overflows, with undefined behaviour, when there are `2 ^ 31` of them.
-/

namespace KotlinTracer

/-! ## The walk on macOS -/

/-- What the sampler asks from outside on macOS. -/
structure AppleEnv extends SamplerEnv where
  /-- Whether `dladdr` finds the image of an address. -/
  dladdr : ℕ → Bool

namespace AppleX8664

/-- What `unwind_stack` writes for a frame, `none` leaving the slot as it is, and whether the frame
is `processed`. -/
def unwindFrame (env : AppleEnv) (lo hi ip rbp : ℕ) : Option InstructionInfo × Bool :=
  if env.dladdr ip then (some ⟨ip, rbp, false⟩, true)
  else if isPointerInStack rbp lo hi then
    (some ⟨env.getJMethodId ip rbp, 0, true⟩, env.getJMethodId ip rbp ≠ 0)
  else (none, false)

/-- Write a frame to a slot, or leave the slot as it is. -/
def writeFrame (instructions : List InstructionInfo) (index : ℕ) :
    Option InstructionInfo → List InstructionInfo
  | some instructionInfo => instructions.set index instructionInfo
  | none => instructions

/-- The loop of `unwind_stack`, with the instruction and frame pointer of the current frame and
those that the cursor still has to give. The index is incremented only when the cursor has given a
next frame. -/
def unwindLoop (env : AppleEnv) (lo hi size : ℕ) :
    (current : ℕ × ℕ) → List (ℕ × ℕ) → (index : ℕ) → List InstructionInfo →
      ℕ × List InstructionInfo
  | (ip, rbp), [], index, instructions =>
    (index, writeFrame instructions index (unwindFrame env lo hi ip rbp).1)
  | (ip, rbp), (ip', rbp') :: cursor, index, instructions =>
    let instructions := writeFrame instructions index (unwindFrame env lo hi ip rbp).1
    if ip = ip' ∨ rbp' = 0 then (index, instructions)
    else if (unwindFrame env lo hi ip rbp).2 ∧ index + 1 < size then
      unwindLoop env lo hi size (ip', rbp') cursor (index + 1) instructions
    else (index + 1, instructions)

/-- `unwind_stack` on macOS, from the frame of the interrupted function on. -/
def unwindStack (env : AppleEnv) (current : ℕ × ℕ) (cursor : List (ℕ × ℕ)) (lo hi : ℕ)
    (trace : AsyncTrace) : Option AsyncTrace :=
  let unwound := unwindLoop env lo hi trace.size current cursor 0 trace.instructions
  if unwound.1 < 2 ^ 31 then some { trace with instructions := unwound.2, size := unwound.1 }
  else none

end AppleX8664

/-- `unwind_stack` on Linux, from the frame of the interrupted function on: the walk of the sampler,
undefined when its index overflows. -/
def LinuxX8664.unwindStack (env : SamplerEnv) (current : ℕ × ℕ) (cursor : List (ℕ × ℕ)) (lo hi : ℕ)
    (trace : AsyncTrace) : Option AsyncTrace :=
  let unwound := KotlinTracer.unwindStack env (current :: cursor) lo hi trace
  if unwound.size < 2 ^ 31 then some unwound else none

/-- The frames of a trace. -/
def AsyncTrace.frames (trace : AsyncTrace) : List InstructionInfo :=
  trace.instructions.take trace.size

/-! ## Resolvable cursors -/

/-- The frame at a position of a cursor. -/
def frameAt (env : SamplerEnv) (position : ℕ × ℕ) : InstructionInfo :=
  if env.isJavaFrame position.1 then ⟨env.getJMethodId position.1 position.2, 0, true⟩
  else ⟨position.1, position.2, false⟩

/-- A cursor all whose frames can be resolved: the frame pointers are not null, consecutive
instruction pointers differ, `dladdr` finds exactly the frames that are not Java frames, and a Java
frame has its frame pointer in the stack and a method. -/
structure Resolvable (env : AppleEnv) (lo hi : ℕ) (cursor : List (ℕ × ℕ)) : Prop where
  rbp_ne_zero : ∀ x ∈ cursor, x.2 ≠ 0
  ip_ne : cursor.IsChain fun x y => x.1 ≠ y.1
  dladdr_iff : ∀ x ∈ cursor, env.dladdr x.1 = !env.isJavaFrame x.1
  inStack : ∀ x ∈ cursor, env.isJavaFrame x.1 → isPointerInStack x.2 lo hi
  method : ∀ x ∈ cursor, env.isJavaFrame x.1 → env.getJMethodId x.1 x.2 ≠ 0

namespace Resolvable

variable {env : AppleEnv} {lo hi : ℕ} {x : ℕ × ℕ} {cursor : List (ℕ × ℕ)}

/-- The rest of a resolvable cursor. -/
lemma tail (h : Resolvable env lo hi (x :: cursor)) : Resolvable env lo hi cursor where
  rbp_ne_zero := fun y hy => h.rbp_ne_zero y (List.mem_cons_of_mem x hy)
  ip_ne := List.IsChain.of_cons h.ip_ne
  dladdr_iff := fun y hy => h.dladdr_iff y (List.mem_cons_of_mem x hy)
  inStack := fun y hy => h.inStack y (List.mem_cons_of_mem x hy)
  method := fun y hy => h.method y (List.mem_cons_of_mem x hy)

/-- On Linux the frame is written. -/
lemma unwindFrame_linux (h : Resolvable env lo hi (x :: cursor)) :
    unwindFrame env.toSamplerEnv lo hi x.1 x.2 = some (frameAt env.toSamplerEnv x) := by
  unfold unwindFrame frameAt
  by_cases hjava : env.isJavaFrame x.1
  · simp [hjava, h.inStack x List.mem_cons_self hjava]
  · simp [hjava]

/-- On macOS the frame is written, and it is processed. -/
lemma unwindFrame_apple (h : Resolvable env lo hi (x :: cursor)) :
    AppleX8664.unwindFrame env lo hi x.1 x.2 = (some (frameAt env.toSamplerEnv x), true) := by
  have hdladdr := h.dladdr_iff x List.mem_cons_self
  unfold AppleX8664.unwindFrame frameAt
  by_cases hjava : env.isJavaFrame x.1
  · simp [hdladdr, hjava, h.inStack x List.mem_cons_self hjava,
      h.method x List.mem_cons_self hjava]
  · simp [hdladdr, hjava]

end Resolvable

/-! ## The two loops -/

section Loops

variable {env : AppleEnv} {lo hi size index : ℕ} {instructions : List InstructionInfo}

/-- Writing the next slot extends the slots before it. -/
lemma take_succ_set (info : InstructionInfo) (h : index < instructions.length) :
    (instructions.set index info).take (index + 1) = instructions.take index ++ [info] := by
  rw [List.take_add_one, List.take_set_of_le le_rfl, List.getElem?_set_self h]
  rfl

/-- The loop on Linux writes the frames of the cursor, as long as there is room. The test of the
last frame pointer never ends the loop: it compares a variable with itself.

**Proof sketch.** Induction on the cursor. -/
lemma unwindLoop_linux {cursor : List (ℕ × ℕ)} {lrbp rbp : ℕ}
    (h : Resolvable env lo hi cursor) (hrbp : lrbp = 0 ∨ lrbp = rbp) (hindex : index < size)
    (hsize : instructions.length = size) :
    let unwound := unwindLoop env.toSamplerEnv lo hi size cursor lrbp rbp index instructions
    unwound.1 = index + min cursor.length (size - index) ∧
      unwound.2.take unwound.1 = instructions.take index ++
        (cursor.map (frameAt env.toSamplerEnv)).take (size - index) := by
  induction cursor generalizing lrbp rbp index instructions with
  | nil => simp [unwindLoop]
  | cons x cursor ih =>
    obtain ⟨ip, rbp'⟩ := x
    have hgo : ¬ (lrbp ≠ 0 ∧ lrbp < rbp) := by omega
    have hwrite := take_succ_set (frameAt env.toSamplerEnv (ip, rbp')) (hsize ▸ hindex)
    have hsize' : (instructions.set index (frameAt env.toSamplerEnv (ip, rbp'))).length = size := by
      rw [List.length_set, hsize]
    rw [unwindLoop, if_neg hgo, h.unwindFrame_linux]
    obtain ⟨room, hroom⟩ : ∃ room, size - index = room + 1 := ⟨size - index - 1, by omega⟩
    dsimp only
    split_ifs with hlt
    · obtain ⟨hcount, hframes⟩ := ih h.tail (.inr rfl) hlt hsize'
      refine ⟨?_, ?_⟩
      · rw [hcount, List.length_cons]
        omega
      · rw [hframes, hwrite, hroom, show size - (index + 1) = room by omega, List.map_cons,
          List.take_succ_cons, List.append_assoc]
        rfl
    · obtain rfl : room = 0 := by omega
      refine ⟨?_, ?_⟩
      · rw [hroom, List.length_cons]
        omega
      · rw [hwrite, hroom, List.map_cons, List.take_succ_cons, List.take_zero]

/-- The loop on macOS counts a frame only when the cursor has given the next one.

**Proof sketch.** Induction on the rest of the cursor. -/
lemma unwindLoop_apple {current : ℕ × ℕ} {cursor : List (ℕ × ℕ)}
    (h : Resolvable env lo hi (current :: cursor)) (hindex : index < size)
    (hsize : instructions.length = size) :
    let unwound := AppleX8664.unwindLoop env lo hi size current cursor index instructions
    unwound.1 = index + min cursor.length (size - index) ∧
      unwound.2.take unwound.1 = instructions.take index ++
        ((current :: cursor).map (frameAt env.toSamplerEnv)).take
          (min cursor.length (size - index)) := by
  induction cursor generalizing current index instructions with
  | nil =>
    rw [AppleX8664.unwindLoop, h.unwindFrame_apple]
    simp [AppleX8664.writeFrame, List.take_set_of_le]
  | cons x cursor ih =>
    obtain ⟨ip, rbp⟩ := current
    obtain ⟨ip', rbp'⟩ := x
    have hne : ip ≠ ip' := (List.isChain_cons_cons.mp h.ip_ne).1
    have hrbp : rbp' ≠ 0 := h.rbp_ne_zero (ip', rbp') (List.mem_cons_of_mem _ List.mem_cons_self)
    have hwrite := take_succ_set (frameAt env.toSamplerEnv (ip, rbp)) (hsize ▸ hindex)
    have hsize' : (instructions.set index (frameAt env.toSamplerEnv (ip, rbp))).length = size := by
      rw [List.length_set, hsize]
    rw [AppleX8664.unwindLoop, h.unwindFrame_apple]
    dsimp only [AppleX8664.writeFrame]
    rw [if_neg (by simp [hne, hrbp])]
    obtain ⟨room, hroom⟩ : ∃ room, size - index = room + 1 := ⟨size - index - 1, by omega⟩
    have hmin : min (cursor.length + 1) (room + 1) = min cursor.length room + 1 := by omega
    split_ifs with hlt
    · obtain ⟨hcount, hframes⟩ := ih h.tail hlt.2 hsize'
      refine ⟨?_, ?_⟩
      · rw [hcount, List.length_cons]
        omega
      · rw [hframes, hwrite, hroom, show size - (index + 1) = room by omega, List.length_cons, hmin,
          List.map_cons (l := (ip', rbp') :: cursor), List.take_succ_cons, List.append_assoc]
        rfl
    · have hfull : ¬ index + 1 < size := fun hlt' => hlt ⟨rfl, hlt'⟩
      obtain rfl : room = 0 := by omega
      refine ⟨?_, ?_⟩
      · rw [hroom, List.length_cons]
        omega
      · rw [hwrite, hroom, List.length_cons, hmin, Nat.min_zero, List.map_cons,
          List.take_succ_cons, List.take_zero]

end Loops

/-! ## The comparison -/

/-- **The two walks on x86-64.** For every resolvable cursor and every trace with at least one slot,
the walks on Linux and on macOS are defined and both give the first frames of the cursor, as many as
there are and as there is room for, exactly when there is less room than frames (and the room is an
`int`): the loop on macOS is left when the cursor has no next frame, before the last frame is
counted.

**Proof sketch.** On Linux the walk gives the frames up to the capacity, on macOS those frames
except the last one of the cursor. -/
theorem unwindStack_agree_iff (env : AppleEnv) (lo hi : ℕ) (current : ℕ × ℕ)
    (cursor : List (ℕ × ℕ)) (trace : AsyncTrace) (h : Resolvable env lo hi (current :: cursor))
    (hsize : 1 ≤ trace.size) (hslots : trace.instructions.length = trace.size) :
    (∃ linux apple,
      LinuxX8664.unwindStack env.toSamplerEnv current cursor lo hi trace = some linux ∧
      AppleX8664.unwindStack env current cursor lo hi trace = some apple ∧
      linux.frames =
        ((current :: cursor).map (frameAt env.toSamplerEnv)).take
          (min (current :: cursor).length trace.size) ∧
      apple.frames =
        ((current :: cursor).map (frameAt env.toSamplerEnv)).take
          (min (current :: cursor).length trace.size)) ↔
      trace.size < (current :: cursor).length ∧ trace.size < 2 ^ 31 := by
  have hstart : (0 : ℕ) = 0 ∨ (0 : ℕ) = 0 := .inl rfl
  obtain ⟨hlinux, hlinuxFrames⟩ := unwindLoop_linux h hstart hsize hslots
  obtain ⟨happle, happleFrames⟩ := unwindLoop_apple h hsize hslots
  rw [Nat.zero_add, Nat.sub_zero] at hlinux happle
  rw [List.take_zero, List.nil_append, Nat.sub_zero] at hlinuxFrames happleFrames
  have hlinuxSize : (KotlinTracer.unwindStack env.toSamplerEnv (current :: cursor) lo hi
      trace).size = min (current :: cursor).length trace.size := hlinux
  have hlength : (current :: cursor).length = cursor.length + 1 := rfl
  constructor
  · rintro ⟨linux, apple, hl, ha, hlf, haf⟩
    simp only [AppleX8664.unwindStack] at ha
    split_ifs at ha with hint
    obtain rfl := Option.some.inj ha
    have hcount := congrArg List.length (happleFrames.symm.trans haf)
    rw [List.length_take, List.length_take, List.length_map, hlength] at hcount
    rw [happle] at hint
    omega
  · rintro ⟨hroom, hint⟩
    have hmin : min cursor.length trace.size = min (current :: cursor).length trace.size := by
      omega
    refine ⟨_, _, if_pos ?_, if_pos ?_, ?_, ?_⟩
    · rw [hlinuxSize]
      omega
    · rw [happle]
      omega
    · refine hlinuxFrames.trans ?_
      rw [min_eq_right hroom.le]
    · exact happleFrames.trans (by rw [hmin])

/-- A configuration on macOS without Java frames. -/
def AppleEnv.native : AppleEnv where
  toEnv := .sample
  hashPThread t := t
  isJavaFrame _ := false
  getJMethodId _ _ := 0
  dladdr _ := true

lemma resolvable_native {cursor : List (ℕ × ℕ)} (hrbp : ∀ x ∈ cursor, x.2 ≠ 0)
    (hip : cursor.IsChain fun x y => x.1 ≠ y.1) : Resolvable .native 0 100 cursor where
  rbp_ne_zero := hrbp
  ip_ne := hip
  dladdr_iff := fun _ _ => rfl
  inStack := fun _ _ hjava => absurd hjava Bool.false_ne_true
  method := fun _ _ hjava => absurd hjava Bool.false_ne_true

/-- With room for one of the two frames the walks agree. -/
theorem unwindStack_agree_native :
    ∃ linux apple,
      LinuxX8664.unwindStack AppleEnv.native.toSamplerEnv (16, 1) [(32, 2)] 0 100
        ⟨[⟨0, 0, false⟩], 1, 1⟩ = some linux ∧
      AppleX8664.unwindStack .native (16, 1) [(32, 2)] 0 100 ⟨[⟨0, 0, false⟩], 1, 1⟩ =
        some apple ∧
      linux.frames = [⟨16, 1, false⟩] ∧ apple.frames = [⟨16, 1, false⟩] :=
  (unwindStack_agree_iff .native 0 100 (16, 1) [(32, 2)] ⟨[⟨0, 0, false⟩], 1, 1⟩
    (resolvable_native (by decide) (by decide)) (by decide) rfl).mpr (by decide)

/-- **The walk on macOS misses the last frame**: of a cursor with one frame, and with room for 30,
the walk on Linux gives the frame and the one on macOS gives none. -/
theorem unwindStack_apple_misses_last :
    Resolvable .native 0 100 [(16, 1)] ∧
    (LinuxX8664.unwindStack AppleEnv.native.toSamplerEnv (16, 1) [] 0 100
      ⟨List.replicate 30 ⟨0, 0, false⟩, 30, 1⟩).map AsyncTrace.frames = some [⟨16, 1, false⟩] ∧
    (AppleX8664.unwindStack .native (16, 1) [] 0 100
      ⟨List.replicate 30 ⟨0, 0, false⟩, 30, 1⟩).map AsyncTrace.frames = some [] :=
  ⟨resolvable_native (by decide) (by decide), by decide, by decide⟩

end KotlinTracer
