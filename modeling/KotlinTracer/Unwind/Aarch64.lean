import KotlinTracer.Lib.Loop
import KotlinTracer.Profiler.Callbacks

set_option relaxedAutoImplicit false
set_option autoImplicit false

/-!
# The frame-pointer walk on AArch64

`unwind_stack` on AArch64 (`profiler/unwind/linux_aarch64.inline.hpp` and
`profiler/unwind/apple_aarch64.inline.hpp`). The walk starts from the registers of the interrupted
function. A frame record holds the frame pointer of the caller and, eight bytes above it, a return
address; the walk follows the chain of the frame pointers as far as it goes up in the stack of the
thread.

## Main definitions

* `KotlinTracer.Aarch64.unwindStep`, `KotlinTracer.Aarch64.unwindStack` — an iteration of the loop,
  and the whole walk, with the loads and the writes that it makes.
* `KotlinTracer.LinuxAarch64.unwindStack`, `KotlinTracer.AppleAarch64.unwindStack` — the walk on the
  two systems, which differ in the authentication codes of pointers.
* `KotlinTracer.Aarch64.registersAt` — the registers along the chain, as far as it goes.

## Main results

* `KotlinTracer.Aarch64.Walked.of_unwindStack` — what a walk has done: the registers of its frames
  are those along the chain.
* `KotlinTracer.Aarch64.lt_length_frames_iff` — how many frames a walk records.

What follows for the loads, the return addresses and the progress of the walk is in
`KotlinTracer.Unwind.FrameChain`.

## Design

Registers and words of memory are `UInt64`, so that address arithmetic wraps. The memory is an
arbitrary function from addresses to words, and the answers of the VM are arbitrary functions of the
iteration and of its registers. `trace_index` is an `int`: to increment it beyond `2 ^ 31 - 1` is
undefined, and so is the walk then.
-/

namespace KotlinTracer

namespace Aarch64

/-! ## The walk -/

/-- The memory that the walk reads, by the address of a word, and the answers of the VM about the
frame of an iteration. -/
structure UnwindEnv where
  word : UInt64 → UInt64
  isJavaFrame : ℕ → UInt64 → Bool
  getJMethodId : ℕ → UInt64 → UInt64 → JMethodID

/-- The registers of the walk. -/
structure Registers where
  ip : UInt64
  fp : UInt64
  lr : UInt64
deriving DecidableEq

/-- A write of a frame to `instructions[index]`, with the instruction and the frame pointer it is
for, or a load of a word. -/
inductive Action
  | write (index : ℕ) (ip fp : UInt64) (info : InstructionInfo)
  | load (address : UInt64)
deriving DecidableEq

/-- The variables of the loop of `unwind_stack`, and what it has done so far. -/
structure WalkState where
  registers : Registers
  traceIndex : ℕ
  instructions : List InstructionInfo
  actions : List Action
deriving DecidableEq

/-- `is_pointer_in_stack`. -/
def isPointerInStack (ptr lo hi : UInt64) : Prop := lo ≤ ptr ∧ ptr < hi

instance (ptr lo hi : UInt64) : Decidable (isPointerInStack ptr lo hi) :=
  inferInstanceAs (Decidable (lo ≤ ptr ∧ ptr < hi))

/-- The frame that the walk writes in an iteration, and whether it is `processed`. -/
def frame (env : UnwindEnv) (iteration : ℕ) (r : Registers) : InstructionInfo × Bool :=
  if ¬ env.isJavaFrame iteration r.ip then (⟨r.ip.toBitVec.toInt, r.fp.toNat, false⟩, true)
  else
    let jmethodId := env.getJMethodId iteration r.ip r.fp
    (⟨jmethodId, 0, true⟩, jmethodId ≠ 0)

/-- Write the frame and increment the index. -/
@[simps registers traceIndex instructions actions]
def WalkState.writeFrame (env : UnwindEnv) (s : WalkState) : WalkState where
  registers := s.registers
  traceIndex := s.traceIndex + 1
  instructions := s.instructions.set s.traceIndex (frame env s.traceIndex s.registers).1
  actions := s.actions ++ [.write s.traceIndex s.registers.ip s.registers.fp
    (frame env s.traceIndex s.registers).1]

/-- Load the frame pointer of the caller. -/
@[simps registers traceIndex instructions actions]
def WalkState.loadFp (env : UnwindEnv) (strip : UInt64 → UInt64) (s : WalkState) :
    WalkState where
  registers := { s.registers with fp := env.word (strip s.registers.fp) }
  traceIndex := s.traceIndex
  instructions := s.instructions
  actions := s.actions ++ [.load (strip s.registers.fp)]

/-- Go on at the link register, and load the next one. -/
@[simps registers traceIndex instructions actions]
def WalkState.loadLr (env : UnwindEnv) (strip : UInt64 → UInt64) (s : WalkState) :
    WalkState where
  registers :=
    { ip := strip s.registers.lr
      fp := s.registers.fp
      lr := env.word (strip (s.registers.fp + 8)) }
  traceIndex := s.traceIndex
  instructions := s.instructions
  actions := s.actions ++ [.load (strip (s.registers.fp + 8))]

/-- An iteration of the loop of `unwind_stack`; `strip` removes the authentication code of a
pointer. Incrementing an index of `2 ^ 31 - 1` is undefined. -/
def unwindStep (env : UnwindEnv) (strip : UInt64 → UInt64) (lo hi : UInt64) (capacity : ℕ)
    (s : WalkState) : Option (ForInStep WalkState) :=
  let processed := (frame env s.traceIndex s.registers).2
  if s.traceIndex + 1 < 2 ^ 31 then
    let lastFp := s.registers.fp
    let s := (s.writeFrame env).loadFp env strip
    if ¬ isPointerInStack (s.registers.fp + 8) lo hi ∨ s.registers.fp % 8 ≠ 0 ∨
        s.registers.fp < lastFp ∨ s.registers.fp = 0 ∨ s.registers.lr = 0 then
      some (.done s)
    else
      let s := s.loadLr env strip
      if processed ∧ s.traceIndex < capacity then some (.yield s) else some (.done s)
  else none

/-- The trace after a walk, and what the walk did. -/
structure Unwound where
  trace : AsyncTrace
  actions : List Action

/-- `unwind_stack` from the registers of the interrupted function. The loop makes at most as many
iterations as the trace has slots, and at least one. -/
def unwindStack (env : UnwindEnv) (strip : UInt64 → UInt64) (lo hi : UInt64) (r : Registers)
    (trace : AsyncTrace) : Option Unwound :=
  if ¬ isPointerInStack r.fp lo hi ∨ r.fp % 8 ≠ 0 ∨ r.fp = 0 ∨ r.ip = 0 then
    some ⟨{ trace with size := 0 }, []⟩
  else
    (Loop.run (unwindStep env strip lo hi trace.size) (trace.size + 1)
      ⟨r, 0, trace.instructions, []⟩).map fun s =>
        ⟨{ trace with size := s.traceIndex, instructions := s.instructions }, s.actions⟩

/-- The instruction and frame pointers of the frames that a list of actions writes. -/
def framesOf (actions : List Action) : List (UInt64 × UInt64) :=
  actions.filterMap fun
    | .write _ ip fp _ => some (ip, fp)
    | .load _ => none

/-- The frames that the walk recorded: their instruction and frame pointers. -/
def Unwound.frames (u : Unwound) : List (UInt64 × UInt64) := framesOf u.actions

end Aarch64

/-- `unwind_stack` on Linux. -/
def LinuxAarch64.unwindStack (env : Aarch64.UnwindEnv) (lo hi : UInt64) (r : Aarch64.Registers)
    (trace : AsyncTrace) : Option Aarch64.Unwound :=
  Aarch64.unwindStack env id lo hi r trace

/-- `unwind_stack` on macOS, where `strip_pointer` removes the authentication code of a pointer
before it is followed. -/
def AppleAarch64.unwindStack (env : Aarch64.UnwindEnv) (stripPointer : UInt64 → UInt64)
    (lo hi : UInt64) (r : Aarch64.Registers) (trace : AsyncTrace) : Option Aarch64.Unwound :=
  Aarch64.unwindStack env stripPointer lo hi r trace

namespace Aarch64

/-! ## The chain -/

section Chain

variable (env : UnwindEnv) (strip : UInt64 → UInt64)

/-- The registers of the caller, as the walk computes them. -/
def Registers.next (r : Registers) : Registers where
  ip := strip r.lr
  fp := env.word (strip r.fp)
  lr := env.word (strip (env.word (strip r.fp) + 8))

/-- The registers after `i` steps along the chain. -/
def registersAt (r : Registers) (i : ℕ) : Registers := (Registers.next env strip)^[i] r

/-- The frame pointer after `i` steps along the chain: every frame record stores the next one. -/
def framePointerAt (fp : UInt64) (i : ℕ) : UInt64 := (fun a => env.word (strip a))^[i] fp

/-- The return address in the frame record at a frame pointer. -/
def returnAddress (fp : UInt64) : UInt64 := strip (env.word (strip (fp + 8)))

variable {env strip}

lemma registersAt_succ (r : Registers) (i : ℕ) :
    registersAt env strip r (i + 1) = (registersAt env strip r i).next env strip := by
  unfold registersAt
  rw [Function.iterate_succ_apply']

lemma fp_registersAt (r : Registers) (i : ℕ) :
    (registersAt env strip r i).fp = framePointerAt env strip r.fp i := by
  induction i with
  | zero => rfl
  | succ i ih =>
    unfold framePointerAt at ih ⊢
    rw [registersAt_succ, Function.iterate_succ_apply', ← ih]
    rfl

/-- The walk reports the return address of a frame record one frame late. -/
lemma ip_registersAt_add_two (r : Registers) (i : ℕ) :
    (registersAt env strip r (i + 2)).ip =
      returnAddress env strip (framePointerAt env strip r.fp (i + 1)) := by
  rw [registersAt_succ, registersAt_succ, ← fp_registersAt, registersAt_succ]
  rfl

end Chain

/-- The loop goes on after the frame with these registers: the next frame record lies in the stack,
not below this one, and there is a return address. -/
structure Continues (env : UnwindEnv) (strip : UInt64 → UInt64) (lo hi : UInt64) (r : Registers) :
    Prop where
  inStack : isPointerInStack (env.word (strip r.fp) + 8) lo hi
  aligned : env.word (strip r.fp) % 8 = 0
  le : ¬ env.word (strip r.fp) < r.fp
  ne_zero : env.word (strip r.fp) ≠ 0
  lr_ne_zero : r.lr ≠ 0

/-- The walk goes on after iteration `i` with these registers: the chain goes on, the frame was
resolved, and the trace has room for another one. -/
structure GoesOn (env : UnwindEnv) (strip : UInt64 → UInt64) (lo hi : UInt64) (capacity i : ℕ)
    (r : Registers) : Prop where
  continues : Continues env strip lo hi r
  processed : (frame env i r).2 = true
  room : i + 1 < capacity

section Step

variable {env : UnwindEnv} {strip : UInt64 → UInt64} {lo hi : UInt64} {capacity : ℕ}
  {s s' : WalkState}

/-- The state after an iteration that follows the chain. -/
def WalkState.next (env : UnwindEnv) (strip : UInt64 → UInt64) (s : WalkState) : WalkState :=
  ((s.writeFrame env).loadFp env strip).loadLr env strip

lemma continues_iff :
    Continues env strip lo hi s.registers ↔
      ¬ (¬ isPointerInStack (((s.writeFrame env).loadFp env strip).registers.fp + 8) lo hi ∨
        ((s.writeFrame env).loadFp env strip).registers.fp % 8 ≠ 0 ∨
        ((s.writeFrame env).loadFp env strip).registers.fp < s.registers.fp ∨
        ((s.writeFrame env).loadFp env strip).registers.fp = 0 ∨
        ((s.writeFrame env).loadFp env strip).registers.lr = 0) := by
  simp only [WalkState.loadFp_registers, WalkState.writeFrame_registers]
  constructor
  · rintro ⟨hin, halign, hle, hne, hlr⟩
    simp [hin, halign, hle, hne, hlr]
  · intro h
    push Not at h
    obtain ⟨hin, halign, hle, hne, hlr⟩ := h
    exact ⟨hin, halign, hle, hne, hlr⟩

/-- What an iteration does that goes on. -/
lemma unwindStep_eq_yield (h : unwindStep env strip lo hi capacity s = some (.yield s')) :
    s' = s.next env strip ∧ GoesOn env strip lo hi capacity s.traceIndex s.registers := by
  unfold unwindStep at h
  dsimp only at h
  split_ifs at h with hint hleave hgo
  · cases h
  · cases h
    exact ⟨rfl, continues_iff.mpr hleave, hgo.1, hgo.2⟩
  · cases h

/-- What the last iteration does: it writes its frame and loads the next frame pointer, and if the
chain could be followed further, it does this too. -/
lemma unwindStep_eq_done (h : unwindStep env strip lo hi capacity s = some (.done s')) :
    ¬ GoesOn env strip lo hi capacity s.traceIndex s.registers ∧
      (s' = (s.writeFrame env).loadFp env strip ∨
        s' = s.next env strip ∧ Continues env strip lo hi s.registers) := by
  unfold unwindStep at h
  dsimp only at h
  split_ifs at h with hint hleave hgo
  · cases h
    exact ⟨fun hgoesOn => continues_iff.mp hgoesOn.continues hleave, .inl rfl⟩
  · cases h
  · cases h
    exact ⟨fun hgoesOn => hgo ⟨hgoesOn.processed, hgoesOn.room⟩,
      .inr ⟨rfl, continues_iff.mpr hleave⟩⟩

/-- Below the largest `int`, an iteration is defined. -/
lemma unwindStep_defined (hint : s.traceIndex + 1 < 2 ^ 31) :
    (∃ s', unwindStep env strip lo hi capacity s = some (.done s')) ∨
      unwindStep env strip lo hi capacity s = some (.yield (s.next env strip)) := by
  unfold unwindStep
  dsimp only
  rw [if_pos hint]
  split_ifs with hleave hgo
  · exact .inl ⟨_, rfl⟩
  · exact .inr rfl
  · exact .inl ⟨_, rfl⟩

end Step

/-! ## What a walk does -/

/-- The actions of an iteration that follows the chain. -/
def iterationActions (env : UnwindEnv) (strip : UInt64 → UInt64) (i : ℕ) (r : Registers) :
    List Action :=
  [.write i r.ip r.fp (frame env i r).1, .load (strip r.fp),
    .load (strip ((r.next env strip).fp + 8))]

/-- The slots of a trace after the writes among the actions. -/
def applyWrites (actions : List Action) (instructions : List InstructionInfo) :
    List InstructionInfo :=
  actions.foldl (fun instructions action =>
    match action with
    | .write index _ _ info => instructions.set index info
    | .load _ => instructions) instructions

/-- A state of the loop after `i` iterations from the registers `r`. -/
structure Follows (env : UnwindEnv) (strip : UInt64 → UInt64) (lo hi : UInt64) (capacity : ℕ)
    (r : Registers) (instructions : List InstructionInfo) (i : ℕ) (s : WalkState) : Prop where
  registers : s.registers = registersAt env strip r i
  traceIndex : s.traceIndex = i
  actions : s.actions = (List.range i).flatMap fun j =>
    iterationActions env strip j (registersAt env strip r j)
  instructions : s.instructions = applyWrites s.actions instructions
  goesOn : ∀ j < i, GoesOn env strip lo hi capacity j (registersAt env strip r j)

section Walk

variable {env : UnwindEnv} {strip : UInt64 → UInt64} {lo hi : UInt64} {capacity : ℕ}
  {r : Registers} {instructions : List InstructionInfo} {i : ℕ} {s s' : WalkState}

/-- Writing a frame and loading a word keep the slots the result of the writes. -/
lemma instructions_loadFp (h : s.instructions = applyWrites s.actions instructions) :
    ((s.writeFrame env).loadFp env strip).instructions =
      applyWrites ((s.writeFrame env).loadFp env strip).actions instructions := by
  simp only [WalkState.loadFp_actions, WalkState.writeFrame_actions,
    WalkState.loadFp_instructions, WalkState.writeFrame_instructions, h, applyWrites,
    List.foldl_append, List.foldl_cons, List.foldl_nil]

/-- The actions of one more iteration along the chain. -/
lemma Follows.actions_next (h : Follows env strip lo hi capacity r instructions i s) :
    (s.next env strip).actions = (List.range (i + 1)).flatMap fun j =>
      iterationActions env strip j (registersAt env strip r j) := by
  rw [List.range_succ, List.flatMap_append, ← h.actions, List.flatMap_singleton, ← h.registers]
  simp only [WalkState.next, WalkState.loadLr_actions, WalkState.loadFp_actions,
    WalkState.writeFrame_actions, WalkState.loadFp_registers, WalkState.writeFrame_registers,
    h.traceIndex, List.append_assoc, iterationActions]
  rfl

lemma Follows.instructions_next (h : Follows env strip lo hi capacity r instructions i s) :
    (s.next env strip).instructions = applyWrites (s.next env strip).actions instructions := by
  rw [WalkState.next, WalkState.loadLr_instructions, instructions_loadFp h.instructions,
    WalkState.loadLr_actions]
  unfold applyWrites
  rw [List.foldl_append, List.foldl_cons, List.foldl_nil]

/-- One more iteration along the chain. -/
lemma Follows.next (h : Follows env strip lo hi capacity r instructions i s)
    (hgoesOn : GoesOn env strip lo hi capacity s.traceIndex s.registers) :
    Follows env strip lo hi capacity r instructions (i + 1) (s.next env strip) where
  registers := by
    rw [registersAt_succ, ← h.registers]
    rfl
  traceIndex := by
    rw [← h.traceIndex]
    rfl
  actions := h.actions_next
  instructions := h.instructions_next
  goesOn := by
    intro j hj
    rcases Nat.lt_succ_iff_lt_or_eq.mp hj with hj | rfl
    · exact h.goesOn j hj
    · rw [h.traceIndex, h.registers] at hgoesOn
      exact hgoesOn

/-- Every iteration of the loop is one along the chain. -/
lemma Follows.of_visits
    (h : Loop.Visits (unwindStep env strip lo hi capacity) ⟨r, 0, instructions, []⟩ s) :
    ∃ i, Follows env strip lo hi capacity r instructions i s := by
  refine Loop.Visits.invariant
    (I := fun s => ∃ i, Follows env strip lo hi capacity r instructions i s) ?_ ⟨0, ?_⟩ h
  · rintro s s' ⟨i, hfollows⟩ hstep
    obtain ⟨rfl, hgoesOn⟩ := unwindStep_eq_yield hstep
    exact ⟨i + 1, hfollows.next hgoesOn⟩
  · exact ⟨rfl, rfl, rfl, rfl, fun j hj => absurd hj (Nat.not_lt_zero j)⟩

/-- The frames that the iterations along the chain write. -/
lemma framesOf_iterationActions (k : ℕ) :
    framesOf ((List.range k).flatMap fun j =>
        iterationActions env strip j (registersAt env strip r j)) =
      (List.range k).map fun j =>
        ((registersAt env strip r j).ip, (registersAt env strip r j).fp) := by
  induction k with
  | zero => rfl
  | succ k ih =>
    rw [List.range_succ, List.flatMap_append, List.map_append, ← ih, List.flatMap_singleton]
    unfold framesOf
    rw [List.filterMap_append]
    rfl

/-- What a walk that passes the checks at its start has done: it wrote `k + 1` frames, one after the
other as long as it could go on. -/
structure Walked (env : UnwindEnv) (strip : UInt64 → UInt64) (lo hi : UInt64) (r : Registers)
    (trace : AsyncTrace) (u : Unwound) (k : ℕ) : Prop where
  size : u.trace.size = k + 1
  goesOn : ∀ i < k, GoesOn env strip lo hi trace.size i (registersAt env strip r i)
  ends : ¬ GoesOn env strip lo hi trace.size k (registersAt env strip r k)
  frames : u.frames = (List.range (k + 1)).map fun i =>
    ((registersAt env strip r i).ip, (registersAt env strip r i).fp)
  writes : ∀ i, (∃ ip fp info, Action.write i ip fp info ∈ u.actions) ↔ i ≤ k
  loads : ∀ a, Action.load a ∈ u.actions →
    (∃ i ≤ k, a = strip (registersAt env strip r i).fp) ∨
    ∃ i ≤ k, Continues env strip lo hi (registersAt env strip r i) ∧
      a = strip ((registersAt env strip r (i + 1)).fp + 8)
  instructions : u.trace.instructions = applyWrites u.actions trace.instructions

/-- The last iteration, after `k` iterations along the chain. -/
lemma Walked.of_last {trace : AsyncTrace} {k : ℕ}
    (h : Follows env strip lo hi trace.size r trace.instructions k s)
    (hends : ¬ GoesOn env strip lo hi trace.size s.traceIndex s.registers) {last : List Action}
    (hlast : last = [] ∨ Continues env strip lo hi s.registers ∧
      last = [.load (strip ((registersAt env strip r (k + 1)).fp + 8))])
    (hindex : s'.traceIndex = k + 1)
    (hinstructions : s'.instructions = applyWrites s'.actions trace.instructions)
    (hactions : s'.actions = s.actions ++
      (.write k s.registers.ip s.registers.fp (frame env k s.registers).1 ::
        .load (strip s.registers.fp) :: last)) :
    Walked env strip lo hi r trace
      ⟨{ trace with size := s'.traceIndex, instructions := s'.instructions }, s'.actions⟩ k := by
  rw [h.traceIndex] at hends
  rw [h.registers] at hends hactions hlast
  have hmem : ∀ a, a ∈ s'.actions ↔ (∃ i < k, a ∈ iterationActions env strip i
        (registersAt env strip r i)) ∨
      a = .write k (registersAt env strip r k).ip (registersAt env strip r k).fp
        (frame env k (registersAt env strip r k)).1 ∨
      a = .load (strip (registersAt env strip r k).fp) ∨ a ∈ last := by
    intro a
    rw [hactions, h.actions, List.mem_append, List.mem_flatMap]
    simp [List.mem_range]
  refine ⟨hindex, h.goesOn, hends, ?_, ?_, ?_, hinstructions⟩
  · change framesOf s'.actions = _
    rw [hactions, h.actions, List.range_succ, List.map_append, ← framesOf_iterationActions]
    unfold framesOf
    rw [List.filterMap_append]
    rcases hlast with rfl | ⟨-, rfl⟩ <;> rfl
  · intro i
    constructor
    · rintro ⟨ip, fp, info, hwrite⟩
      rcases (hmem _).mp hwrite with ⟨j, hj, hj'⟩ | heq | heq | hin
      · simp only [iterationActions, List.mem_cons, Action.write.injEq, reduceCtorEq,
          List.not_mem_nil, or_false] at hj'
        omega
      · simp only [Action.write.injEq] at heq
        omega
      · cases heq
      · rcases hlast with rfl | ⟨-, rfl⟩
        · cases hin
        · simp at hin
    · intro hi
      rcases Nat.lt_or_eq_of_le hi with hlt | rfl
      · exact ⟨_, _, _, (hmem _).mpr (.inl ⟨i, hlt, List.mem_cons_self⟩)⟩
      · exact ⟨_, _, _, (hmem _).mpr (.inr (.inl rfl))⟩
  · intro a hload
    rcases (hmem _).mp hload with ⟨j, hj, hj'⟩ | heq | heq | hin
    · simp only [iterationActions, List.mem_cons, reduceCtorEq, Action.load.injEq,
        List.not_mem_nil, or_false, false_or] at hj'
      rcases hj' with rfl | rfl
      · exact .inl ⟨j, hj.le, rfl⟩
      · exact .inr ⟨j, hj.le, (h.goesOn j hj).continues, by rw [registersAt_succ]⟩
    · cases heq
    · exact .inl ⟨k, le_rfl, Action.load.inj heq⟩
    · rcases hlast with rfl | ⟨hcontinues, rfl⟩
      · cases hin
      · exact .inr ⟨k, le_rfl, hcontinues, Action.load.inj (List.mem_singleton.mp hin)⟩

/-- The checks at the start of `unwind_stack`. -/
structure Starts (lo hi : UInt64) (r : Registers) : Prop where
  inStack : isPointerInStack r.fp lo hi
  aligned : r.fp % 8 = 0
  fp_ne_zero : r.fp ≠ 0
  ip_ne_zero : r.ip ≠ 0

lemma starts_iff :
    Starts lo hi r ↔
      ¬ (¬ isPointerInStack r.fp lo hi ∨ r.fp % 8 ≠ 0 ∨ r.fp = 0 ∨ r.ip = 0) := by
  constructor
  · rintro ⟨hin, halign, hfp, hip⟩
    simp [hin, halign, hfp, hip]
  · intro h
    push Not at h
    obtain ⟨hin, halign, hfp, hip⟩ := h
    exact ⟨hin, halign, hfp, hip⟩

/-- **What a walk does.** A defined walk either fails the checks at its start and leaves the trace
empty, or it has followed the chain from the registers.

**Proof sketch.** The iterations that the loop visits are those along the chain; the last one
writes one more frame. -/
theorem Walked.of_unwindStack {trace : AsyncTrace} {u : Unwound}
    (h : unwindStack env strip lo hi r trace = some u) :
    u = ⟨{ trace with size := 0 }, []⟩ ∧ ¬ Starts lo hi r ∨
      Starts lo hi r ∧ ∃ k, Walked env strip lo hi r trace u k := by
  unfold unwindStack at h
  split_ifs at h with hchecks
  · refine .inl ⟨(Option.some.inj h).symm, fun hstarts => ?_⟩
    exact starts_iff.mp hstarts hchecks
  · obtain ⟨s', hrun, rfl⟩ := Option.map_eq_some_iff.mp h
    obtain ⟨s, hvisits, hdone⟩ := Loop.exists_visits_of_run hrun
    obtain ⟨k, hfollows⟩ := Follows.of_visits hvisits
    refine .inr ⟨starts_iff.mpr hchecks, k, ?_⟩
    obtain ⟨hends, rfl | ⟨rfl, hcontinues⟩⟩ := unwindStep_eq_done hdone
    · refine Walked.of_last hfollows hends (.inl rfl) ?_
        (instructions_loadFp hfollows.instructions) ?_
      · simp [hfollows.traceIndex]
      · simp [hfollows.traceIndex]
    · refine Walked.of_last hfollows hends (.inr ⟨hcontinues, rfl⟩) ?_
        hfollows.instructions_next ?_
      · rw [← hfollows.traceIndex]
        rfl
      · rw [hfollows.actions_next, List.range_succ, List.flatMap_append, ← hfollows.actions,
          List.flatMap_singleton, ← hfollows.registers, registersAt_succ, ← hfollows.registers]
        rfl

/-- The walk gets to frame `n` of the chain: it passes the checks at its start, and goes on after
every frame before. -/
structure Reaches (env : UnwindEnv) (strip : UInt64 → UInt64) (lo hi : UInt64) (capacity : ℕ)
    (r : Registers) (n : ℕ) : Prop where
  starts : Starts lo hi r
  goesOn : ∀ i < n, GoesOn env strip lo hi capacity i (registersAt env strip r i)

/-- **The frames that a walk records** are those that it gets to: how many there are is read off the
memory, the registers and the answers of the VM. -/
theorem lt_length_frames_iff {trace : AsyncTrace} {u : Unwound}
    (h : unwindStack env strip lo hi r trace = some u) {n : ℕ} :
    n < u.frames.length ↔ Reaches env strip lo hi trace.size r n := by
  rcases Walked.of_unwindStack h with ⟨rfl, hstarts⟩ | ⟨hstarts, k, hwalked⟩
  · exact ⟨fun hn => absurd hn (Nat.not_lt_zero n), fun hreaches => absurd hreaches.starts hstarts⟩
  · rw [hwalked.frames, List.length_map, List.length_range]
    constructor
    · intro hn
      exact ⟨hstarts, fun i hi => hwalked.goesOn i (by omega)⟩
    · intro hreaches
      by_contra hn
      exact hwalked.ends (hreaches.goesOn k (by omega))

end Walk

end Aarch64

end KotlinTracer
