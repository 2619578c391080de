import KotlinTracer.Lib.SharedMutex

set_option relaxedAutoImplicit false
set_option autoImplicit false

/-!
# The life cycle of the agent

Loading and unloading the agent (`agent.cpp`, `agent.hpp`, `Profiler::create` and `Profiler::stop`
of `profiler/profiler.cpp`), and who uses its objects meanwhile. The events of the coroutines and of
the garbage collector take the lock of `agent.cpp` shared and test `agent`; unloading takes it
exclusively. The other events of the VM, the thread that samples, the thread that cleans the storage
and the signal handlers take no lock. The profiler has two owners, `Agent::profiler_` and
`Profiler::instance_`.

## Main definitions

* `KotlinTracer.Process` — the static variables of the process and its objects.
* `KotlinTracer.AgentPosition` — where a thread is.
* `KotlinTracer.agentSystem` — the threads of the process.

## Main results

* `KotlinTracer.agent_guards` — the positions say how a thread holds the lock.
* `KotlinTracer.guarded_access_alive` — a callback that takes the lock uses living objects only.
* `KotlinTracer.profiler_deleted_by_both` — the profiler is deleted by both of its owners.
* `KotlinTracer.sampler_access_freed` — whenever the agent can be unloaded while the thread that
  samples runs, this thread can go on with a profiler that is deleted.

## Design

`Agent_OnLoad` is one step: the VM calls it before any other thread exists. An access to an object
is a step, which reports whether the object is alive; what a callback does with the object is the
subject of `KotlinTracer.Profiler`. A handler runs on top of whatever its thread does. The static
destructors at the end of the process run in either order, and a `unique_ptr` is null once its
object is being deleted.
-/

namespace KotlinTracer

/-! ## The process -/

/-- The objects of the agent: the `Agent` and what it owns. The storage is a part of the profiler.
-/
inductive AgentObject
  | agent
  | jvm
  | profiler
  | instrumentation
deriving DecidableEq

/-- An object is not created yet, alive or freed. -/
inductive Lifetime
  | unborn
  | alive
  | freed
deriving DecidableEq

/-- The threads that the agent starts: the one that samples and the cleaner of the storage. -/
inductive AgentThread
  | sampler
  | cleaner
deriving DecidableEq

/-- The static variables of the process, its objects, and the threads that are about to start. -/
structure Process where
  /-- `attached`. -/
  attached : Bool := false
  /-- `agent` is not null. -/
  agent : Bool := false
  /-- `Profiler::instance_` is not null. -/
  hasInstance : Bool := false
  lifetime : AgentObject → Lifetime := fun _ => .unborn
  /-- The flags `active_` of the profiler and of the storage. -/
  active : AgentThread → Bool := fun _ => false
  starting : AgentThread → ℕ := fun _ => 0
  mutex : SharedMutex := {}

/-- Who uses an object. -/
inductive Party
  /-- A callback that takes the lock. -/
  | guarded
  /-- A callback that does not. -/
  | unguarded
  | thread (thread : AgentThread)
  | handler
  | destructor
deriving DecidableEq

/-- The owners of the profiler; the first one owns the other objects too. -/
inductive Owner
  | agent
  | profilerInstance
deriving DecidableEq

/-- What a step does beyond changing the process. -/
inductive AgentEffect
  /-- `Agent_OnLoad` has created the agent. -/
  | loaded
  /-- An access to an object, and whether it was alive. -/
  | accessed (party : Party) (object : AgentObject) (alive : Bool)
  /-- A `delete`, and whether the object was alive. -/
  | deleted (owner : Owner) (object : AgentObject) (alive : Bool)
  /-- A null pointer is followed. -/
  | nullDereference
deriving DecidableEq

/-- A step of `~Agent`. -/
inductive Destruction
  /-- `profiler_->stop()`. -/
  | stop
  | delete (object : AgentObject)
deriving DecidableEq

/-- `~Agent`, which deletes the members in reverse order, and the `delete` of the agent. -/
def agentDestructor : List Destruction :=
  [.stop, .delete .instrumentation, .delete .profiler, .delete .jvm, .delete .agent]

/-- What is left to do at the end of the process: a static destructor, or a step of one. -/
inductive ExitStep
  | destroy (owner : Owner)
  | step (destruction : Destruction)
deriving DecidableEq

/-- Where a thread is. -/
inductive AgentPosition
  /-- In no code of the agent. -/
  | idle
  /-- In a callback with the lock, before the test of `agent`. -/
  | testing
  /-- In a callback with the lock, behind the test. -/
  | inside
  /-- In a callback without the lock, which has read `agent`. -/
  | unguarded
  /-- In the loop of a thread of the agent. -/
  | running (thread : AgentThread)
  /-- In `Agent_OnUnload`, with the lock, before `agent` is reset. -/
  | resetting
  /-- In `Agent_OnUnload`, with the lock, with these steps left. -/
  | unloading (todo : List Destruction)
  /-- In the static destructors. -/
  | exiting (todo : List ExitStep)
  /-- In the signal handler, which has interrupted the thread. -/
  | handler (interrupted : AgentPosition)
deriving DecidableEq

/-- What a thread does next. -/
inductive AgentAction
  /-- `Agent_OnLoad`; without success, an exception leaves it before the agent exists. -/
  | load (success : Bool)
  /-- Call a callback that takes the lock. -/
  | enterGuarded
  | test
  /-- Call a callback that does not. -/
  | enterUnguarded
  | access (object : AgentObject)
  /-- `startProfiler`, from `VMInit`. -/
  | startProfiler
  /-- Start the loop of a thread of the agent. -/
  | startThread (thread : AgentThread)
  /-- The test of `active_` in this loop. -/
  | testActive
  /-- Return from a callback or a handler. -/
  | leave
  /-- `Agent_OnUnload`. -/
  | unload
  /-- The end of the process, with the destructor of `agent` or of `instance_` first. -/
  | exit (agentFirst : Bool)
  /-- Go on in `Agent_OnUnload` or in the static destructors. -/
  | next
  /-- The delivery of `SIGUSR1`. -/
  | signal
deriving DecidableEq

namespace Process

/-- Whether an object is alive. -/
def isAlive (s : Process) (object : AgentObject) : Bool :=
  decide (s.lifetime object = .alive)

/-- `Agent_OnLoad`, once. -/
def load (s : Process) (success : Bool) : Process × List AgentEffect :=
  if s.attached then (s, [])
  else if success then
    ({ s with
      attached := true
      agent := true
      hasInstance := true
      lifetime := fun _ => .alive
      -- the storage starts its cleaner
      active := Function.update s.active .cleaner true
      starting := Function.update s.starting .cleaner (s.starting .cleaner + 1) }, [.loaded])
  else ({ s with attached := true }, [])

/-- `Profiler::startProfiler`. -/
def startProfiler (s : Process) : Process :=
  if s.active .sampler then s
  else { s with
    active := Function.update s.active .sampler true
    starting := Function.update s.starting .sampler (s.starting .sampler + 1) }

/-- The `delete` of an object by an owner. The destructor of the profiler contains the one of the
storage, which clears the flag of the cleaner. -/
def delete (s : Process) (owner : Owner) (object : AgentObject) : Process × List AgentEffect :=
  ({ s with
    lifetime := Function.update s.lifetime object .freed
    active := if object = .profiler then Function.update s.active .cleaner false else s.active },
    [.deleted owner object (s.isAlive object)])

/-- A step of `~Agent`. -/
def destruct (s : Process) : Destruction → Process × List AgentEffect
  | .stop =>
    ({ s with active := Function.update s.active .sampler false },
      [.accessed .destructor .profiler (s.isAlive .profiler)])
  | .delete object => s.delete .agent object

/-- A static destructor, and the steps that it still has to do. -/
def destroy (s : Process) : Owner → Process × List ExitStep × List AgentEffect
  | .agent =>
    if s.agent then ({ s with agent := false }, agentDestructor.map .step, []) else (s, [], [])
  | .profilerInstance =>
    if s.hasInstance then
      let r := { s with hasInstance := false }.delete .profilerInstance .profiler
      (r.1, [], r.2)
    else (s, [], [])

end Process

/-- The steps of a thread. -/
def agentStep (s : Process) : AgentPosition → AgentAction →
    Option (Process × AgentPosition × List AgentEffect)
  | .idle, .load success => some ((s.load success).1, .idle, (s.load success).2)
  | .idle, .enterGuarded => s.mutex.lockShared.map fun mutex => ({ s with mutex }, .testing, [])
  | .testing, .test =>
    if s.agent then some (s, .inside, [])
    else some ({ s with mutex := s.mutex.unlockShared }, .idle, [])
  | .inside, .access object => some (s, .inside, [.accessed .guarded object (s.isAlive object)])
  | .inside, .leave => some ({ s with mutex := s.mutex.unlockShared }, .idle, [])
  | .idle, .enterUnguarded =>
    if s.agent then some (s, .unguarded, []) else some (s, .idle, [.nullDereference])
  | .unguarded, .access object =>
    some (s, .unguarded, [.accessed .unguarded object (s.isAlive object)])
  | .unguarded, .startProfiler =>
    some (s.startProfiler, .unguarded, [.accessed .unguarded .profiler (s.isAlive .profiler)])
  | .unguarded, .leave => some (s, .idle, [])
  | .idle, .startThread thread =>
    if 0 < s.starting thread then
      some ({ s with starting := Function.update s.starting thread (s.starting thread - 1) },
        .running thread, [])
    else none
  | .running thread, .access object =>
    some (s, .running thread, [.accessed (.thread thread) object (s.isAlive object)])
  | .running thread, .testActive =>
    some (s, if s.active thread then .running thread else .idle,
      [.accessed (.thread thread) .profiler (s.isAlive .profiler)])
  | .idle, .unload => s.mutex.lock.map fun mutex => ({ s with mutex }, .resetting, [])
  | .resetting, .next =>
    some ({ s with agent := false }, .unloading (if s.agent then agentDestructor else []), [])
  | .unloading (destruction :: todo), .next =>
    some ((s.destruct destruction).1, .unloading todo, (s.destruct destruction).2)
  | .unloading [], .next => some ({ s with mutex := s.mutex.unlock }, .idle, [])
  | .idle, .exit agentFirst =>
    some (s, .exiting (if agentFirst then [.destroy .agent, .destroy .profilerInstance]
      else [.destroy .profilerInstance, .destroy .agent]), [])
  | .exiting (.destroy owner :: todo), .next =>
    some ((s.destroy owner).1, .exiting ((s.destroy owner).2.1 ++ todo), (s.destroy owner).2.2)
  | .exiting (.step destruction :: todo), .next =>
    some ((s.destruct destruction).1, .exiting todo, (s.destruct destruction).2)
  | .exiting [], .next => some (s, .idle, [])
  | .handler interrupted, .access object =>
    some (s, .handler interrupted, [.accessed .handler object (s.isAlive object)])
  | .handler interrupted, .leave => some (s, interrupted, [])
  -- the signal is blocked while its handler runs
  | .handler _, .signal => none
  | p, .signal =>
    if s.hasInstance then some (s, .handler p, []) else some (s, p, [.nullDereference])
  | _, _ => none

/-- The threads of the process. -/
def agentSystem : ThreadSystem Process AgentPosition AgentAction AgentEffect where
  init := {}
  start := .idle
  step := agentStep

/-- What a step of a thread can be. -/
inductive AgentTransition (s : Process) :
    AgentPosition → Process → AgentPosition → List AgentEffect → Prop
  | load (success : Bool) :
    AgentTransition s .idle (s.load success).1 .idle (s.load success).2
  | enterGuarded (mutex : SharedMutex) (h : s.mutex.lockShared = some mutex) :
    AgentTransition s .idle { s with mutex } .testing []
  | pass (h : s.agent = true) : AgentTransition s .testing s .inside []
  | refuse (h : s.agent = false) :
    AgentTransition s .testing { s with mutex := s.mutex.unlockShared } .idle []
  | guardedAccess (object : AgentObject) :
    AgentTransition s .inside s .inside [.accessed .guarded object (s.isAlive object)]
  | leaveGuarded :
    AgentTransition s .inside { s with mutex := s.mutex.unlockShared } .idle []
  | enterUnguarded (h : s.agent = true) : AgentTransition s .idle s .unguarded []
  | nullAgent (h : s.agent = false) : AgentTransition s .idle s .idle [.nullDereference]
  | unguardedAccess (object : AgentObject) :
    AgentTransition s .unguarded s .unguarded [.accessed .unguarded object (s.isAlive object)]
  | startProfiler :
    AgentTransition s .unguarded s.startProfiler .unguarded
      [.accessed .unguarded .profiler (s.isAlive .profiler)]
  | leaveUnguarded : AgentTransition s .unguarded s .idle []
  | startThread (thread : AgentThread) (h : 0 < s.starting thread) :
    AgentTransition s .idle
      { s with starting := Function.update s.starting thread (s.starting thread - 1) }
      (.running thread) []
  | threadAccess (thread : AgentThread) (object : AgentObject) :
    AgentTransition s (.running thread) s (.running thread)
      [.accessed (.thread thread) object (s.isAlive object)]
  | testActive (thread : AgentThread) :
    AgentTransition s (.running thread) s (if s.active thread then .running thread else .idle)
      [.accessed (.thread thread) .profiler (s.isAlive .profiler)]
  | unload (mutex : SharedMutex) (h : s.mutex.lock = some mutex) :
    AgentTransition s .idle { s with mutex } .resetting []
  | reset :
    AgentTransition s .resetting { s with agent := false }
      (.unloading (if s.agent then agentDestructor else [])) []
  | destruct (destruction : Destruction) (todo : List Destruction) :
    AgentTransition s (.unloading (destruction :: todo)) (s.destruct destruction).1
      (.unloading todo) (s.destruct destruction).2
  | unloaded :
    AgentTransition s (.unloading []) { s with mutex := s.mutex.unlock } .idle []
  | exit (agentFirst : Bool) :
    AgentTransition s .idle s (.exiting (if agentFirst then
      [.destroy .agent, .destroy .profilerInstance]
      else [.destroy .profilerInstance, .destroy .agent])) []
  | destroy (owner : Owner) (todo : List ExitStep) :
    AgentTransition s (.exiting (.destroy owner :: todo)) (s.destroy owner).1
      (.exiting ((s.destroy owner).2.1 ++ todo)) (s.destroy owner).2.2
  | exitStep (destruction : Destruction) (todo : List ExitStep) :
    AgentTransition s (.exiting (.step destruction :: todo)) (s.destruct destruction).1
      (.exiting todo) (s.destruct destruction).2
  | exited : AgentTransition s (.exiting []) s .idle []
  | handlerAccess (p : AgentPosition) (object : AgentObject) :
    AgentTransition s (.handler p) s (.handler p) [.accessed .handler object (s.isAlive object)]
  | leaveHandler (p : AgentPosition) : AgentTransition s (.handler p) s p []
  | signal (p : AgentPosition) (h : s.hasInstance = true) :
    AgentTransition s p s (.handler p) []
  | nullInstance (p : AgentPosition) (h : s.hasInstance = false) :
    AgentTransition s p s p [.nullDereference]

/-- The log of the steps. -/
abbrev AgentLog := List ((ℕ × AgentAction) × List AgentEffect)

/-- The process and the positions of its threads. -/
abbrev AgentConf := ThreadSystem.Conf Process AgentPosition

/-! ## Who holds the lock -/

open SharedMutex (Mode)

namespace AgentPosition

/-- How a thread at a position holds the lock. -/
def holds : AgentPosition → Option Mode
  | .testing | .inside => some .shared
  | .resetting | .unloading _ => some .exclusive
  | .handler interrupted => interrupted.holds
  | .idle | .unguarded | .running _ | .exiting _ => none

end AgentPosition

variable {s s' : Process} {p p' : AgentPosition} {a : AgentAction} {o : List AgentEffect}

@[simp] lemma Process.mutex_load (s : Process) (success : Bool) :
    (s.load success).1.mutex = s.mutex := by
  unfold Process.load
  split_ifs <;> rfl

@[simp] lemma Process.mutex_startProfiler (s : Process) : s.startProfiler.mutex = s.mutex := by
  unfold Process.startProfiler
  split_ifs <;> rfl

@[simp] lemma Process.mutex_destruct (s : Process) (destruction : Destruction) :
    (s.destruct destruction).1.mutex = s.mutex := by
  cases destruction <;> rfl

@[simp] lemma Process.mutex_destroy (s : Process) (owner : Owner) :
    (s.destroy owner).1.mutex = s.mutex := by
  cases owner <;> unfold Process.destroy <;> split_ifs <;> rfl

/-- The delivery of a signal. -/
lemma AgentTransition.of_signal (h : (if s.hasInstance then some (s, AgentPosition.handler p, [])
    else some (s, p, [.nullDereference])) = some (s', p', o)) : AgentTransition s p s' p' o := by
  split_ifs at h with hinstance
  · cases h
    exact .signal _ hinstance
  · cases h
    exact .nullInstance _ (by simpa using hinstance)

/-- **What a step is.** -/
lemma agentStep_spec (h : agentStep s p a = some (s', p', o)) : AgentTransition s p s' p' o := by
  cases p with
  | idle =>
    cases a with
    | load success =>
      cases h
      exact .load success
    | enterGuarded =>
      obtain ⟨mutex, hmutex, heq⟩ := Option.map_eq_some_iff.mp h
      cases heq
      exact .enterGuarded mutex hmutex
    | enterUnguarded =>
      rw [agentStep] at h
      split_ifs at h with hagent
      · cases h
        exact .enterUnguarded hagent
      · cases h
        exact .nullAgent (by simpa using hagent)
    | startThread thread =>
      rw [agentStep] at h
      split_ifs at h with hstarting
      cases h
      exact .startThread thread hstarting
    | unload =>
      obtain ⟨mutex, hmutex, heq⟩ := Option.map_eq_some_iff.mp h
      cases heq
      exact .unload mutex hmutex
    | exit agentFirst =>
      cases h
      exact .exit agentFirst
    | signal => exact .of_signal h
    | _ => cases h
  | testing =>
    cases a with
    | test =>
      rw [agentStep] at h
      split_ifs at h with hagent
      · cases h
        exact .pass hagent
      · cases h
        exact .refuse (by simpa using hagent)
    | signal => exact .of_signal h
    | _ => cases h
  | inside =>
    cases a with
    | access object =>
      cases h
      exact .guardedAccess object
    | leave =>
      cases h
      exact .leaveGuarded
    | signal => exact .of_signal h
    | _ => cases h
  | unguarded =>
    cases a with
    | access object =>
      cases h
      exact .unguardedAccess object
    | startProfiler =>
      cases h
      exact .startProfiler
    | leave =>
      cases h
      exact .leaveUnguarded
    | signal => exact .of_signal h
    | _ => cases h
  | running thread =>
    cases a with
    | access object =>
      cases h
      exact .threadAccess thread object
    | testActive =>
      cases h
      exact .testActive thread
    | signal => exact .of_signal h
    | _ => cases h
  | resetting =>
    cases a with
    | next =>
      cases h
      exact .reset
    | signal => exact .of_signal h
    | _ => cases h
  | unloading todo =>
    cases a with
    | next =>
      cases todo with
      | nil =>
        cases h
        exact .unloaded
      | cons destruction todo =>
        cases h
        exact .destruct destruction todo
    | signal => cases todo <;> exact .of_signal h
    | _ => cases todo <;> cases h
  | exiting todo =>
    cases a with
    | next =>
      cases todo with
      | nil =>
        cases h
        exact .exited
      | cons step todo =>
        cases step with
        | destroy owner =>
          cases h
          exact .destroy owner todo
        | step destruction =>
          cases h
          exact .exitStep destruction todo
    | signal => rcases todo with _ | ⟨_ | _, todo⟩ <;> exact .of_signal h
    | _ => rcases todo with _ | ⟨_ | _, todo⟩ <;> cases h
  | handler interrupted =>
    cases a with
    | access object =>
      cases h
      exact .handlerAccess interrupted object
    | leave =>
      cases h
      exact .leaveHandler _
    | _ => cases h

/-- The positions say how a thread holds the lock. -/
theorem agent_guards : SharedMutex.Guards agentSystem Process.mutex AgentPosition.holds where
  init := rfl
  start := rfl
  step := by
    intro s p a s' p' o hstep
    cases agentStep_spec hstep with
    | enterGuarded mutex h => exact .lockShared h
    | refuse | leaveGuarded => exact .unlockShared _
    | unload mutex h => exact .lock h
    | unloaded => exact .unlock _
    | testActive thread =>
      have hholds : (if s.active thread then AgentPosition.running thread else .idle).holds =
          none := by
        split_ifs <;> rfl
      rw [hholds]
      exact .keep _ _
    | load success =>
      rw [Process.mutex_load]
      exact .keep _ _
    | startProfiler =>
      rw [Process.mutex_startProfiler]
      exact .keep _ _
    | destruct destruction todo | exitStep destruction todo =>
      rw [Process.mutex_destruct]
      exact .keep _ _
    | destroy owner todo =>
      rw [Process.mutex_destroy]
      exact .keep _ _
    | _ => exact .keep _ _

/-! ## Callbacks with the lock -/

/-- A static destructor runs only after the agent has been loaded and unloaded. -/
def ExitsUnloaded (s : Process) : AgentPosition → Prop
  | .exiting _ => s.agent = false ∧ s.attached = true
  | _ => True

instance (s : Process) : (p : AgentPosition) → Decidable (ExitsUnloaded s p)
  | .exiting _ => inferInstanceAs (Decidable (s.agent = false ∧ s.attached = true))
  | .idle | .testing | .inside | .unguarded | .running _ | .resetting | .unloading _
  | .handler _ => inferInstanceAs (Decidable True)

/-- While `agent` is not null, the objects are alive, and `Agent_OnLoad` does nothing any more. -/
def AgentInv (s : Process) : Prop :=
  s.agent = true → s.attached = true ∧ ∀ object, s.lifetime object = .alive

/-- What a thread at a position knows: behind the test, `agent` is not null; during the deletions,
it is null and stays so. -/
def AgentAssertion (s : Process) : AgentPosition → Prop
  | .inside => s.agent = true
  | .unloading todo => todo ≠ [] → s.agent = false ∧ s.attached = true
  | .handler interrupted => AgentAssertion s interrupted
  | _ => True

/-- The objects that a callback uses are alive. -/
def GuardedAlive : AgentEffect → Prop
  | .accessed .guarded _ alive => alive = true
  | _ => True

lemma Process.load_of_attached (s : Process) {success : Bool} (h : s.attached = true) :
    s.load success = (s, []) := by
  rw [Process.load, if_pos h]

@[simp] lemma Process.agent_startProfiler (s : Process) : s.startProfiler.agent = s.agent := by
  unfold Process.startProfiler
  split_ifs <;> rfl

@[simp] lemma Process.agent_destruct (s : Process) (destruction : Destruction) :
    (s.destruct destruction).1.agent = s.agent := by
  cases destruction <;> rfl

@[simp] lemma Process.attached_destruct (s : Process) (destruction : Destruction) :
    (s.destruct destruction).1.attached = s.attached := by
  cases destruction <;> rfl

/-- What a thread knows depends on `agent` and `attached` only. -/
lemma AgentAssertion.congr (h : AgentAssertion s p) (hagent : s'.agent = s.agent)
    (hattached : s'.attached = s.attached) : AgentAssertion s' p := by
  induction p with
  | inside => exact hagent.trans h
  | unloading todo =>
    intro hne
    rw [hagent, hattached]
    exact h hne
  | handler interrupted ih => exact ih h
  | _ => trivial

/-- Once `agent` is null, only a thread behind the test is disturbed. -/
lemma AgentAssertion.reset (h : AgentAssertion s p) (hshared : p.holds ≠ some .shared)
    (hagent : s'.agent = false) (hattached : s'.attached = s.attached) : AgentAssertion s' p := by
  induction p with
  | inside => exact absurd rfl hshared
  | unloading todo =>
    intro hne
    rw [hattached]
    exact ⟨hagent, (h hne).2⟩
  | handler interrupted ih => exact ih h hshared
  | _ => trivial

/-- `Agent_OnLoad` disturbs nobody: whoever knows something knows that it has run. -/
lemma AgentAssertion.load (h : AgentAssertion s p) (hinv : AgentInv s) (success : Bool) :
    AgentAssertion (s.load success).1 p := by
  by_cases hattached : s.attached = true
  · rw [s.load_of_attached hattached]
    exact h
  · induction p with
    | inside => exact absurd (hinv h).1 hattached
    | unloading todo =>
      intro hne
      exact absurd (h hne).2 hattached
    | handler interrupted ih => exact ih h
    | _ => trivial

/-- `Agent_OnLoad` keeps the invariant: it creates all objects before it sets `agent`. -/
lemma AgentInv.load (h : AgentInv s) (success : Bool) : AgentInv (s.load success).1 := by
  unfold Process.load
  split_ifs with hattached hsuccess
  · exact h
  · exact fun _ => ⟨rfl, fun _ => rfl⟩
  · exact fun hagent => absurd (h hagent).1 hattached

/-- The invariant holds trivially once `agent` is null. -/
lemma AgentInv.of_agent_eq_false (h : s.agent = false) : AgentInv s := by
  intro hagent
  rw [h] at hagent
  cases hagent

/-- `startProfiler` leaves the objects alone. -/
lemma AgentInv.startProfiler (h : AgentInv s) : AgentInv s.startProfiler := by
  unfold Process.startProfiler
  split_ifs
  · exact h
  · exact h

/-- The effects outside of the callbacks with the lock. -/
lemma guardedAlive_load (s : Process) (success : Bool) :
    ∀ x ∈ (s.load success).2, GuardedAlive x := by
  intro x hx
  unfold Process.load at hx
  split_ifs at hx
  · cases hx
  · rw [List.mem_singleton.mp hx]
    trivial
  · cases hx

lemma guardedAlive_destruct (s : Process) (destruction : Destruction) :
    ∀ x ∈ (s.destruct destruction).2, GuardedAlive x := by
  intro x hx
  cases destruction <;> rw [List.mem_singleton.mp hx] <;> trivial

lemma guardedAlive_destroy (s : Process) (owner : Owner) :
    ∀ x ∈ (s.destroy owner).2.2, GuardedAlive x := by
  intro x hx
  cases owner with
  | agent =>
    unfold Process.destroy at hx
    split_ifs at hx <;> cases hx
  | profilerInstance =>
    simp only [Process.destroy] at hx
    split_ifs at hx
    · rw [List.mem_singleton.mp hx]
      trivial
    · cases hx

/-- A static destructor leaves `agent` null. -/
lemma Process.agent_destroy (h : s.agent = false) (owner : Owner) :
    (s.destroy owner).1.agent = false := by
  cases owner <;> unfold Process.destroy <;> split_ifs <;> first | rfl | exact h

@[simp] lemma Process.attached_destroy (s : Process) (owner : Owner) :
    (s.destroy owner).1.attached = s.attached := by
  cases owner <;> unfold Process.destroy <;> split_ifs <;> rfl

/-- **The outline of the callbacks.**

**Proof sketch.** Behind the test `agent` is not null, and the lock keeps it so: it is reset with
the exclusive lock only, or by a static destructor, and then it is null already. The objects are
deleted only after the reset. -/
lemma agent_outline : agentSystem.Outline AgentInv AgentAssertion
    (fun s p _ => ExitsUnloaded s p)
    (fun s p _ q => SharedMutex.Compatible p.holds q.holds ∧ ExitsUnloaded s p) GuardedAlive where
  init := fun h => nomatch h
  start := trivial
  own := by
    intro s p a s' p' o hinv hassertion hexit hstep
    cases agentStep_spec hstep with
    | load success => exact ⟨hinv.load success, trivial, guardedAlive_load s success⟩
    | enterGuarded | refuse | leaveGuarded | enterUnguarded | leaveUnguarded | startThread | unload
    | exit | exited | unloaded => exact ⟨hinv, trivial, fun x hx => absurd hx List.not_mem_nil⟩
    | pass hagent => exact ⟨hinv, hagent, fun x hx => absurd hx List.not_mem_nil⟩
    | guardedAccess object =>
      refine ⟨hinv, hassertion, fun x hx => ?_⟩
      rw [List.mem_singleton.mp hx]
      exact decide_eq_true ((hinv hassertion).2 object)
    | nullAgent | unguardedAccess | threadAccess =>
      refine ⟨hinv, trivial, fun x hx => ?_⟩
      rw [List.mem_singleton.mp hx]
      trivial
    | startProfiler =>
      refine ⟨hinv.startProfiler, trivial, fun x hx => ?_⟩
      rw [List.mem_singleton.mp hx]
      trivial
    | testActive thread =>
      refine ⟨hinv, by split_ifs <;> trivial, fun x hx => ?_⟩
      rw [List.mem_singleton.mp hx]
      trivial
    | reset =>
      refine ⟨.of_agent_eq_false rfl, fun hne => ⟨rfl, ?_⟩,
        fun x hx => absurd hx List.not_mem_nil⟩
      split_ifs at hne with hagent
      · exact (hinv hagent).1
      · exact absurd rfl hne
    | destruct destruction todo =>
      obtain ⟨hagent, hattached⟩ := hassertion (List.cons_ne_nil _ _)
      refine ⟨.of_agent_eq_false ?_, fun _ => ⟨?_, ?_⟩, guardedAlive_destruct s destruction⟩
      · rw [Process.agent_destruct, hagent]
      · rw [Process.agent_destruct, hagent]
      · rw [Process.attached_destruct, hattached]
    | destroy owner todo =>
      obtain ⟨hagent, -⟩ := hexit
      exact ⟨.of_agent_eq_false (Process.agent_destroy hagent owner), trivial,
        guardedAlive_destroy s owner⟩
    | exitStep destruction todo =>
      obtain ⟨hagent, -⟩ := hexit
      refine ⟨.of_agent_eq_false ?_, trivial, guardedAlive_destruct s destruction⟩
      rw [Process.agent_destruct, hagent]
    | handlerAccess | nullInstance =>
      refine ⟨hinv, hassertion, fun x hx => ?_⟩
      rw [List.mem_singleton.mp hx]
      trivial
    | leaveHandler | signal =>
      exact ⟨hinv, hassertion, fun x hx => absurd hx List.not_mem_nil⟩
  other := by
    intro s p a s' p' o q hinv hassertion hother hK hstep
    obtain ⟨hcompatible, hexit⟩ := hK
    have hshared : p.holds = some .exclusive → q.holds ≠ some .shared := by
      intro hp hq
      rw [hp, hq] at hcompatible
      exact hcompatible
    cases agentStep_spec hstep with
    | load success => exact hother.load hinv success
    | reset => exact hother.reset (hshared rfl) rfl rfl
    | destruct destruction todo =>
      exact hother.congr (s.agent_destruct destruction) (s.attached_destruct destruction)
    | destroy owner todo =>
      obtain ⟨hagent, -⟩ := hexit
      exact hother.congr ((Process.agent_destroy hagent owner).trans hagent.symm)
        (s.attached_destroy owner)
    | exitStep destruction todo =>
      exact hother.congr (s.agent_destruct destruction) (s.attached_destruct destruction)
    | startProfiler =>
      refine hother.congr s.agent_startProfiler ?_
      unfold Process.startProfiler
      split_ifs <;> rfl
    | _ => exact hother.congr rfl rfl

/-- **The callbacks with the lock use living objects.** In every interleaving of any number of
threads, with all callbacks, signals, threads of the agent, loads and unloads, every object that a
callback with the lock uses is alive, provided that the static destructors run only after the agent
has been unloaded. -/
theorem guarded_access_alive {l : AgentLog} {c : AgentConf} (hrun : agentSystem.machine.Run l c)
    (hexit : agentSystem.machine.EveryStep
      (fun _ c e => ExitsUnloaded c.shared (c.threads e.1)) l)
    {e : (ℕ × AgentAction) × List AgentEffect} (he : e ∈ l) {object : AgentObject} {alive : Bool}
    (haccess : .accessed .guarded object alive ∈ e.2) : alive = true := by
  have hsteps : agentSystem.machine.EveryStep (ThreadSystem.Undisturbed
      (fun s p _ => ExitsUnloaded s p)
      (fun s p _ q => SharedMutex.Compatible p.holds q.holds ∧ ExitsUnloaded s p)) l := by
    intro l₁ e o l₂ c₁ hl hrun₁
    have hstep := hexit l₁ e o l₂ c₁ hl hrun₁
    exact ⟨hstep, fun t ht => ⟨agent_guards.compatible hrun₁ ht, hstep⟩⟩
  exact ((agent_outline.throughout hsteps).last hrun).outputs e he _ haccess

/-- The agent is loaded, a callback runs, and the agent is unloaded. -/
def sampleCallback : List (ℕ × AgentAction) :=
  [(0, .load true), (1, .enterGuarded), (1, .test), (1, .access .profiler), (1, .leave),
    (0, .unload), (0, .next), (0, .next)]

/-- The callback of the sample uses a living profiler. -/
theorem sampleCallback_alive :
    ∃ l c, agentSystem.machine.Run l c ∧ l.map Prod.fst = sampleCallback ∧
      ∃ e ∈ l, .accessed .guarded .profiler true ∈ e.2 := by
  have hexec : (agentSystem.machine.exec agentSystem.machine.init sampleCallback).map
      (fun r => (r.2[3]?).map Prod.snd) =
      some (some [.accessed .guarded .profiler true]) := by decide
  obtain ⟨l, c, hrun, hes, he⟩ := LogMachine.exists_run_of_map_exec hexec
  obtain ⟨e, hget, hoe⟩ := Option.map_eq_some_iff.mp he
  have hmem : e ∈ l := List.mem_of_getElem? hget
  have hexit := LogMachine.everyStep_of_check
    (q := fun _ c e => decide (ExitsUnloaded c.shared (c.threads e.1))) hrun
    (by rw [hes]; decide)
  have halive := guarded_access_alive hrun
    (fun l₁ e o l₂ c₁ hl hrun₁ => of_decide_eq_true (hexit l₁ e o l₂ c₁ hl hrun₁)) hmem
    (show .accessed .guarded .profiler true ∈ e.2 by rw [hoe]; exact List.mem_cons_self)
  exact ⟨l, c, hrun, hes, e, hmem, by rw [hoe, ← halive]; exact List.mem_cons_self⟩

/-! ## The owners of the profiler -/

/-- The steps of `~Agent` that a thread still has to do. -/
def AgentPosition.pending : AgentPosition → List Destruction
  | .unloading todo => todo
  | .exiting todo => todo.filterMap fun
    | .step destruction => some destruction
    | .destroy _ => none
  | .handler interrupted => interrupted.pending
  | _ => []

/-- What a step has to do with the ownership of the profiler. -/
structure OwnershipStep (s : Process) (p : AgentPosition) (s' : Process) (p' : AgentPosition)
    (o : List AgentEffect) : Prop where
  /-- Loading gives the profiler to both owners. -/
  loaded : .loaded ∈ o → s.attached = false ∧ s'.attached = true ∧ s'.agent = true ∧
    s'.hasInstance = true
  attached : s.attached = true → s'.attached = true
  /-- `agent` gives its profiler to a thread that is going to delete it. -/
  agent : s.agent = true → s'.agent = true ∨ .delete .profiler ∈ p'.pending
  pending : .delete .profiler ∈ p.pending → .delete .profiler ∈ p'.pending ∨
    .deleted .agent .profiler (s.isAlive .profiler) ∈ o
  /-- `instance_` deletes the profiler itself. -/
  hasInstance : s.hasInstance = true → s'.hasInstance = true ∨
    .deleted .profilerInstance .profiler (s.isAlive .profiler) ∈ o
  /-- Without an owner the profiler is not deleted. -/
  of_agent : s'.agent = true → s.agent = true ∨ .loaded ∈ o
  of_pending : .delete .profiler ∈ p'.pending → .delete .profiler ∈ p.pending ∨ s.agent = true
  of_hasInstance : s'.hasInstance = true → s.hasInstance = true ∨ .loaded ∈ o
  of_deleted : ∀ owner alive, .deleted owner .profiler alive ∈ o →
    o = [.deleted owner .profiler (s.isAlive .profiler)] ∧ s'.lifetime .profiler = .freed ∧
      match owner with
      | .agent => .delete .profiler ∈ p.pending
      | .profilerInstance => s.hasInstance = true
  freed : s.attached = true → s.lifetime .profiler = .freed → s'.lifetime .profiler = .freed

/-- A deleted object is freed. -/
lemma Process.lifetime_delete_self (s : Process) (owner : Owner) (object : AgentObject) :
    (s.delete owner object).1.lifetime object = .freed := by
  simp [Process.delete]

/-- A step that leaves the owners alone. -/
lemma OwnershipStep.of_eq (hattached : s.attached = true → s'.attached = true)
    (hagent : s'.agent = s.agent)
    (hinstance : s'.hasInstance = s.hasInstance) (hlifetime : s'.lifetime = s.lifetime)
    (hpending : p'.pending = p.pending) (hloaded : .loaded ∉ o)
    (hdeleted : ∀ owner alive, .deleted owner .profiler alive ∉ o) : OwnershipStep s p s' p' o where
  loaded := fun h => absurd h hloaded
  attached := hattached
  agent := fun h => Or.inl (hagent.trans h)
  pending := fun h => Or.inl (hpending ▸ h)
  hasInstance := fun h => Or.inl (hinstance.trans h)
  of_agent := fun h => Or.inl (hagent.symm.trans h)
  of_pending := fun h => Or.inl (hpending ▸ h)
  of_hasInstance := fun h => Or.inl (hinstance.symm.trans h)
  of_deleted := fun owner alive h => absurd h (hdeleted owner alive)
  freed := fun _ h => by rw [hlifetime, h]

/-- A step of `~Agent`. -/
lemma OwnershipStep.destruct {destruction : Destruction}
    (hpending : p.pending = destruction :: p'.pending) :
    OwnershipStep s p (s.destruct destruction).1 p' (s.destruct destruction).2 where
  loaded := fun h => by cases destruction <;> cases List.mem_singleton.mp h
  attached := fun h => (s.attached_destruct destruction).trans h
  agent := fun h => Or.inl ((s.agent_destruct destruction).trans h)
  pending := by
    intro h
    rw [hpending] at h
    rcases List.mem_cons.mp h with rfl | h
    · exact Or.inr List.mem_cons_self
    · exact Or.inl h
  hasInstance := fun h => Or.inl (by cases destruction <;> exact h)
  of_agent := fun h => Or.inl ((s.agent_destruct destruction).symm.trans h)
  of_pending := fun h => Or.inl (by rw [hpending]; exact List.mem_cons_of_mem _ h)
  of_hasInstance := fun h => Or.inl (by cases destruction <;> exact h)
  of_deleted := by
    intro owner alive h
    cases destruction with
    | stop => cases List.mem_singleton.mp h
    | delete object =>
      cases List.mem_singleton.mp h
      refine ⟨rfl, s.lifetime_delete_self _ _, ?_⟩
      rw [hpending]
      exact List.mem_cons_self
  freed := by
    intro _ h
    cases destruction with
    | stop => exact h
    | delete object =>
      change Function.update s.lifetime object .freed .profiler = .freed
      by_cases hobject : AgentObject.profiler = object
      · rw [hobject, Function.update_self]
      · rw [Function.update_of_ne hobject, h]

/-- Loading. -/
lemma OwnershipStep.load (s : Process) (success : Bool) :
    OwnershipStep s .idle (s.load success).1 .idle (s.load success).2 := by
  unfold Process.load
  split_ifs with hattached hsuccess
  · exact .of_eq id rfl rfl rfl rfl List.not_mem_nil fun _ _ => List.not_mem_nil
  · have hfalse : s.attached = false := by simpa using hattached
    refine ⟨fun _ => ⟨hfalse, rfl, rfl, rfl⟩, fun _ => rfl, fun _ => Or.inl rfl,
      fun h => absurd h List.not_mem_nil, fun _ => Or.inl rfl, fun _ => Or.inr List.mem_cons_self,
      fun h => absurd h List.not_mem_nil, fun _ => Or.inr List.mem_cons_self, ?_,
      fun h => absurd h hattached⟩
    intro owner alive h
    cases List.mem_singleton.mp h
  · exact .of_eq (fun _ => rfl) rfl rfl rfl rfl List.not_mem_nil fun _ _ => List.not_mem_nil

/-- A static destructor. -/
lemma OwnershipStep.destroy (s : Process) (owner : Owner) (todo : List ExitStep) :
    OwnershipStep s (.exiting (.destroy owner :: todo)) (s.destroy owner).1
      (.exiting ((s.destroy owner).2.1 ++ todo)) (s.destroy owner).2.2 := by
  cases owner with
  | agent =>
    simp only [Process.destroy]
    split_ifs with hagent
    · -- the steps of `~Agent` come before those of the thread
      have hpending : AgentPosition.pending (.exiting (agentDestructor.map .step ++ todo)) =
          agentDestructor ++ AgentPosition.pending (.exiting todo) := rfl
      refine ⟨fun h => absurd h List.not_mem_nil, id, fun _ => Or.inr ?_, fun h => Or.inl ?_,
        Or.inl, fun h => (nomatch h), fun _ => Or.inr hagent, Or.inl,
        fun _ _ h => absurd h List.not_mem_nil, fun _ h => h⟩
      · rw [hpending]
        exact List.mem_append_left _ (by decide)
      · rw [hpending]
        exact List.mem_append_right _ h
    · exact .of_eq id rfl rfl rfl rfl List.not_mem_nil fun _ _ => List.not_mem_nil
  | profilerInstance =>
    simp only [Process.destroy]
    split_ifs with hinstance
    · refine ⟨fun h => ?_, id, Or.inl, Or.inl, fun _ => Or.inr List.mem_cons_self, Or.inl, Or.inl,
        fun h => (nomatch h), fun owner alive h => ?_, fun _ _ => ?_⟩
      · cases List.mem_singleton.mp h
      · cases List.mem_singleton.mp h
        exact ⟨rfl, Process.lifetime_delete_self _ .profilerInstance _, hinstance⟩
      · exact Process.lifetime_delete_self _ .profilerInstance _
    · exact .of_eq id rfl rfl rfl rfl List.not_mem_nil fun _ _ => List.not_mem_nil

/-- What every step has to do with the ownership of the profiler. -/
lemma AgentTransition.ownership (h : AgentTransition s p s' p' o) : OwnershipStep s p s' p' o := by
  cases h with
  | load success => exact .load s success
  | destruct destruction todo => exact .destruct rfl
  | exitStep destruction todo => exact .destruct rfl
  | destroy owner todo => exact .destroy s owner todo
  | reset =>
    refine ⟨fun h => absurd h List.not_mem_nil, id, fun hagent => Or.inr ?_,
      fun h => absurd h List.not_mem_nil, Or.inl, fun h => (nomatch h), fun h => Or.inr ?_, Or.inl,
      fun _ _ h => absurd h List.not_mem_nil, fun _ h => h⟩
    · rw [hagent]
      exact (by decide : Destruction.delete .profiler ∈ agentDestructor)
    · cases hagent : s.agent with
      | true => rfl
      | false =>
        rw [hagent] at h
        cases h
  | startProfiler =>
    unfold Process.startProfiler
    split_ifs
    · exact .of_eq id rfl rfl rfl rfl (by simp) (by simp)
    · exact .of_eq id rfl rfl rfl rfl (by simp) (by simp)
  | testActive thread =>
    refine .of_eq id rfl rfl rfl ?_ (by simp) (by simp)
    split_ifs <;> rfl
  | exit agentFirst =>
    refine .of_eq id rfl rfl rfl ?_ List.not_mem_nil fun _ _ => List.not_mem_nil
    cases agentFirst <;> rfl
  | enterGuarded | pass | refuse | leaveGuarded | enterUnguarded | leaveUnguarded | startThread
  | unload | unloaded | exited | leaveHandler | signal =>
    exact .of_eq id rfl rfl rfl rfl List.not_mem_nil fun _ _ => List.not_mem_nil
  | guardedAccess | nullAgent | unguardedAccess | threadAccess | handlerAccess | nullInstance =>
    exact .of_eq id rfl rfl rfl rfl (by simp) (by simp)

/-- An effect of a kind has been reported. -/
def Reported (l : AgentLog) (P : AgentEffect → Prop) : Prop := ∃ e ∈ l, ∃ x ∈ e.2, P x

/-- The agent has been loaded. -/
def Loaded (l : AgentLog) : Prop := Reported l fun x => x = .loaded

/-- The owner has deleted the profiler. -/
def DeletedBy (l : AgentLog) (owner : Owner) : Prop :=
  Reported l fun x => ∃ alive, x = .deleted owner .profiler alive

/-- The profiler has been deleted when it was not alive. -/
def DoubleDelete (l : AgentLog) : Prop :=
  Reported l fun x => ∃ owner, x = .deleted owner .profiler false

/-- The effects of a log and of one more step. -/
lemma reported_concat {l : AgentLog} {e : ℕ × AgentAction} {P : AgentEffect → Prop} :
    Reported (l ++ [(e, o)]) P ↔ Reported l P ∨ ∃ x ∈ o, P x := by
  simp [Reported, or_and_right, exists_or]

/-- A thread is going to delete the profiler. -/
def DeletionPending (threads : ℕ → AgentPosition) : Prop :=
  ∃ t, .delete .profiler ∈ (threads t).pending

/-- Where the profiler is in the ownership: each of the owners has it, or is about to delete it, or
has deleted it; and the second deletion is one too many. -/
structure Ownership (l : AgentLog) (c : AgentConf) : Prop where
  attached : c.shared.agent = true ∨ c.shared.hasInstance = true ∨ DeletionPending c.threads ∨
    (∃ owner, DeletedBy l owner) → c.shared.attached = true
  agent : Loaded l → c.shared.agent = true ∨ DeletionPending c.threads ∨ DeletedBy l .agent
  hasInstance : Loaded l → c.shared.hasInstance = true ∨ DeletedBy l .profilerInstance
  freed : ∀ owner, DeletedBy l owner → c.shared.lifetime .profiler = .freed
  double : DeletedBy l .agent → DeletedBy l .profilerInstance → DoubleDelete l

section

variable {l : AgentLog} {c c' : AgentConf} {t : ℕ} {e : ℕ × AgentAction}

/-- A deletion that is pending before a step is pending after it, or done by it. -/
lemma OwnershipStep.deletionPending
    (hstep : OwnershipStep c.shared (c.threads t) c'.shared (c'.threads t) o)
    (hothers : ∀ u, u ≠ t → c'.threads u = c.threads u) (h : DeletionPending c.threads) :
    DeletionPending c'.threads ∨
      .deleted .agent .profiler (c.shared.isAlive .profiler) ∈ o := by
  obtain ⟨u, hu⟩ := h
  by_cases hut : u = t
  · rw [hut] at hu
    exact (hstep.pending hu).imp_left fun h => ⟨t, h⟩
  · exact Or.inl ⟨u, by rw [hothers u hut]; exact hu⟩

/-- A deletion that is pending after a step was pending before it, or `agent` was not null. -/
lemma OwnershipStep.of_deletionPending
    (hstep : OwnershipStep c.shared (c.threads t) c'.shared (c'.threads t) o)
    (hothers : ∀ u, u ≠ t → c'.threads u = c.threads u) (h : DeletionPending c'.threads) :
    DeletionPending c.threads ∨ c.shared.agent = true := by
  obtain ⟨u, hu⟩ := h
  by_cases hut : u = t
  · rw [hut] at hu
    exact (hstep.of_pending hu).imp_left fun h => ⟨t, h⟩
  · exact Or.inl ⟨u, by rw [← hothers u hut]; exact hu⟩

/-- A deletion is done by an owner, of whom there are none before `Agent_OnLoad`. -/
lemma Ownership.attached_of_deleted (h : Ownership l c)
    (hstep : OwnershipStep c.shared (c.threads t) c'.shared (c'.threads t) o) {owner : Owner}
    {alive : Bool} (hdeleted : .deleted owner .profiler alive ∈ o) : c.shared.attached = true := by
  obtain ⟨-, -, howner⟩ := hstep.of_deleted owner alive hdeleted
  cases owner with
  | agent => exact h.attached (Or.inr (Or.inr (Or.inl ⟨t, howner⟩)))
  | profilerInstance => exact h.attached (Or.inr (Or.inl howner))

/-- The first deletion has freed the profiler, so a second one finds it dead. -/
lemma Ownership.deleted_dead (h : Ownership l c)
    (hstep : OwnershipStep c.shared (c.threads t) c'.shared (c'.threads t) o) {owner other : Owner}
    {alive : Bool} (hdeleted : .deleted owner .profiler alive ∈ o) (hother : DeletedBy l other) :
    .deleted owner .profiler false ∈ o := by
  obtain ⟨ho, -, -⟩ := hstep.of_deleted owner alive hdeleted
  have hdead : c.shared.isAlive .profiler = false := by
    rw [Process.isAlive, h.freed other hother]
    rfl
  rw [ho, hdead]
  exact List.mem_cons_self

/-- A step keeps the ownership. -/
lemma Ownership.step (h : Ownership l c)
    (hstep : OwnershipStep c.shared (c.threads t) c'.shared (c'.threads t) o)
    (hothers : ∀ u, u ≠ t → c'.threads u = c.threads u) : Ownership (l ++ [(e, o)]) c' where
  attached := by
    rintro (hagent | hinstance | hpending | ⟨owner, hdeleted⟩)
    · obtain hagent | hloaded := hstep.of_agent hagent
      · exact hstep.attached (h.attached (Or.inl hagent))
      · exact (hstep.loaded hloaded).2.1
    · obtain hinstance | hloaded := hstep.of_hasInstance hinstance
      · exact hstep.attached (h.attached (Or.inr (Or.inl hinstance)))
      · exact (hstep.loaded hloaded).2.1
    · obtain hpending | hagent := hstep.of_deletionPending hothers hpending
      · exact hstep.attached (h.attached (Or.inr (Or.inr (Or.inl hpending))))
      · exact hstep.attached (h.attached (Or.inl hagent))
    · rcases reported_concat.mp hdeleted with hdeleted | ⟨x, hx, alive, rfl⟩
      · exact hstep.attached (h.attached (Or.inr (Or.inr (Or.inr ⟨owner, hdeleted⟩))))
      · exact hstep.attached (h.attached_of_deleted hstep hx)
  agent := by
    intro hloaded
    rcases reported_concat.mp hloaded with hloaded | ⟨x, hx, rfl⟩
    · rcases h.agent hloaded with hagent | hpending | hdeleted
      · exact (hstep.agent hagent).imp_right fun hpending => Or.inl ⟨t, hpending⟩
      · rcases hstep.deletionPending hothers hpending with hpending | hdeleted
        · exact Or.inr (Or.inl hpending)
        · exact Or.inr (Or.inr (reported_concat.mpr (Or.inr ⟨_, hdeleted, _, rfl⟩)))
      · exact Or.inr (Or.inr (reported_concat.mpr (Or.inl hdeleted)))
    · exact Or.inl (hstep.loaded hx).2.2.1
  hasInstance := by
    intro hloaded
    rcases reported_concat.mp hloaded with hloaded | ⟨x, hx, rfl⟩
    · rcases h.hasInstance hloaded with hinstance | hdeleted
      · exact (hstep.hasInstance hinstance).imp_right fun hdeleted =>
          reported_concat.mpr (Or.inr ⟨_, hdeleted, _, rfl⟩)
      · exact Or.inr (reported_concat.mpr (Or.inl hdeleted))
    · exact Or.inl (hstep.loaded hx).2.2.2
  freed := by
    intro owner hdeleted
    rcases reported_concat.mp hdeleted with hdeleted | ⟨x, hx, alive, rfl⟩
    · exact hstep.freed (h.attached (Or.inr (Or.inr (Or.inr ⟨owner, hdeleted⟩))))
        (h.freed owner hdeleted)
    · exact (hstep.of_deleted owner alive hx).2.1
  double := by
    intro hagent hinstance
    rcases reported_concat.mp hagent with hagent | ⟨x, hx, alive, rfl⟩
    · rcases reported_concat.mp hinstance with hinstance | ⟨y, hy, alive, rfl⟩
      · exact reported_concat.mpr (Or.inl (h.double hagent hinstance))
      · exact reported_concat.mpr (Or.inr ⟨_, h.deleted_dead hstep hy hagent, _, rfl⟩)
    · rcases reported_concat.mp hinstance with hinstance | ⟨y, hy, alive', rfl⟩
      · exact reported_concat.mpr (Or.inr ⟨_, h.deleted_dead hstep hx hinstance, _, rfl⟩)
      · -- a step deletes one object only
        rw [(hstep.of_deleted _ _ hx).1] at hy
        cases List.mem_singleton.mp hy

end

/-- **The profiler is deleted twice.** `Agent::profiler_` and `Profiler::instance_` both own the
profiler. In every interleaving, once the agent has been loaded and neither of the two owns the
profiler any more, with no deletion pending, both have deleted it, one of them when it was no longer
alive. -/
theorem profiler_deleted_by_both {l : AgentLog} {c : AgentConf}
    (hrun : agentSystem.machine.Run l c) (hloaded : Loaded l) (hagent : c.shared.agent = false)
    (hinstance : c.shared.hasInstance = false) (hpending : ∀ t, (c.threads t).pending = []) :
    DeletedBy l .agent ∧ DeletedBy l .profilerInstance ∧ DoubleDelete l := by
  have hownership : Ownership l c := by
    refine LogMachine.RunFrom.invariant (I := Ownership) ?_ ?_ hrun
    · have hnone : ∀ P, ¬ Reported [] P := fun P ⟨e, he, _⟩ => absurd he List.not_mem_nil
      refine ⟨?_, fun h => absurd h (hnone _), fun h => absurd h (hnone _),
        fun owner h => absurd h (hnone _), fun h => absurd h (hnone _)⟩
      rintro (h | h | ⟨t, ht⟩ | ⟨owner, h⟩)
      · cases h
      · cases h
      · exact absurd ht List.not_mem_nil
      · exact absurd h (hnone _)
    · rintro l c ⟨t, a⟩ o c' _ hinv hstep
      obtain ⟨hsection, hothers⟩ := ThreadSystem.of_machine_step hstep
      exact hinv.step (agentStep_spec hsection).ownership hothers
  have hfirst : DeletedBy l .agent := by
    rcases hownership.agent hloaded with h | ⟨t, ht⟩ | h
    · rw [hagent] at h
      cases h
    · rw [hpending t] at ht
      cases ht
    · exact h
  have hsecond : DeletedBy l .profilerInstance := by
    rcases hownership.hasInstance hloaded with h | h
    · rw [hinstance] at h
      cases h
    · exact h
  exact ⟨hfirst, hsecond, hownership.double hfirst hsecond⟩

/-- The agent is loaded and unloaded, and the process ends. -/
def sampleExit : List (ℕ × AgentAction) :=
  [(0, .load true), (0, .unload)] ++ List.replicate 7 (0, .next) ++
    [(0, .exit true), (0, .next), (0, .next), (0, .next)]

/-- In the sample, the profiler is deleted twice. -/
theorem sampleExit_deletes_twice :
    ∃ l c, agentSystem.machine.Run l c ∧ l.map Prod.fst = sampleExit ∧
      DeletedBy l .agent ∧ DeletedBy l .profilerInstance ∧ DoubleDelete l := by
  have hexec : (agentSystem.machine.exec agentSystem.machine.init sampleExit).map
      (fun r => (r.1.shared.agent, r.1.shared.hasInstance, r.1.threads 0,
        (r.2[0]?).map Prod.snd)) =
      some (false, false, .idle, some [.loaded]) := by decide
  obtain ⟨l, c, hrun, hes, heq⟩ := LogMachine.exists_run_of_map_exec hexec
  simp only [Prod.mk.injEq] at heq
  obtain ⟨hagent, hinstance, hidle, hfirst⟩ := heq
  obtain ⟨e, hget, hoe⟩ := Option.map_eq_some_iff.mp hfirst
  refine ⟨l, c, hrun, hes, profiler_deleted_by_both hrun
    ⟨e, List.mem_of_getElem? hget, .loaded, by rw [hoe]; exact List.mem_cons_self, rfl⟩ hagent
    hinstance fun t => ?_⟩
  by_cases ht : t = 0
  · rw [ht, hidle]
    rfl
  · have hstart : c.threads t = .idle := by
      refine ThreadSystem.threads_eq_start hrun fun x hx => ?_
      have hmem : x.1 ∈ sampleExit := hes ▸ List.mem_map_of_mem hx
      have hzero : ∀ y ∈ sampleExit, y.1 = 0 := by decide
      rw [hzero _ hmem]
      exact Ne.symm ht
    rw [hstart]
    rfl

/-! ## The thread that samples -/

section

variable {c : AgentConf} {t : ℕ}

/-- A step of a thread is a step of the process. -/
lemma agent_machine_step {c : AgentConf} {t : ℕ} (h : agentStep c.shared (c.threads t) a =
    some (s', p', o)) :
    agentSystem.machine.step c (t, a) = some (⟨s', Function.update c.threads t p'⟩, o) := by
  change (agentStep c.shared (c.threads t) a).map _ = _
  rw [h]
  rfl

/-- A deletion frees an object, and frees no other one again. -/
lemma Process.lifetime_destruct {destruction : Destruction} {object : AgentObject}
    (h : destruction = .delete object ∨ s.lifetime object = .freed) :
    (s.destruct destruction).1.lifetime object = .freed := by
  cases destruction with
  | stop => exact h.resolve_left (fun h => nomatch h)
  | delete object' =>
    by_cases hobject : object = object'
    · rw [hobject]
      exact s.lifetime_delete_self .agent object'
    · change Function.update s.lifetime object' .freed object = .freed
      rw [Function.update_of_ne hobject]
      refine h.resolve_left fun heq => hobject ?_
      cases heq
      rfl

/-- `Agent_OnUnload` does the steps of `~Agent`, whatever the other threads are doing. -/
lemma exists_run_unloading (todo : List Destruction) (hc : c.threads t = .unloading todo) :
    ∃ l c', agentSystem.machine.RunFrom c l c' ∧ (∀ e ∈ l, e.1.1 = t) ∧
      (∀ u, u ≠ t → c'.threads u = c.threads u) ∧
      ∀ object, .delete object ∈ todo ∨ c.shared.lifetime object = .freed →
        c'.shared.lifetime object = .freed := by
  induction todo generalizing c with
  | nil =>
    refine ⟨[], c, (LogMachine.runFrom_nil _).mpr rfl, by simp, fun _ _ => rfl, fun object h => ?_⟩
    exact h.resolve_left List.not_mem_nil
  | cons destruction todo ih =>
    have hstep : agentSystem.machine.step c (t, .next) = some
        (⟨(c.shared.destruct destruction).1, Function.update c.threads t (.unloading todo)⟩,
          (c.shared.destruct destruction).2) :=
      agent_machine_step (by rw [hc]; rfl)
    obtain ⟨l, c', hrun, hsteps, hothers, hfreed⟩ :=
      ih (c := ⟨(c.shared.destruct destruction).1, Function.update c.threads t (.unloading todo)⟩)
        (Function.update_self _ _ _)
    refine ⟨_, c', (LogMachine.runFrom_cons _).mpr ⟨_, hstep, hrun⟩, ?_, ?_, ?_⟩
    · exact List.forall_mem_cons.mpr ⟨rfl, hsteps⟩
    · intro u hu
      rw [hothers u hu]
      exact Function.update_of_ne hu _ _
    · intro object h
      refine hfreed object ?_
      rcases h with h | h
      · rcases List.mem_cons.mp h with h | h
        · exact Or.inr (Process.lifetime_destruct (Or.inl h.symm))
        · exact Or.inl h
      · exact Or.inr (Process.lifetime_destruct (Or.inr h))

end

/-- **Unloading does not wait for the thread that samples.** From every state in which the agent is
loaded, the lock is free and the thread that samples is in its loop, `Agent_OnUnload` on another
thread can delete the profiler without a step of any other thread, so that the next access of the
thread that samples is to a profiler that is deleted. -/
theorem sampler_access_freed {l : AgentLog} {c : AgentConf} {t u : ℕ}
    (hrun : agentSystem.machine.Run l c) (hagent : c.shared.agent = true)
    (hmutex : c.shared.mutex = {}) (ht : c.threads t = .idle)
    (hu : c.threads u = .running .sampler) :
    ∃ l' c', agentSystem.machine.Run (l ++ l' ++
        [((u, .access .profiler), [.accessed (.thread .sampler) .profiler false])]) c' ∧
      ∀ e ∈ l', e.1.1 = t := by
  have hne : u ≠ t := by
    rintro rfl
    rw [ht] at hu
    cases hu
  -- the lock, and the reset of `agent`
  let c₁ : AgentConf := ⟨{ c.shared with mutex := { writer := true } },
    Function.update c.threads t .resetting⟩
  have hlock : agentSystem.machine.step c (t, .unload) = some (c₁, []) :=
    agent_machine_step (by rw [ht, agentStep, hmutex]; rfl)
  let c₂ : AgentConf := ⟨{ c₁.shared with agent := false },
    Function.update c₁.threads t (.unloading agentDestructor)⟩
  have hreset : agentSystem.machine.step c₁ (t, .next) = some (c₂, []) := by
    refine agent_machine_step ?_
    have hposition : c₁.threads t = .resetting := Function.update_self _ _ _
    rw [hposition, agentStep, if_pos (show c₁.shared.agent = true from hagent)]
  obtain ⟨l', c₃, hrun', hsteps, hothers, hfreed⟩ :=
    exists_run_unloading (c := c₂) agentDestructor (Function.update_self _ _ _)
  -- the position of the other thread is still the same
  have hposition : c₃.threads u = .running .sampler := by
    rw [hothers u hne]
    change Function.update (Function.update c.threads t _) t _ u = _
    rw [Function.update_of_ne hne, Function.update_of_ne hne, hu]
  have haccess : agentSystem.machine.step c₃ (u, .access .profiler) =
      some (⟨c₃.shared, Function.update c₃.threads u (.running .sampler)⟩,
        [.accessed (.thread .sampler) .profiler false]) := by
    refine agent_machine_step ?_
    have hdead : c₃.shared.isAlive .profiler = false := by
      rw [Process.isAlive, hfreed .profiler (Or.inl (by decide))]
      rfl
    rw [hposition, agentStep, hdead]
  refine ⟨((t, .unload), []) :: ((t, .next), []) :: l', _,
    (LogMachine.runFrom_concat _).mpr
      ⟨c₃, (LogMachine.runFrom_append _).mpr ⟨c, hrun, ?_⟩, haccess⟩, ?_⟩
  · exact (LogMachine.runFrom_cons _).mpr ⟨c₁, hlock,
      (LogMachine.runFrom_cons _).mpr ⟨c₂, hreset, hrun'⟩⟩
  · exact List.forall_mem_cons.mpr ⟨rfl, List.forall_mem_cons.mpr ⟨rfl, hsteps⟩⟩

/-- The agent is loaded, and the thread that samples starts. -/
def sampleStart : List (ℕ × AgentAction) :=
  [(0, .load true), (0, .enterUnguarded), (0, .startProfiler), (0, .leave),
    (1, .startThread .sampler)]

/-- After the start of the sample, the thread that samples can find its profiler deleted. -/
theorem sampleStart_freed :
    ∃ l, l.map Prod.fst = sampleStart ∧ ∃ l' c', agentSystem.machine.Run (l ++ l' ++
        [((1, .access .profiler), [.accessed (.thread .sampler) .profiler false])]) c' ∧
      ∀ e ∈ l', e.1.1 = 0 := by
  have hexec : (agentSystem.machine.exec agentSystem.machine.init sampleStart).map
      (fun r => (r.1.shared.agent, r.1.shared.mutex, r.1.threads 0, r.1.threads 1)) =
      some (true, {}, .idle, .running .sampler) := by decide
  obtain ⟨l, c, hrun, hes, heq⟩ := LogMachine.exists_run_of_map_exec hexec
  simp only [Prod.mk.injEq] at heq
  obtain ⟨hagent, hmutex, hidle, hrunning⟩ := heq
  exact ⟨l, hes, sampler_access_freed hrun hagent hmutex hidle hrunning⟩

end KotlinTracer
