import KotlinTracer.Profiler.Steps

set_option relaxedAutoImplicit false
set_option autoImplicit false

/-!
# Threads that start and exit

The registry of the threads of the VM (`addCurrentThread` and `findThread` of `vm/jvm.cpp`) over the
life of the process. A thread registers itself when it starts, under its `pthread_t`; nothing
removes its record when it exits, and the operating system may give its `pthread_t` to a later
thread.

## Main definitions

* `KotlinTracer.ThreadEvent`, `KotlinTracer.Threads`, `KotlinTracer.threadMachine` — the profiler
  together with the threads that are alive and what they registered.
* `KotlinTracer.Threads.FindsOwn` — `findThread` returns the record that a live thread registered.

## Main results

* `KotlinTracer.findThread_own_iff` — a live registered thread finds its own record iff no earlier
  thread has registered itself under the same `pthread_t`.

## Design

The machine extends the one of the profiler by the exits of threads. Which threads are alive, and
where the record of each is in the list, is not known to the program; it is there to state the
property. A start is possible only under a `pthread_t` that no live thread has.
-/

namespace KotlinTracer

/-! ## The machine -/

/-- What a thread registered when it started, and the position of the record in the list. -/
structure Registration where
  position : ℕ
  name : String
  stackLo : ℕ
  stackHi : ℕ
deriving DecidableEq

/-- A callback of the profiler, the start of a thread whose `GetThreadInfo` fails, so that it is not
registered, or the exit of a thread. -/
inductive ThreadEvent
  | callback (e : Event)
  | startUnregistered (thread : PThread)
  | exit (thread : PThread)

/-- The process and its live threads, each with its registration, if it has one. -/
structure Threads where
  profiler : Profiler := {}
  live : PThread → Option (Option Registration) := fun _ => none

namespace Threads

/-- The registration that a callback makes. -/
def registration (p : Profiler) (e : Event) : Option Registration :=
  match e.call with
  | .threadStart name stackLo stackHi => some ⟨p.threads.list.length, name, stackLo, stackHi⟩
  | _ => none

/-- One step of the process. A thread starts under a `pthread_t` that is not in use, and only a live
thread exits. -/
def step (env : Env) (s : Threads) : ThreadEvent → Option (Threads × List Effect)
  | .callback e =>
    match registration s.profiler e with
    | some own =>
      if s.live e.thread = none then
        (s.profiler.step env e).map fun r =>
          (⟨r.1, Function.update s.live e.thread (some (some own))⟩, r.2)
      else none
    | none => (s.profiler.step env e).map fun r => (⟨r.1, s.live⟩, r.2)
  | .startUnregistered t =>
    if s.live t = none then some (⟨s.profiler, Function.update s.live t (some none)⟩, []) else none
  | .exit t =>
    if s.live t = none then none else some (⟨s.profiler, Function.update s.live t none⟩, [])

/-- `findThread` on a live thread returns the record that the thread registered: the one at its
position in the list, with its name and its stack bounds. -/
def FindsOwn (s : Threads) (t : PThread) (own : Registration) : Prop :=
  s.profiler.threads.list.findIdx? (Profiler.isThread t) = some own.position ∧
  ∃ info, s.profiler.findThread t = some info ∧
    s.profiler.threads.list[own.position]? = some info ∧
    info.name = own.name ∧ info.stackLo = own.stackLo ∧ info.stackHi = own.stackHi

end Threads

/-- The machine of the process with its threads. -/
def threadMachine (env : Env) : LogMachine Threads ThreadEvent Effect where
  init := {}
  step := Threads.step env

/-- The event registers a thread under a `pthread_t`. -/
def ThreadEvent.registers (t : PThread) : ThreadEvent → Bool
  | .callback e =>
    match e.call with
    | .threadStart _ _ _ => e.thread == t
    | _ => false
  | .startUnregistered _ | .exit _ => false

/-! ## The records of the list -/

/-- The part of a record that is written only when it is registered. -/
def ThreadInfo.identity (x : ThreadInfo) : PThread × String × ℕ × ℕ :=
  (x.id, x.name, x.stackLo, x.stackHi)

namespace Threads

variable {env : Env} {p p' : Profiler} {e : Event} {o : List Effect}

/-- The counters of the traces are no part of the identities. -/
lemma identity_addCurrentTraces (p : Profiler) (t : PThread) (amount : ℤ) :
    (p.addCurrentTraces t amount).threads.list.map ThreadInfo.identity =
      p.threads.list.map ThreadInfo.identity := by
  simp only [Profiler.addCurrentTraces_threads, ConcurrentList.updateFirst]
  induction p.threads.list with
  | nil => rfl
  | cons x l ih =>
    rw [ConcurrentList.updateFirstIn]
    split_ifs with hx
    · rfl
    · rw [List.map_cons, List.map_cons, ih]

/-- The records after a step: a start appends one, and nothing else changes their identities. -/
lemma identity_step (h : p.step env e = some (p', o)) :
    p'.threads.list.map ThreadInfo.identity =
      p.threads.list.map ThreadInfo.identity ++
        ((registration p e).map fun own =>
          (e.thread, own.name, own.stackLo, own.stackHi)).toList := by
  have hthreads := Profiler.step_threads h
  unfold registration
  cases hcall : e.call with
  | threadStart name stackLo stackHi =>
    rw [hcall] at hthreads
    rw [hthreads]
    simp [ThreadInfo.identity]
  | traceStart c =>
    rw [hcall] at hthreads
    rw [hthreads, identity_addCurrentTraces]
    simp
  | traceEnd c =>
    rw [hcall] at hthreads
    rw [hthreads, identity_addCurrentTraces]
    simp
  | _ =>
    rw [hcall] at hthreads
    rw [hthreads]
    simp

/-- The registration of a live thread in the list of the identities: at its position, and no record
behind it has the same `pthread_t`. -/
structure OwnsRecord (identities : List (PThread × String × ℕ × ℕ)) (t : PThread)
    (own : Registration) : Prop where
  split : ∃ before after,
    identities = before ++ (t, own.name, own.stackLo, own.stackHi) :: after ∧
    before.length = own.position ∧ ∀ y ∈ after, y.1 ≠ t

namespace OwnsRecord

variable {identities more : List (PThread × String × ℕ × ℕ)} {t : PThread} {own : Registration}

/-- Appending records of other threads. -/
lemma append (h : OwnsRecord identities t own) (hmore : ∀ y ∈ more, y.1 ≠ t) :
    OwnsRecord (identities ++ more) t own := by
  obtain ⟨before, after, rfl, hlen, hafter⟩ := h.split
  refine ⟨before, after ++ more, by rw [List.append_assoc, List.cons_append], hlen, ?_⟩
  intro y hy
  rcases List.mem_append.mp hy with hy | hy
  · exact hafter y hy
  · exact hmore y hy

/-- The record is the first one of the thread iff the list has only one record of the thread. -/
lemma findIdx?_eq_iff (h : OwnsRecord identities t own) :
    identities.findIdx? (fun y => y.1 == t) = some own.position ↔
      identities.countP (fun y => y.1 == t) = 1 := by
  obtain ⟨before, after, rfl, hlen, hafter⟩ := h.split
  have hcount : after.countP (fun y => y.1 == t) = 0 := by
    rw [List.countP_eq_zero]
    intro y hy
    simpa using hafter y hy
  have hfirst : before.countP (fun y => y.1 == t) = 0 ↔
      before.findIdx? (fun y => y.1 == t) = none := by
    simp [List.countP_eq_zero, List.findIdx?_eq_none_iff]
  rw [List.countP_append, List.countP_cons, hcount, List.findIdx?_append]
  cases hbefore : before.findIdx? (fun y => y.1 == t) with
  | none =>
    simp [hfirst.mpr hbefore, List.findIdx?_cons, hlen]
  | some i =>
    have hne : before.countP (fun y => y.1 == t) ≠ 0 := by
      intro hzero
      rw [hfirst.mp hzero] at hbefore
      cases hbefore
    have hlt : i < before.length := (List.findIdx?_eq_some_iff_getElem.mp hbefore).1
    constructor
    · intro heq
      have hi : i = own.position := by simpa using heq
      omega
    · intro hone
      rw [if_pos (by simp)] at hone
      omega

end OwnsRecord

/-! ## Runs -/

/-- What holds along a run: the list has one record for every registration, and a live thread owns
the last one under its `pthread_t`. -/
structure Inv (l : List (ThreadEvent × List Effect)) (s : Threads) : Prop where
  count : ∀ t, (s.profiler.threads.list.map ThreadInfo.identity).countP (fun y => y.1 == t) =
    (l.map Prod.fst).countP (ThreadEvent.registers t)
  owns : ∀ t own, s.live t = some (some own) →
    OwnsRecord (s.profiler.threads.list.map ThreadInfo.identity) t own

/-- The registration of a callback is counted under its thread. -/
lemma registers_callback (p : Profiler) (e : Event) (t : PThread) :
    (ThreadEvent.callback e).registers t = ((registration p e).isSome && e.thread == t) := by
  simp only [ThreadEvent.registers, registration]
  cases e.call with
  | threadStart name stackLo stackHi => rfl
  | _ => rfl

variable {l : List (ThreadEvent × List Effect)} {s s' : Threads} {ev : ThreadEvent}

/-- A callback that is not the start of a thread. -/
lemma Inv.callback (h : Inv l s) (hnone : registration s.profiler e = none)
    (hstep : s.profiler.step env e = some (p', o)) :
    Inv (l ++ [(.callback e, o)]) ⟨p', s.live⟩ := by
  have hidentity := identity_step hstep
  simp only [hnone, Option.map_none, Option.toList_none, List.append_nil] at hidentity
  constructor
  · intro t
    rw [hidentity, h.count, List.map_append, List.countP_append]
    simp [registers_callback s.profiler e t, hnone]
  · intro t own hlive
    rw [hidentity]
    exact h.owns t own hlive

/-- The start of a thread under a `pthread_t` that is not in use: its record is the last one of the
list. -/
lemma Inv.start (h : Inv l s) {own : Registration} (hown : registration s.profiler e = some own)
    (hstep : s.profiler.step env e = some (p', o)) :
    Inv (l ++ [(.callback e, o)])
      ⟨p', Function.update s.live e.thread (some (some own))⟩ := by
  have hidentity := identity_step hstep
  simp only [hown, Option.map_some, Option.toList_some] at hidentity
  have hposition : own.position = s.profiler.threads.list.length := by
    unfold registration at hown
    split at hown
    · exact (congrArg Registration.position (Option.some.inj hown)).symm
    · cases hown
  constructor
  · intro t
    rw [hidentity, List.countP_append, h.count, List.map_append, List.countP_append]
    simp [registers_callback s.profiler e t, hown]
  · intro t own' hlive
    change Function.update s.live e.thread (some (some own)) t = some (some own') at hlive
    rw [hidentity]
    by_cases ht : t = e.thread
    · subst ht
      rw [Function.update_self] at hlive
      obtain rfl : own = own' := Option.some.inj (Option.some.inj hlive)
      exact ⟨_, [], rfl, by rw [List.length_map, hposition], by simp⟩
    · rw [Function.update_of_ne ht] at hlive
      refine (h.owns t own' hlive).append ?_
      intro y hy
      rw [List.mem_singleton.mp hy]
      exact fun heq => ht heq.symm

/-- An event that registers nothing and leaves no thread with a new registration. -/
lemma Inv.of_live (h : Inv l s) {live : PThread → Option (Option Registration)}
    (hev : ∀ t, ev.registers t = false)
    (hlive : ∀ t own, live t = some (some own) → s.live t = some (some own)) :
    Inv (l ++ [(ev, o)]) ⟨s.profiler, live⟩ := by
  constructor
  · intro t
    rw [h.count, List.map_append, List.countP_append]
    simp [hev t]
  · intro t own h'
    exact h.owns t own (hlive t own h')

/-- Clearing or leaving unregistered one thread adds no registration. -/
lemma live_of_update {live : PThread → Option (Option Registration)} {t t' : PThread}
    {entry : Option (Option Registration)} {own : Registration}
    (hentry : ∀ own, entry ≠ some (some own))
    (h : Function.update live t entry t' = some (some own)) : live t' = some (some own) := by
  by_cases ht : t' = t
  · subst ht
    rw [Function.update_self] at h
    exact absurd h (hentry own)
  · rwa [Function.update_of_ne ht] at h

/-- Every step of the process keeps the invariant. -/
lemma Inv.step (h : Inv l s) (hstep : s.step env ev = some (s', o)) : Inv (l ++ [(ev, o)]) s' := by
  cases ev with
  | callback e =>
    simp only [Threads.step] at hstep
    cases hreg : registration s.profiler e with
    | none =>
      simp only [hreg, Option.map_eq_some_iff, Prod.mk.injEq, Prod.exists] at hstep
      obtain ⟨p', o', hp, rfl, rfl⟩ := hstep
      exact h.callback hreg hp
    | some own =>
      simp only [hreg] at hstep
      split_ifs at hstep with hlive
      simp only [Option.map_eq_some_iff, Prod.mk.injEq, Prod.exists] at hstep
      obtain ⟨p', o', hp, rfl, rfl⟩ := hstep
      exact h.start hreg hp
  | startUnregistered t =>
    simp only [Threads.step] at hstep
    split_ifs at hstep with hlive
    cases hstep
    exact h.of_live (fun _ => rfl) fun t' own h' => live_of_update (by simp) h'
  | exit t =>
    simp only [Threads.step] at hstep
    split_ifs at hstep with hlive
    cases hstep
    exact h.of_live (fun _ => rfl) fun t' own h' => live_of_update (by simp) h'

/-- The invariant holds at the end of every run. -/
lemma Inv.of_run (hrun : (threadMachine env).Run l s) : Inv l s := by
  refine LogMachine.RunFrom.invariant (I := Inv) ?_ ?_ hrun
  · constructor
    · intro t
      rfl
    · intro t own hlive
      cases hlive
  · intro l s ev o s' _ h hstep
    exact h.step hstep

/-- The first record of a thread, by the identities. -/
lemma findIdx?_isThread (s : Threads) (t : PThread) :
    s.profiler.threads.list.findIdx? (Profiler.isThread t) =
      (s.profiler.threads.list.map ThreadInfo.identity).findIdx? (fun y => y.1 == t) := by
  rw [List.findIdx?_map]
  rfl

/-- A thread whose record is the first one under its `pthread_t` finds it, with the name and the
stack bounds that it registered. -/
lemma FindsOwn.of_findIdx? {t : PThread} {own : Registration}
    (howns : OwnsRecord (s.profiler.threads.list.map ThreadInfo.identity) t own)
    (h : s.profiler.threads.list.findIdx? (Profiler.isThread t) = some own.position) :
    s.FindsOwn t own := by
  obtain ⟨hlt, hthis, hbefore⟩ := List.findIdx?_eq_some_iff_getElem.mp h
  refine ⟨h, s.profiler.threads.list[own.position], ?_, List.getElem?_eq_getElem hlt, ?_⟩
  · rw [Profiler.findThread, ConcurrentList.find, List.find?_eq_some_iff_getElem]
    exact ⟨hthis, own.position, hlt, rfl, fun j hj => by simpa using hbefore j hj⟩
  · obtain ⟨before, after, hsplit, hlen, -⟩ := howns.split
    have hidentity : (s.profiler.threads.list.map ThreadInfo.identity)[own.position]? =
        some (t, own.name, own.stackLo, own.stackHi) := by
      rw [hsplit, ← hlen, List.getElem?_append_right le_rfl, Nat.sub_self]
      rfl
    rw [List.getElem?_map, List.getElem?_eq_getElem hlt] at hidentity
    simp only [Option.map_some, Option.some.injEq, ThreadInfo.identity, Prod.mk.injEq] at hidentity
    exact hidentity.2

end Threads

/-- **A thread finds its own record** iff it is the only one that registered itself under its
`pthread_t`: in every run, a live registered thread finds by `findThread` the record that it
registered, with its own name, stack bounds and trace counter, exactly when no earlier thread
registered itself under the same `pthread_t`.

**Proof sketch.** The list has one record for every registration, in their order, and the record of
a live thread is the last one under its `pthread_t`. `findThread` returns the first one. -/
theorem findThread_own_iff (env : Env) (l : List (ThreadEvent × List Effect)) (s : Threads)
    (hrun : (threadMachine env).Run l s) (t : PThread) (own : Registration)
    (hlive : s.live t = some (some own)) :
    s.FindsOwn t own ↔ (l.map Prod.fst).countP (ThreadEvent.registers t) = 1 := by
  have hinv := Threads.Inv.of_run hrun
  have howns := hinv.owns t own hlive
  rw [← hinv.count t, ← howns.findIdx?_eq_iff, ← Threads.findIdx?_isThread]
  constructor
  · rintro ⟨hfirst, -⟩
    exact hfirst
  · intro hfirst
    exact Threads.FindsOwn.of_findIdx? howns hfirst

/-- Two threads start, and the first one exits. -/
def distinctThreads : List ThreadEvent :=
  [.callback ((Call.threadStart "main" 0 1000).at 1 1),
    .callback ((Call.threadStart "worker" 2000 3000).at 2 2), .exit 1]

/-- The second of these threads finds its own record. -/
theorem findThread_distinctThreads :
    ∃ l s, (threadMachine .sample).Run l s ∧ l.map Prod.fst = distinctThreads ∧
      s.live 2 = some (some ⟨1, "worker", 2000, 3000⟩) ∧
      s.FindsOwn 2 ⟨1, "worker", 2000, 3000⟩ := by
  have hexec : ((threadMachine .sample).exec (threadMachine .sample).init distinctThreads).map
      (fun q => q.1.live 2) = some (some (some ⟨1, "worker", 2000, 3000⟩)) := by decide
  obtain ⟨l, s, hrun, hes, hlive⟩ := LogMachine.exists_run_of_map_exec hexec
  refine ⟨l, s, hrun, hes, hlive, ?_⟩
  refine (findThread_own_iff .sample l s hrun 2 ⟨1, "worker", 2000, 3000⟩ hlive).mpr ?_
  rw [hes]
  decide

/-- A thread exits, and a later thread gets its `pthread_t`. -/
def reusedThread : List ThreadEvent :=
  [.callback ((Call.threadStart "old" 0 1000).at 1 1), .exit 1,
    .callback ((Call.threadStart "new" 2000 3000).at 1 2)]

/-- **A reused `pthread_t` finds the record of the exited thread**, with the name and the stack
bounds of that thread. -/
theorem findThread_reusedThread :
    ∃ l s, (threadMachine .sample).Run l s ∧ l.map Prod.fst = reusedThread ∧
      s.live 1 = some (some ⟨1, "new", 2000, 3000⟩) ∧
      s.profiler.findThread 1 =
        some { name := "old", id := 1, stackLo := 0, stackHi := 1000 } ∧
      ¬ s.FindsOwn 1 ⟨1, "new", 2000, 3000⟩ := by
  have hexec : ((threadMachine .sample).exec (threadMachine .sample).init reusedThread).map
      (fun q => (q.1.live 1, q.1.profiler.findThread 1)) =
        some (some (some ⟨1, "new", 2000, 3000⟩),
          some { name := "old", id := 1, stackLo := 0, stackHi := 1000 }) := by decide
  obtain ⟨l, s, hrun, hes, hend⟩ := LogMachine.exists_run_of_map_exec hexec
  simp only [Prod.mk.injEq] at hend
  obtain ⟨hlive, hfound⟩ := hend
  refine ⟨l, s, hrun, hes, hlive, hfound, ?_⟩
  rintro ⟨-, info, hinfo, -, hname, -⟩
  obtain rfl := Option.some.inj (hfound.symm.trans hinfo)
  exact absurd hname (by decide)

end KotlinTracer
