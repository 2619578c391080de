import KotlinTracer.Lib.Interleave
import KotlinTracer.Profiler.Names

set_option relaxedAutoImplicit false
set_option autoImplicit false

/-!
# Names of methods, resolved by many threads

`processMethodInfo` and `processProfilerMethodInfo` run on the threads of the application and on the
sampler, and fill the two caches of names by several accesses, each under the lock of its map
(`profiler/profiler.cpp`). Here an access is a step, and the accesses of any number of calls are
interleaved.

## Main definitions

* `KotlinTracer.NameCall`, `KotlinTracer.NameSection` — the calls, and the accesses of a call.
* `KotlinTracer.NameSection.access` — an access to a cache.
* `KotlinTracer.nameSystem` — the threads that make these calls.

## Main results

* `KotlinTracer.nameOutline` — the proof outline of the calls: a thread that is going to read an
  entry finds it, with the answer of JVMTI.
* `KotlinTracer.names_interleaved` — in every interleaving a cached method has its class cached,
  entries never change, and every call returns the frame of its method after at most six accesses.
* `KotlinTracer.runCall_eq` — a call that no other thread interrupts is the call of the profiler.

## Design

The two functions have the same accesses to the caches, so they share the sections. The frame that a
call returns consists of pointers to entries of the caches; the model returns the names that are
there, which is the same because entries never change.
-/

namespace KotlinTracer

/-! ## Calls and their accesses -/

/-- A call of one of the two functions. -/
inductive NameCall
  | processMethodInfo (methodId : JMethodID)
  | processProfilerMethodInfo (instructionInfo : InstructionInfo)
deriving DecidableEq

/-- The method that a call resolves through the caches: none for a native instruction and for a null
method id. -/
def NameCall.method? : NameCall → Option JMethodID
  | .processMethodInfo methodId => some methodId
  | .processProfilerMethodInfo i =>
    if i.javaFrame ∧ i.instruction ≠ 0 then some i.instruction else none

/-- The next access of a call, with what the call has read and been told so far: `name` is the name
with the signature of the method, and `className` what the class cache holds. -/
inductive NameSection
  | methodContains
  /-- The method is cached. -/
  | cachedMethodGet
  | cachedClassGet (method : String)
  /-- The method is not cached. -/
  | classContains (name : String)
  | classInsert (name : String)
  | classGet (name : String)
  | methodInsert (name className : String)
  | methodGet (className : String)
deriving DecidableEq

/-- What a call does after an access: it makes another one, or returns. -/
inductive NameResult
  | goOn (next : NameSection)
  | finish (frame : StackFrame)

/-- An access to one of the caches, for a method. -/
def NameSection.access (env : Env) (p : Profiler) (m : JMethodID) :
    NameSection → Profiler × NameResult
  | .methodContains =>
    (p, .goOn (if p.methodInfoMap.contains m then .cachedMethodGet
      else .classContains ((env.getMethodName m).1 ++ (env.getMethodName m).2)))
  | .cachedMethodGet =>
    let method := p.methodInfoMap.get "" m
    ({ p with methodInfoMap := method.2 }, .goOn (.cachedClassGet method.1))
  | .cachedClassGet method =>
    let class_ := p.classInfoMap.get "" m
    ({ p with classInfoMap := class_.2 }, .finish ⟨method, class_.1⟩)
  | .classContains name =>
    (p, .goOn (if p.classInfoMap.contains m then .classGet name else .classInsert name))
  | .classInsert name =>
    ({ p with classInfoMap := (p.classInfoMap.insert m (Profiler.className env m)).2 },
      .goOn (.classGet name))
  | .classGet name =>
    let class_ := p.classInfoMap.get "" m
    ({ p with classInfoMap := class_.2 }, .goOn (.methodInsert name class_.1))
  | .methodInsert name className =>
    ({ p with methodInfoMap := (p.methodInfoMap.insert m name).2 }, .goOn (.methodGet className))
  | .methodGet className =>
    let method := p.methodInfoMap.get "" m
    ({ p with methodInfoMap := method.2 }, .finish ⟨method.1, className⟩)

/-- A thread in a call that resolves a method. -/
structure NameThread where
  call : NameCall
  method : JMethodID
  next : NameSection
deriving DecidableEq

/-- What a thread does: call a function, or make the next access of its call. -/
inductive NameAction
  | call (c : NameCall)
  | access

/-- A call has returned a frame. -/
inductive NameEffect
  | returned (call : NameCall) (frame : StackFrame)

/-- A step of a thread, which is in a call or not. -/
def nameStep (env : Env) (p : Profiler) :
    Option NameThread → NameAction → Option (Profiler × Option NameThread × List NameEffect)
  | none, .call c =>
    match c with
    | .processMethodInfo m => some (p, some ⟨c, m, .methodContains⟩, [])
    | .processProfilerMethodInfo i =>
      if i.javaFrame ∧ i.instruction ≠ 0 then
        some (p, some ⟨c, i.instruction, .methodContains⟩, [])
      -- the caches are not used
      else some (p, none, [.returned c (Profiler.processProfilerMethodInfo env p i).1])
  | some thread, .access =>
    match thread.next.access env p thread.method with
    | (p', .goOn next) => some (p', some { thread with next := next }, [])
    | (p', .finish frame) => some (p', none, [.returned thread.call frame])
  | none, .access | some _, .call _ => none

/-- The threads that resolve names, from empty caches. -/
def nameSystem (env : Env) :
    ThreadSystem Profiler (Option NameThread) NameAction NameEffect where
  init := {}
  start := none
  step := nameStep env

/-! ## A call alone -/

/-- Make the accesses of a call one after the other, `n` at most: the frame it returns and the
caches after it. -/
def runCall (env : Env) (m : JMethodID) :
    ℕ → Profiler → NameSection → Option (StackFrame × Profiler)
  | 0, _, _ => none
  | n + 1, p, next =>
    match next.access env p m with
    | (p', .goOn next') => runCall env m n p' next'
    | (p', .finish frame) => some (frame, p')

/-- A call that no other thread interrupts is the call of the profiler: the sections are those of
`processMethodInfo`, and of `processProfilerMethodInfo` for a Java method. -/
theorem runCall_eq (env : Env) (p : Profiler) (m : JMethodID) :
    runCall env m 6 p .methodContains = some (Profiler.resolveMethod env p m) := by
  rw [Profiler.resolveMethod]
  by_cases hmethod : p.methodInfoMap.contains m
  · simp [runCall, NameSection.access, hmethod]
  · by_cases hclass : p.classInfoMap.contains m
    · simp [runCall, NameSection.access, hmethod, hclass]
    · simp [runCall, NameSection.access, hmethod, hclass]

/-! ## The proof outline -/

/-- What a thread knows before its next access: the names it has been told, and which entries are in
the caches. -/
def NameSection.Assertion (env : Env) (p : Profiler) (m : JMethodID) : NameSection → Prop
  | .methodContains => True
  | .cachedMethodGet => p.methodInfoMap.at? m = some (methodFrame env m).frame
  | .cachedClassGet method =>
    method = (methodFrame env m).frame ∧ p.classInfoMap.at? m = some (methodFrame env m).base
  | .classContains name | .classInsert name => name = (methodFrame env m).frame
  | .classGet name =>
    name = (methodFrame env m).frame ∧ p.classInfoMap.at? m = some (methodFrame env m).base
  | .methodInsert name className =>
    name = (methodFrame env m).frame ∧ className = (methodFrame env m).base ∧
      p.classInfoMap.at? m = some (methodFrame env m).base
  | .methodGet className =>
    className = (methodFrame env m).base ∧
      p.methodInfoMap.at? m = some (methodFrame env m).frame

/-- The entries of both caches are kept. -/
structure Profiler.NamesKept (p p' : Profiler) : Prop where
  method : ∀ m name, p.methodInfoMap.at? m = some name → p'.methodInfoMap.at? m = some name
  class_ : ∀ m name, p.classInfoMap.at? m = some name → p'.classInfoMap.at? m = some name

section Accesses

variable {env : Env} {p p' : Profiler} {m : JMethodID} {next : NameSection}

/-- The assertions are stable: entries that are kept do not invalidate them. -/
lemma NameSection.Assertion.stable (h : next.Assertion env p m) (hkept : p.NamesKept p') :
    next.Assertion env p' m := by
  cases next with
  | methodContains => trivial
  | cachedMethodGet => exact hkept.method m _ h
  | cachedClassGet method => exact ⟨h.1, hkept.class_ m _ h.2⟩
  | classContains name => exact h
  | classInsert name => exact h
  | classGet name => exact ⟨h.1, hkept.class_ m _ h.2⟩
  | methodInsert name className => exact ⟨h.1, h.2.1, hkept.class_ m _ h.2.2⟩
  | methodGet className => exact ⟨h.1, hkept.method m _ h.2⟩

/-- Caches with the same entries are coherent together. -/
lemma Profiler.NamesCoherent.of_at? (h : p.NamesCoherent env)
    (hmethod : ∀ k, p'.methodInfoMap.at? k = p.methodInfoMap.at? k)
    (hclass : ∀ k, p'.classInfoMap.at? k = p.classInfoMap.at? k) :
    p'.NamesCoherent env ∧ p.NamesKept p' := by
  refine ⟨⟨?_, ?_⟩, ?_, ?_⟩
  · intro k name hk
    rw [hclass]
    exact h.method k name ((hmethod k).symm.trans hk)
  · intro k name hk
    exact h.class_ k name ((hclass k).symm.trans hk)
  · intro k name hk
    rw [hmethod, hk]
  · intro k name hk
    rw [hclass, hk]

/-- Reading an entry that is there changes nothing. -/
lemma get_of_at? {map : ConcurrentCleanableMap JMethodID String} {name : String}
    (h : map.at? m = some name) :
    (map.get "" m).1 = name ∧ ∀ k, (map.get "" m).2.at? k = map.at? k := by
  refine ⟨by rw [ConcurrentCleanableMap.get_fst, h, Option.getD_some], fun k => ?_⟩
  rw [ConcurrentCleanableMap.at?_get]
  by_cases hk : k = m
  · rw [hk, if_pos rfl, h, Option.getD_some]
  · rw [if_neg hk]

/-- Reading a cached method. -/
lemma Profiler.NamesCoherent.methodGet (h : p.NamesCoherent env) {name : String}
    (hmethod : p.methodInfoMap.at? m = some name) :
    Profiler.NamesCoherent env { p with methodInfoMap := (p.methodInfoMap.get "" m).2 } ∧
      p.NamesKept { p with methodInfoMap := (p.methodInfoMap.get "" m).2 } :=
  h.of_at? (get_of_at? hmethod).2 fun _ => rfl

/-- Reading a cached class. -/
lemma Profiler.NamesCoherent.classGet (h : p.NamesCoherent env) {name : String}
    (hclass : p.classInfoMap.at? m = some name) :
    Profiler.NamesCoherent env { p with classInfoMap := (p.classInfoMap.get "" m).2 } ∧
      p.NamesKept { p with classInfoMap := (p.classInfoMap.get "" m).2 } :=
  h.of_at? (fun _ => rfl) (get_of_at? hclass).2

/-- Inserting the answer of JVMTI into the class cache. -/
lemma Profiler.NamesCoherent.classInsert (h : p.NamesCoherent env) (m : JMethodID) :
    Profiler.NamesCoherent env
        { p with classInfoMap := (p.classInfoMap.insert m (Profiler.className env m)).2 } ∧
      p.NamesKept
        { p with classInfoMap := (p.classInfoMap.insert m (Profiler.className env m)).2 } ∧
      (p.classInfoMap.insert m (Profiler.className env m)).2.at? m =
        some (methodFrame env m).base := by
  have hat : ∀ k, (p.classInfoMap.insert m (Profiler.className env m)).2.at? k =
      if k = m then some (methodFrame env m).base else p.classInfoMap.at? k :=
    ConcurrentCleanableMap.at?_insert_of_agree (h.class_ m)
  refine ⟨⟨?_, ?_⟩, ⟨fun _ _ hk => hk, ?_⟩, by rw [hat, if_pos rfl]⟩
  · intro k name hk
    refine ⟨(h.method k name hk).1, ?_⟩
    change (p.classInfoMap.insert m (Profiler.className env m)).2.at? k = _
    rw [hat]
    split_ifs with hkm
    · rw [hkm]
    · exact (h.method k name hk).2
  · intro k name hk
    change (p.classInfoMap.insert m (Profiler.className env m)).2.at? k = _ at hk
    rw [hat] at hk
    split_ifs at hk with hkm
    · rw [hkm]
      exact (Option.some.inj hk).symm
    · exact h.class_ k name hk
  · intro k name hk
    change (p.classInfoMap.insert m (Profiler.className env m)).2.at? k = _
    rw [hat]
    split_ifs with hkm
    · rw [← hkm, ← h.class_ k name hk]
    · exact hk

/-- Inserting the name of a method whose class is cached. -/
lemma Profiler.NamesCoherent.methodInsert (h : p.NamesCoherent env)
    (hclass : p.classInfoMap.at? m = some (methodFrame env m).base) :
    Profiler.NamesCoherent env
        { p with methodInfoMap := (p.methodInfoMap.insert m (methodFrame env m).frame).2 } ∧
      p.NamesKept
        { p with methodInfoMap := (p.methodInfoMap.insert m (methodFrame env m).frame).2 } ∧
      (p.methodInfoMap.insert m (methodFrame env m).frame).2.at? m =
        some (methodFrame env m).frame := by
  have hat : ∀ k, (p.methodInfoMap.insert m (methodFrame env m).frame).2.at? k =
      if k = m then some (methodFrame env m).frame else p.methodInfoMap.at? k :=
    ConcurrentCleanableMap.at?_insert_of_agree fun name hname => (h.method m name hname).1
  refine ⟨⟨?_, h.class_⟩, ⟨?_, fun _ _ hk => hk⟩, by rw [hat, if_pos rfl]⟩
  · intro k name hk
    change (p.methodInfoMap.insert m (methodFrame env m).frame).2.at? k = _ at hk
    rw [hat] at hk
    split_ifs at hk with hkm
    · rw [hkm]
      exact ⟨(Option.some.inj hk).symm, hclass⟩
    · exact h.method k name hk
  · intro k name hk
    change (p.methodInfoMap.insert m (methodFrame env m).frame).2.at? k = _
    rw [hat]
    split_ifs with hkm
    · rw [← hkm, ← (h.method k name hk).1]
    · exact hk

/-- What an access leaves to its call: the next assertion, or the frame of the method. -/
def NameResult.Correct (env : Env) (p : Profiler) (m : JMethodID) : NameResult → Prop
  | .goOn next => next.Assertion env p m
  | .finish frame => frame = methodFrame env m

/-- **Every access of a call** that starts with its assertion keeps the caches coherent and their
entries, and leads to the next assertion or to the frame of the method. -/
lemma NameSection.access_spec (h : p.NamesCoherent env) (hnext : next.Assertion env p m) :
    (next.access env p m).1.NamesCoherent env ∧ p.NamesKept (next.access env p m).1 ∧
      (next.access env p m).2.Correct env (next.access env p m).1 m := by
  have hkept : p.NamesKept p := ⟨fun _ _ hk => hk, fun _ _ hk => hk⟩
  cases next with
  | methodContains =>
    refine ⟨h, hkept, ?_⟩
    change NameSection.Assertion env p m (ite _ _ _)
    split_ifs with hcontains
    · obtain ⟨name, hname⟩ := ConcurrentCleanableMap.contains_iff.mp hcontains
      change p.methodInfoMap.at? m = _
      rw [hname, (h.method m name hname).1]
    · rfl
  | cachedMethodGet =>
    obtain ⟨hcoherent, hkept⟩ := h.methodGet hnext
    exact ⟨hcoherent, hkept, (get_of_at? hnext).1, (h.method m _ hnext).2⟩
  | cachedClassGet method =>
    obtain ⟨hmethod, hclass⟩ := hnext
    obtain ⟨hcoherent, hkept⟩ := h.classGet hclass
    refine ⟨hcoherent, hkept, ?_⟩
    change (⟨method, (p.classInfoMap.get "" m).1⟩ : StackFrame) = methodFrame env m
    rw [(get_of_at? hclass).1, hmethod]
  | classContains name =>
    refine ⟨h, hkept, ?_⟩
    change NameSection.Assertion env p m (ite _ _ _)
    split_ifs with hcontains
    · obtain ⟨base, hbase⟩ := ConcurrentCleanableMap.contains_iff.mp hcontains
      refine ⟨hnext, ?_⟩
      rw [hbase, h.class_ m base hbase]
    · exact hnext
  | classInsert name =>
    obtain ⟨hcoherent, hkept, hat⟩ := h.classInsert m
    exact ⟨hcoherent, hkept, hnext, hat⟩
  | classGet name =>
    obtain ⟨hname, hclass⟩ := hnext
    obtain ⟨hcoherent, hkept⟩ := h.classGet hclass
    obtain ⟨hread, hat⟩ := get_of_at? hclass
    exact ⟨hcoherent, hkept, hname, hread, (hat m).trans hclass⟩
  | methodInsert name className =>
    obtain ⟨rfl, hclassName, hclass⟩ := hnext
    obtain ⟨hcoherent, hkept, hat⟩ := h.methodInsert hclass
    exact ⟨hcoherent, hkept, hclassName, hat⟩
  | methodGet className =>
    obtain ⟨hclassName, hmethod⟩ := hnext
    obtain ⟨hcoherent, hkept⟩ := h.methodGet hmethod
    refine ⟨hcoherent, hkept, ?_⟩
    change (⟨(p.methodInfoMap.get "" m).1, className⟩ : StackFrame) = methodFrame env m
    rw [(get_of_at? hmethod).1, hclassName]

end Accesses

/-! ## Interleavings -/

/-- The assertion of a thread: none when it is in no call. -/
def NameThread.Assertion (env : Env) (p : Profiler) (thread : Option NameThread) : Prop :=
  ∀ x ∈ thread, x.call.method? = some x.method ∧ x.next.Assertion env p x.method

/-- A call that resolves a method returns the frame of the method. -/
def NameEffect.Correct (env : Env) : NameEffect → Prop
  | .returned call frame => ∀ m, call.method? = some m → frame = methodFrame env m

section Interleavings

variable {env : Env} {p p' : Profiler} {thread thread' : Option NameThread} {a : NameAction}
  {o : List NameEffect}

/-- **Every step of a thread** that starts with its assertion keeps the caches coherent and their
entries, and leads to its next assertion; what it returns is correct. -/
lemma nameStep_spec (h : p.NamesCoherent env) (hthread : NameThread.Assertion env p thread)
    (hstep : nameStep env p thread a = some (p', thread', o)) :
    p'.NamesCoherent env ∧ p.NamesKept p' ∧ NameThread.Assertion env p' thread' ∧
      ∀ x ∈ o, x.Correct env := by
  cases thread with
  | none =>
    cases a with
    | access => cases hstep
    | call c =>
      have hkept : p.NamesKept p := ⟨fun _ _ hk => hk, fun _ _ hk => hk⟩
      cases c with
      | processMethodInfo m =>
        cases hstep
        refine ⟨h, hkept, ?_, by simp⟩
        intro x hx
        obtain rfl := Option.some.inj hx
        exact ⟨rfl, trivial⟩
      | processProfilerMethodInfo i =>
        simp only [nameStep] at hstep
        split_ifs at hstep with hjava
        · cases hstep
          refine ⟨h, hkept, ?_, by simp⟩
          intro x hx
          obtain rfl := Option.some.inj hx
          exact ⟨if_pos hjava, trivial⟩
        · cases hstep
          refine ⟨h, hkept, by simp [NameThread.Assertion], ?_⟩
          intro x hx m hm
          obtain rfl := List.mem_singleton.mp hx
          rw [NameCall.method?, if_neg hjava] at hm
          cases hm
  | some x =>
    cases a with
    | call c => cases hstep
    | access =>
      obtain ⟨hcall, hnext⟩ := hthread x rfl
      obtain ⟨hcoherent, hkept, hresult⟩ := NameSection.access_spec h hnext
      simp only [nameStep] at hstep
      generalize x.next.access env p x.method = result at hstep hcoherent hkept hresult
      obtain ⟨q, result⟩ := result
      cases result with
      | goOn next =>
        cases hstep
        refine ⟨hcoherent, hkept, ?_, by simp⟩
        intro y hy
        obtain rfl := Option.some.inj hy
        exact ⟨hcall, hresult⟩
      | finish frame =>
        cases hstep
        refine ⟨hcoherent, hkept, by simp [NameThread.Assertion], ?_⟩
        intro y hy m hm
        obtain rfl := List.mem_singleton.mp hy
        obtain rfl := Option.some.inj (hcall.symm.trans hm)
        exact hresult

/-- **The proof outline of the calls.** The caches are coherent, and every thread has its assertion;
the accesses of a thread keep the entries, hence the assertions of the others. -/
theorem nameOutline (env : Env) :
    (nameSystem env).Outline (Profiler.NamesCoherent env) (NameThread.Assertion env)
      (fun _ _ _ => True) (fun _ _ _ _ => True) (NameEffect.Correct env) where
  init := by
    constructor <;> intro m name hm <;> cases hm
  start := by
    intro x hx
    cases hx
  own := by
    intro p thread a p' thread' o h hthread _ hstep
    obtain ⟨hcoherent, -, hthread', ho⟩ := nameStep_spec h hthread hstep
    exact ⟨hcoherent, hthread', ho⟩
  other := by
    intro p thread a p' thread' o other h hthread hother _ hstep
    obtain ⟨-, hkept, -, -⟩ := nameStep_spec h hthread hstep
    intro x hx
    exact ⟨(hother x hx).1, (hother x hx).2.stable hkept⟩

/-- The number of accesses that a call has still to make, at most. -/
def NameSection.remaining : NameSection → ℕ
  | .methodContains => 6
  | .cachedMethodGet => 2
  | .cachedClassGet _ => 1
  | .classContains _ => 5
  | .classInsert _ => 4
  | .classGet _ => 3
  | .methodInsert _ _ => 2
  | .methodGet _ => 1

lemma NameSection.remaining_pos (next : NameSection) : 0 < next.remaining := by
  cases next <;> simp [remaining]

lemma NameSection.remaining_le (next : NameSection) : next.remaining ≤ 6 := by
  cases next <;> simp [remaining]

/-- An access that does not end the call brings it nearer to its end. -/
lemma NameSection.remaining_access {m : JMethodID} {next next' : NameSection}
    (h : (next.access env p m).2 = .goOn next') : next'.remaining < next.remaining := by
  cases next with
  | methodContains =>
    cases h
    split_ifs <;> simp [remaining]
  | classContains name =>
    cases h
    split_ifs <;> simp [remaining]
  | cachedMethodGet | classInsert name | classGet name | methodInsert name className =>
    cases h
    simp [remaining]
  | cachedClassGet method | methodGet className => cases h

/-- What a thread in a call does: its next access, by which it returns or gets nearer to that. -/
lemma nameStep_of_call {x : NameThread}
    (hstep : nameStep env p (some x) a = some (p', thread', o)) :
    (∃ next, thread' = some { x with next := next } ∧ next.remaining < x.next.remaining ∧
        o = []) ∨
      ∃ frame, o = [.returned x.call frame] := by
  cases a with
  | call c => cases hstep
  | access =>
    have hremaining : ∀ next, (x.next.access env p x.method).2 = .goOn next →
        next.remaining < x.next.remaining := fun next => NameSection.remaining_access
    simp only [nameStep] at hstep
    generalize x.next.access env p x.method = result at hstep hremaining
    obtain ⟨q, result⟩ := result
    cases result with
    | goOn next =>
      cases hstep
      exact .inl ⟨next, rfl, hremaining next rfl, rfl⟩
    | finish frame =>
      cases hstep
      exact .inr ⟨frame, rfl⟩

/-- A thread in a call can always make its next access. -/
lemma isSome_nameStep_access (env : Env) (p : Profiler) (x : NameThread) :
    (nameStep env p (some x) .access).isSome := by
  simp only [nameStep]
  rcases x.next.access env p x.method with ⟨q, next | frame⟩ <;> rfl

end Interleavings

/-- **Names under every interleaving.** However the accesses of any number of calls of
`processMethodInfo` and `processProfilerMethodInfo` are interleaved: every cached method has its
class cached; entries of the caches never change; every call that resolves a method returns the
frame with the name and signature of the method and the signature of its class without its last
character, from the caches or not; and a thread in a call is never blocked and returns by its sixth
access at the latest. -/
theorem names_interleaved (env : Env) (l : List ((ℕ × NameAction) × List NameEffect))
    (c : ThreadSystem.Conf Profiler (Option NameThread))
    (hrun : (nameSystem env).machine.Run l c) :
    (∀ m, c.shared.methodInfoMap.contains m → c.shared.classInfoMap.contains m) ∧
    (∀ l' c', (nameSystem env).machine.RunFrom c l' c' → c.shared.NamesKept c'.shared) ∧
    (∀ e ∈ l, ∀ call frame, NameEffect.returned call frame ∈ e.2 →
      ∀ m, call.method? = some m →
        frame.frame = (env.getMethodName m).1 ++ (env.getMethodName m).2 ∧
          frame.base = withoutLast (env.getClassSignature m)) ∧
    ∀ t x, c.threads t = some x →
      ((nameSystem env).machine.step c (t, .access)).isSome ∧
      ∀ l' c', (nameSystem env).machine.RunFrom c l' c' →
        6 ≤ (l'.countP fun e => e.1.1 = t) →
        ∃ e ∈ l', e.1.1 = t ∧ ∃ frame, NameEffect.returned x.call frame ∈ e.2 := by
  have hholds := (nameOutline env).of_run hrun
  refine ⟨?_, ?_, ?_, ?_⟩
  · intro m hm
    obtain ⟨name, hname⟩ := ConcurrentCleanableMap.contains_iff.mp hm
    exact ConcurrentCleanableMap.contains_iff.mpr ⟨_, (hholds.invariant.method m name hname).2⟩
  · intro l' c' hrun'
    -- the runs from here on continue the run so far, so that the outline holds along them
    refine LogMachine.RunFrom.invariant (I := fun _ c' => c.shared.NamesKept c'.shared)
      ⟨fun _ _ hk => hk, fun _ _ hk => hk⟩ ?_ hrun'
    intro l₁ c₁ e o c₂ hrun₁ hkept hstep
    have hholds₁ := (nameOutline env).of_run ((nameSystem env).machine.runFrom_append.mpr
      ⟨c, hrun, hrun₁⟩)
    obtain ⟨hsection, -⟩ := ThreadSystem.of_machine_step hstep
    obtain ⟨-, hkept', -, -⟩ :=
      nameStep_spec hholds₁.invariant (hholds₁.assertion e.1) hsection
    exact ⟨fun m name hm => hkept'.method m name (hkept.method m name hm),
      fun m name hm => hkept'.class_ m name (hkept.class_ m name hm)⟩
  · intro e he call frame hreturned m hm
    have hframe : frame = methodFrame env m := hholds.outputs e he _ hreturned m hm
    rw [hframe, methodFrame_eq]
    exact ⟨rfl, rfl⟩
  · intro t x hx
    constructor
    · have hsome := isSome_nameStep_access env c.shared x
      simpa [ThreadSystem.machine, nameSystem, hx] using hsome
    · intro l' c' hrun' hcount
      have hpos : ∀ thread : Option NameThread, (∃ y, thread = some y ∧ y.call = x.call) →
          0 < thread.elim 0 fun y => y.next.remaining := by
        rintro _ ⟨y, rfl, -⟩
        exact y.next.remaining_pos
      obtain ⟨a, o, c₁, c₂, hmem, ⟨y, hy, hcall⟩, hstep, ho⟩ :=
        ThreadSystem.exists_output _ _ hpos (fun p thread a p' thread' hthread hstep => by
          obtain ⟨y, rfl, hcall⟩ := hthread
          rcases nameStep_of_call hstep with ⟨next, rfl, hlt, -⟩ | ⟨frame, ho⟩
          · exact ⟨⟨_, rfl, hcall⟩, hlt⟩
          · cases ho) ⟨x, hx, rfl⟩ hrun'
          (le_trans (by rw [hx]; exact x.next.remaining_le) hcount)
      obtain ⟨hsection, -⟩ := ThreadSystem.of_machine_step hstep
      rw [hy] at hsection
      rcases nameStep_of_call hsection with ⟨-, -, -, hnil⟩ | ⟨frame, rfl⟩
      · exact absurd hnil ho
      · exact ⟨_, hmem, rfl, frame, by rw [hcall]; exact List.mem_singleton_self _⟩

/-- Two threads that resolve the same method, each by one of the two functions; both find the caches
empty. -/
def sameMethod : List (ℕ × NameAction) :=
  [(0, .call (.processMethodInfo 7)), (1, .call (.processProfilerMethodInfo ⟨7, 0, true⟩)),
    (0, .access), (1, .access), (0, .access), (1, .access), (1, .access), (0, .access),
    (0, .access), (1, .access), (0, .access), (0, .access), (1, .access), (1, .access)]

/-- Both threads return `run()V` of `Lapp/Main`. -/
theorem names_interleaved_sameMethod :
    ∃ l c, (nameSystem .sample).machine.Run l c ∧ l.map Prod.fst = sameMethod ∧
      (l.flatMap Prod.snd).length = 2 ∧
      ∀ e ∈ l, ∀ call frame, NameEffect.returned call frame ∈ e.2 →
        ∀ m, call.method? = some m → frame = ⟨"run()V", "Lapp/Main"⟩ := by
  have hexec : ((nameSystem .sample).machine.exec (nameSystem .sample).machine.init sameMethod).map
      (fun r => (r.2.flatMap Prod.snd).length) = some 2 := by decide
  obtain ⟨l, c, hrun, hes, hlength⟩ := LogMachine.exists_run_of_map_exec hexec
  refine ⟨l, c, hrun, hes, hlength, fun e he call frame hreturned m hm => ?_⟩
  obtain ⟨hmethod, hbase⟩ :=
    (names_interleaved .sample l c hrun).2.2.1 e he call frame hreturned m hm
  have hname : (Env.sample.getMethodName m).1 ++ (Env.sample.getMethodName m).2 = "run()V" := by
    change "run" ++ "()V" = "run()V"
    decide
  have hclass : withoutLast (Env.sample.getClassSignature m) = "Lapp/Main" := by
    change withoutLast "Lapp/Main;" = "Lapp/Main"
    decide
  obtain ⟨_, _⟩ := frame
  rw [StackFrame.mk.injEq]
  exact ⟨hmethod.trans hname, hbase.trans hclass⟩

end KotlinTracer
