import KotlinTracer.ConcurrentCollections
import KotlinTracer.Lib.LockedProgram

set_option relaxedAutoImplicit false
set_option autoImplicit false

/-!
# The concurrent map, access by access

The methods of `ConcurrentCleanableMap` (`concurrentCollections/concurrentMap.h`) with the
`shared_mutex` itself. A method takes the lock, accesses the `std::unordered_map` and the
`std::vector` of marked keys, and releases the lock; its accesses are interleaved with those of the
other methods that hold the lock at the same time. Two methods change the map under the *shared*
lock: `get` inserts a key that is absent, and `mark_current_values_for_clean` appends to the vector.
As long as they do not meet another method on what they change, all methods are atomic, which is how
`KotlinTracer.ConcurrentCleanableMap` takes them.

## Main definitions

* `KotlinTracer.MapObject` — the two containers that the lock protects.
* `KotlinTracer.MapCall`, `KotlinTracer.MapCall.mode`, `KotlinTracer.MapCall.program` — the methods,
  how they take the lock and what they do under it.
* `KotlinTracer.cleanableMap` — the methods as atomic steps.

## Main results

* `KotlinTracer.MapCall.of_run_program` — a method that nothing interrupts is the operation of
  `ConcurrentCleanableMap`.
* `KotlinTracer.lockedMap_atomic` — the interleavings of accesses do what the atomic methods do.

## Design

The loops of `mark_current_values_for_clean` and `clean` carry a bound on their iterations; a loop
that exceeds it does not end. A bound is part of the call, so the results hold for all bounds. A
reference that a method returns is the value it refers to. `find`, `empty` and `cleanListEmpty`,
which nobody calls, are left out.
-/

namespace KotlinTracer

variable {K V : Type} [DecidableEq K]

/-! ## The methods -/

/-- The containers that the lock protects: `map_` and `clean_list_`. -/
inductive MapObject
  | map
  | cleanList
deriving DecidableEq

/-- What a container holds. -/
abbrev MapObject.Value (K V : Type) : MapObject → Type
  | .map => AList fun _ : K => V
  | .cleanList => List K

/-- A program on the containers. -/
abbrev MapProgram (K V : Type) := CellProgram (MapObject.Value K V)

/-- The calls of the methods, with the bounds of their loops. -/
inductive MapCall (K V : Type)
  | insert (key : K) (value : V)
  | get (key : K)
  | at? (key : K)
  | contains (key : K)
  | erase (key : K)
  | markCurrentValuesForClean (iterations : ℕ)
  | clean (iterations : ℕ)

/-- What a method returns. -/
inductive MapAnswer (V : Type)
  | flag (b : Bool)
  | value (v : V)
  /-- `at` has thrown `std::out_of_range`. -/
  | outOfRange
  | done
deriving DecidableEq

namespace MapCall

/-- How a method takes the lock: `read_lock` or `write_lock`. -/
def mode : MapCall K V → SharedMutex.Mode
  | .insert _ _ => .exclusive
  | .get _ => .shared
  | .at? _ => .shared
  | .contains _ => .shared
  | .erase _ => .exclusive
  | .markCurrentValuesForClean _ => .shared
  | .clean _ => .exclusive

/-- `map_.find(key)`. -/
def find (key : K) : MapProgram K V (Option V) :=
  CellProgram.observe MapObject.map fun m => some (m.lookup key)

/-- The loop of `mark_current_values_for_clean`, from the `i`-th node of the map on. -/
def markLoop : ℕ → ℕ → MapProgram K V Unit
  | 0, _ => .undefined
  | n + 1, i => do
    match ← CellProgram.observe MapObject.map fun m => some m.keys[i]? with
    | none => pure ()
    | some key =>
      CellProgram.modify MapObject.cleanList fun l => l ++ [key]
      markLoop n (i + 1)

/-- The loop of `clean`. -/
def cleanLoop : ℕ → MapProgram K V Unit
  | 0 => .undefined
  | n + 1 => do
    match ← CellProgram.observe MapObject.cleanList fun l => some l.getLast? with
    | none => pure ()
    | some key =>
      CellProgram.modify MapObject.map fun m => m.erase key
      CellProgram.modify MapObject.cleanList fun l => l.dropLast
      cleanLoop n

/-- What a method does while it holds the lock. -/
def program (default : V) : MapCall K V → MapProgram K V (List (MapAnswer V))
  | .insert key value => do
    let inserted ← CellProgram.perform MapObject.map fun m =>
      if key ∈ m then some (m, false) else some (m.insert key value, true)
    pure [.flag inserted]
  | .get key => do
    match ← find key with
    | some value => pure [.value value]
    | none =>
      CellProgram.modify MapObject.map fun m => m.insert key default
      pure [.value default]
  | .at? key => do
    match ← find key with
    | some value => pure [.value value]
    | none => pure [.outOfRange]
  | .contains key => do
    let found ← find key
    pure [.flag found.isSome]
  | .erase key => do
    match ← find key with
    | some _ =>
      CellProgram.modify MapObject.map fun m => m.erase key
      pure [.flag true]
    | none => pure [.flag false]
  | .markCurrentValuesForClean iterations => do
    markLoop iterations 0
    pure [.done]
  | .clean iterations => do
    cleanLoop iterations
    pure [.done]

end MapCall

/-! ## The methods as atomic steps -/

/-- The methods as atomic steps of the map. -/
def ConcurrentCleanableMap.call (default : V) (m : ConcurrentCleanableMap K V) :
    MapCall K V → ConcurrentCleanableMap K V × MapAnswer V
  | .insert key value => ((m.insert key value).2, .flag (m.insert key value).1)
  | .get key => ((m.get default key).2, .value (m.get default key).1)
  | .at? key => (m, ((m.at? key).map MapAnswer.value).getD .outOfRange)
  | .contains key => (m, .flag (m.contains key))
  | .erase key => ((m.erase key).2, .flag (m.erase key).1)
  | .markCurrentValuesForClean _ => (m.markCurrentValuesForClean, .done)
  | .clean _ => (m.clean, .done)

/-- The machine of the atomic methods. -/
def cleanableMap (default : V) :
    LogMachine (ConcurrentCleanableMap K V) (MapCall K V) (MapAnswer V) where
  init := {}
  step m r := some ((m.call default r).1, [(m.call default r).2])

/-- The containers of a map. -/
def ConcurrentCleanableMap.objects (m : ConcurrentCleanableMap K V) :
    ∀ k, MapObject.Value K V k
  | .map => m.map
  | .cleanList => m.cleanList

namespace ConcurrentCleanableMap

omit [DecidableEq K] in
/-- What the containers are after a change of the map. -/
lemma update_objects_map (m : ConcurrentCleanableMap K V) (map : AList fun _ : K => V) :
    Function.update m.objects MapObject.map map = { m with map := map }.objects := by
  funext k
  cases k <;> rfl

omit [DecidableEq K] in
/-- What the containers are after a change of the vector. -/
lemma update_objects_cleanList (m : ConcurrentCleanableMap K V) (cleanList : List K) :
    Function.update m.objects MapObject.cleanList cleanList =
      { m with cleanList := cleanList }.objects := by
  funext k
  cases k <;> rfl

omit [DecidableEq K] in
lemma run_modify_map (m : ConcurrentCleanableMap K V) (f : AList (fun _ : K => V) → AList _) :
    (CellProgram.modify MapObject.map f : MapProgram K V Unit).run m.objects =
      some ({ m with map := f m.map }.objects, ()) := by
  rw [CellProgram.run_modify, update_objects_map]
  rfl

omit [DecidableEq K] in
lemma run_modify_cleanList (m : ConcurrentCleanableMap K V) (f : List K → List K) :
    (CellProgram.modify MapObject.cleanList f : MapProgram K V Unit).run m.objects =
      some ({ m with cleanList := f m.cleanList }.objects, ()) := by
  rw [CellProgram.run_modify, update_objects_cleanList]
  rfl

end ConcurrentCleanableMap

/-! ## Methods that nothing interrupts -/

namespace MapCall

variable (m : ConcurrentCleanableMap K V)

lemma run_find (key : K) :
    (find key : MapProgram K V (Option V)).run m.objects = some (m.objects, m.at? key) := by
  rw [find, CellProgram.run_observe]
  rfl

omit [DecidableEq K] in
/-- The loop of `mark_current_values_for_clean` appends the keys of the nodes from the `i`-th on. -/
lemma of_run_markLoop {n i : ℕ} {s : ∀ k, MapObject.Value K V k} {u : Unit}
    (h : (markLoop n i).run m.objects = some (s, u)) :
    s = { m with cleanList := m.cleanList ++ m.map.keys.drop i }.objects := by
  induction n generalizing m i with
  | zero => cases h
  | succ n ih =>
    rw [markLoop, CellProgram.run_bind, CellProgram.run_observe, Option.map_some,
      Option.bind_some] at h
    have hobjects : m.objects MapObject.map = m.map := rfl
    rw [hobjects] at h
    cases hkey : m.map.keys[i]? with
    | none =>
      rw [hkey] at h
      cases h
      rw [List.drop_eq_nil_of_le (List.getElem?_eq_none_iff.mp hkey), List.append_nil]
    | some key =>
      rw [hkey] at h
      dsimp only at h
      rw [CellProgram.run_bind, ConcurrentCleanableMap.run_modify_cleanList,
        Option.bind_some] at h
      rw [ih _ h]
      obtain ⟨hi, rfl⟩ := List.getElem?_eq_some_iff.mp hkey
      rw [List.drop_eq_getElem_cons hi]
      simp

/-- The loop of `clean` erases the marked keys from the last one on.

**Proof sketch.** Induction on the bound; an iteration takes the last key from the vector, and
`foldr` erases it first, too. -/
lemma of_run_cleanLoop {n : ℕ} {s : ∀ k, MapObject.Value K V k} {u : Unit}
    (h : (cleanLoop n).run m.objects = some (s, u)) : s = m.clean.objects := by
  induction n generalizing m with
  | zero => cases h
  | succ n ih =>
    rw [cleanLoop, CellProgram.run_bind, CellProgram.run_observe, Option.map_some,
      Option.bind_some] at h
    have hobjects : m.objects MapObject.cleanList = m.cleanList := rfl
    rw [hobjects] at h
    rcases List.eq_nil_or_concat m.cleanList with hnil | ⟨keys, key, hconcat⟩
    · rw [hnil] at h
      cases h
      rw [ConcurrentCleanableMap.clean, hnil]
      cases m
      subst hnil
      rfl
    · rw [List.concat_eq_append] at hconcat
      rw [hconcat, List.getLast?_concat] at h
      dsimp only at h
      rw [CellProgram.run_bind, ConcurrentCleanableMap.run_modify_map, Option.bind_some,
        CellProgram.run_bind, ConcurrentCleanableMap.run_modify_cleanList, Option.bind_some] at h
      rw [ih _ h, ConcurrentCleanableMap.clean, ConcurrentCleanableMap.clean]
      simp [hconcat]

/-- **A method that nothing interrupts** does what the operation of the map does. -/
lemma of_run_program {default : V} {r : MapCall K V} {s : ∀ k, MapObject.Value K V k}
    {o : List (MapAnswer V)} (h : (r.program default).run m.objects = some (s, o)) :
    s = (m.call default r).1.objects ∧ o = [(m.call default r).2] := by
  have hmap : m.objects MapObject.map = m.map := rfl
  cases r with
  | insert key value =>
    rw [program, CellProgram.run_bind, CellProgram.run_perform, hmap] at h
    rw [ConcurrentCleanableMap.call, ConcurrentCleanableMap.insert]
    split_ifs at h ⊢ with hkey
    · rw [Option.map_some, Option.bind_some, ConcurrentCleanableMap.update_objects_map] at h
      cases h
      exact ⟨rfl, rfl⟩
    · rw [Option.map_some, Option.bind_some, ConcurrentCleanableMap.update_objects_map] at h
      cases h
      exact ⟨rfl, rfl⟩
  | get key =>
    rw [program, CellProgram.run_bind, run_find, Option.bind_some] at h
    rw [ConcurrentCleanableMap.call, ConcurrentCleanableMap.get]
    rw [ConcurrentCleanableMap.at?] at h
    cases hfound : m.map.lookup key with
    | some value =>
      rw [hfound] at h
      cases h
      exact ⟨rfl, rfl⟩
    | none =>
      rw [hfound] at h
      dsimp only at h
      rw [CellProgram.run_bind, ConcurrentCleanableMap.run_modify_map, Option.bind_some] at h
      cases h
      exact ⟨rfl, rfl⟩
  | at? key =>
    rw [program, CellProgram.run_bind, run_find, Option.bind_some] at h
    rw [ConcurrentCleanableMap.call]
    cases hfound : m.at? key with
    | some value =>
      rw [hfound] at h
      cases h
      exact ⟨rfl, rfl⟩
    | none =>
      rw [hfound] at h
      cases h
      exact ⟨rfl, rfl⟩
  | contains key =>
    rw [program, CellProgram.run_bind, run_find, Option.bind_some] at h
    have hcontains : m.contains key = (m.at? key).isSome := by
      rw [Bool.eq_iff_iff, ConcurrentCleanableMap.contains_iff, Option.isSome_iff_exists]
    cases h
    rw [ConcurrentCleanableMap.call, hcontains]
    exact ⟨rfl, rfl⟩
  | erase key =>
    rw [program, CellProgram.run_bind, run_find, Option.bind_some] at h
    rw [ConcurrentCleanableMap.call, ConcurrentCleanableMap.erase]
    cases hfound : m.at? key with
    | some value =>
      rw [if_pos (ConcurrentCleanableMap.mem_map_iff.mpr ⟨value, hfound⟩)]
      rw [hfound] at h
      dsimp only at h
      rw [CellProgram.run_bind, ConcurrentCleanableMap.run_modify_map, Option.bind_some] at h
      cases h
      exact ⟨rfl, rfl⟩
    | none =>
      rw [if_neg (ConcurrentCleanableMap.notMem_map_iff.mpr hfound)]
      rw [hfound] at h
      cases h
      exact ⟨rfl, rfl⟩
  | markCurrentValuesForClean iterations =>
    rw [program, CellProgram.run_bind] at h
    obtain ⟨⟨s', u⟩, hloop, hrest⟩ := Option.bind_eq_some_iff.mp h
    cases hrest
    exact ⟨of_run_markLoop m hloop, rfl⟩
  | clean iterations =>
    rw [program, CellProgram.run_bind] at h
    obtain ⟨⟨s', u⟩, hloop, hrest⟩ := Option.bind_eq_some_iff.mp h
    cases hrest
    exact ⟨of_run_cleanLoop m hloop, rfl⟩

end MapCall

/-! ## Methods that are interleaved -/

/-- Threads that use a map, access by access. -/
def lockedMap (default : V) :
    ThreadSystem (LockedProgram.Memory (MapObject.Value K V))
      (CellProgram.Position (MapObject.Value K V) (MapCall K V) (MapAnswer V))
      (CellProgram.Action (MapCall K V)) (MapCall K V × List (MapAnswer V)) :=
  LockedProgram.system (MapCall.program default) MapCall.mode
    (ConcurrentCleanableMap.objects {})

/-- Where a thread that uses a map is. -/
abbrev MapPosition (K V : Type) :=
  CellProgram.Position (MapObject.Value K V) (MapCall K V) (MapAnswer V)

/-- The log of threads that use a map. -/
abbrev MapLog (K V : Type) :=
  List ((ℕ × CellProgram.Action (MapCall K V)) × List (MapCall K V × List (MapAnswer V)))

/-- The threads that use a map, and the map. -/
abbrev MapConf (K V : Type) :=
  ThreadSystem.Conf (LockedProgram.Memory (MapObject.Value K V)) (MapPosition K V)

/-- The methods of the map are atomic when those under the shared lock do not conflict. -/
lemma lockedMap_serial {default : V} {l : MapLog K V} {c : MapConf K V}
    (hrun : (lockedMap default).machine.Run l c)
    (hsteps : (lockedMap default).machine.EveryStep (LockedProgram.SharedApart MapCall.mode) l) :
    ∃ m, (cleanableMap default).Run (CellProgram.completed l) m ∧
      ((∀ t, c.threads t = .idle) → c.shared.cells = m.objects) := by
  obtain ⟨a, hserial, hcells⟩ := LockedProgram.exists_serial hrun hsteps
  have hprogram : ∀ (m : ConcurrentCleanableMap K V) (r : MapCall K V) s o,
      (r.program default).run m.objects = some (s, o) →
      ∃ m', (cleanableMap default).step m r = some (m', o) ∧ s = m'.objects := by
    intro m r s o h
    obtain ⟨rfl, rfl⟩ := MapCall.of_run_program m h
    exact ⟨_, rfl, rfl⟩
  obtain ⟨m, hm, rfl⟩ := LockedProgram.exists_run_of_serial
    ConcurrentCleanableMap.objects hprogram hserial
  refine ⟨m, hm, fun hidle => ?_⟩
  funext k
  refine hcells k fun t => ?_
  rw [hidle t]
  exact List.not_mem_nil

/-! ## The methods under the shared lock -/

namespace MapCall

/-- The containers that a method reads. -/
def reads : MapCall K V → Set MapObject
  | .get _ | .at? _ | .contains _ | .markCurrentValuesForClean _ => {.map}
  | _ => Set.univ

/-- The containers that a method changes; `get` of an absent key changes the map. -/
def writes : MapCall K V → Set MapObject
  | .get _ => {.map}
  | .at? _ | .contains _ => ∅
  | .markCurrentValuesForClean _ => {.cleanList}
  | _ => Set.univ

omit [DecidableEq K] in
lemma within_markLoop (n i : ℕ) :
    (markLoop n i : MapProgram K V Unit).Within {.map} {.cleanList} := by
  induction n generalizing i with
  | zero => exact .undefined
  | succ n ih =>
    refine CellProgram.Within.bind (.observe (Set.mem_singleton _)) fun found => ?_
    cases found with
    | none => exact .pure _
    | some key => exact CellProgram.Within.bind (.perform (Set.mem_singleton _)) fun _ => ih _

/-- A method accesses only its containers. -/
lemma within_program (default : V) (r : MapCall K V) :
    (r.program default).Within r.reads r.writes := by
  have hfind : ∀ (key : K) (W : Set MapObject),
      (find key : MapProgram K V (Option V)).Within {.map} W :=
    fun key W => .observe (Set.mem_singleton _)
  cases r with
  | get key =>
    refine (hfind key _).bind fun found => ?_
    cases found with
    | some value => exact .pure _
    | none => exact CellProgram.Within.bind (.perform (Set.mem_singleton _)) fun _ => .pure _
  | at? key =>
    refine (hfind key _).bind fun found => ?_
    cases found <;> exact .pure _
  | contains key => exact (hfind key _).bind fun _ => .pure _
  | markCurrentValuesForClean iterations =>
    exact (within_markLoop iterations 0).bind fun _ => .pure _
  | insert key value => exact .univ _
  | erase key => exact .univ _
  | clean iterations => exact .univ _

end MapCall

/-- The thread is in `mark_current_values_for_clean`. -/
def isMarking : MapPosition K V → Bool
  | .running (.markCurrentValuesForClean _) _ _ => true
  | _ => false

/-- At most one of two threads is in `mark_current_values_for_clean`. -/
def OneMarks (p q : MapPosition K V) : Prop := ¬ (isMarking p = true ∧ isMarking q = true)

instance (p q : MapPosition K V) : Decidable (OneMarks p q) := inferInstanceAs (Decidable (¬ _))

/-- Whether the step finds its key, if it is the search of a `get`. -/
def getsPresent (s : ∀ k, MapObject.Value K V k) : MapPosition K V → Bool
  | .running (.get key) ⟨[], []⟩ _ => ((s .map).lookup key).isSome
  | _ => true

/-- A `get` is before its search, or has found its key. -/
def GetHits (default : V) : MapPosition K V → Prop
  | .running (.get key) F rest =>
    (F = {} ∧ rest = (MapCall.get key).program default) ∨ F.writes = [] ∧ ∃ o, rest = .pure o
  | _ => True

/-- A `get` that finds its key goes on to return it. -/
lemma getHits_step {default : V} {s s' : ∀ k, MapObject.Value K V k} {p p' : MapPosition K V}
    {act : CellProgram.Action (MapCall K V)} {o : List (MapCall K V × List (MapAnswer V))}
    (hp : GetHits default p) (hpresent : getsPresent s p = true)
    (hstep : CellProgram.step (MapCall.program default) s p act = some (s', p', o)) :
    GetHits default p' := by
  cases p with
  | idle =>
    cases act with
    | call r =>
      cases hstep
      cases r with
      | get key => exact Or.inl ⟨rfl, rfl⟩
      | _ => trivial
    | go => cases hstep
  | running r F rest =>
    cases r with
    | get key =>
      rcases hp with ⟨rfl, rfl⟩ | ⟨-, o', rfl⟩
      · -- the search
        obtain ⟨value, hvalue⟩ := Option.isSome_iff_exists.mp hpresent
        cases act with
        | call r => cases hstep
        | go =>
          have hfound : CellProgram.step (MapCall.program default) s
              (.running (.get key) {} ((MapCall.get key).program default)) .go =
              some (s, .running (.get key) ⟨[.map], []⟩ (.pure [.value value]), []) := by
            simp only [MapCall.program, MapCall.find, CellProgram.observe, Bind.bind,
              CellProgram.bind, CellProgram.step, hvalue]
            rfl
          rw [hfound] at hstep
          cases hstep
          exact Or.inr ⟨rfl, _, rfl⟩
      · cases act with
        | call r => cases hstep
        | go =>
          cases hstep
          trivial
    | _ => rcases CellProgram.step_running hstep with rfl | ⟨F', rest', rfl⟩ <;> trivial

/-- What is known of a thread whose call holds the lock shared: it changes only the vector, and that
only in `mark_current_values_for_clean`. -/
lemma shared_footprint {default : V} {p : MapPosition K V}
    (hshared : LockedProgram.holds MapCall.mode p = some .shared) (hhits : GetHits default p)
    (hbounded : p.Bounded MapCall.reads MapCall.writes) :
    MapObject.map ∉ p.footprint.writes ∧
      (p.footprint.Touches MapObject.cleanList → isMarking p = true) := by
  cases p with
  | idle => cases hshared
  | running r F rest =>
    obtain ⟨hreads, hwrites, -⟩ := hbounded
    -- a call that changes nothing has only read the map
    have hreader : r.reads = {.map} → F.writes = [] →
        MapObject.map ∉ F.writes ∧
          (F.Touches MapObject.cleanList → isMarking (.running r F rest) = true) := by
      intro hr hF
      refine ⟨hF ▸ List.not_mem_nil, ?_⟩
      rintro (hmem | hmem)
      · have hread := hreads _ hmem
        rw [hr] at hread
        cases hread
      · rw [hF] at hmem
        cases hmem
    have hnone : r.writes = ∅ → F.writes = [] := by
      intro hr
      rw [List.eq_nil_iff_forall_not_mem]
      intro k hk
      have hwrite := hwrites k hk
      rw [hr] at hwrite
      exact hwrite
    cases r with
    | get key =>
      rcases hhits with ⟨rfl, -⟩ | ⟨hF, -⟩
      · exact hreader rfl rfl
      · exact hreader rfl hF
    | at? key => exact hreader rfl (hnone rfl)
    | contains key => exact hreader rfl (hnone rfl)
    | markCurrentValuesForClean iterations =>
      refine ⟨fun hmem => ?_, fun _ => rfl⟩
      have hwrite := hwrites _ hmem
      cases hwrite
    | insert key value => cases hshared
    | erase key => cases hshared
    | clean iterations => cases hshared

/-- The next access of a thread whose call holds the lock shared: it reads the map, or it changes
the vector in `mark_current_values_for_clean`. -/
lemma shared_next {default : V} {p q : MapPosition K V}
    (hshared : LockedProgram.holds MapCall.mode p = some .shared) (hhits : GetHits default p)
    (hbounded : p.Bounded MapCall.reads MapCall.writes)
    (hmap : MapObject.map ∉ q.footprint.writes)
    (hcleanList : isMarking p = true → ¬ q.footprint.Touches MapObject.cleanList) : p.Apart q := by
  cases p with
  | idle => cases hshared
  | running r F rest =>
    obtain ⟨-, -, hrest⟩ := hbounded
    have hreads : r.reads = {.map} := by
      cases r with
      | insert key value => cases hshared
      | erase key => cases hshared
      | clean iterations => cases hshared
      | _ => rfl
    cases hrest with
    | pure a => trivial
    | undefined => trivial
    | inspect hk hnext =>
      rw [hreads] at hk
      obtain rfl := hk
      exact hmap
    | access hk hnext =>
      cases r with
      | get key =>
        -- the `get` has found its key
        rcases hhits with ⟨-, hprogram⟩ | ⟨-, o, hpure⟩
        · cases hprogram
        · cases hpure
      | at? key => cases hk
      | contains key => cases hk
      | markCurrentValuesForClean iterations =>
        obtain rfl := hk
        exact hcleanList rfl
      | insert key value => cases hshared
      | erase key => cases hshared
      | clean iterations => cases hshared

/-- **The methods of the map are atomic.** For any number of threads and every interleaving of the
accesses of their calls, in which every `get` finds its key in the map when it searches it, and no
two threads are in `mark_current_values_for_clean` at the same time: the calls that have ended have
the answers that they have when each of them is one step, in the order in which they ended, and when
no call is in progress the map is the one after these steps. -/
theorem lockedMap_atomic {default : V} {l : MapLog K V} {c : MapConf K V}
    (hrun : (lockedMap default).machine.Run l c)
    (hsteps : (lockedMap default).machine.EveryStep (ThreadSystem.Undisturbed
      (fun s p _ => getsPresent s.cells p = true) fun _ p _ q => OneMarks p q) l) :
    ∃ m, (cleanableMap default).Run (CellProgram.completed l) m ∧
      ((∀ t, c.threads t = .idle) → c.shared.cells = m.objects) := by
  refine lockedMap_serial hrun fun l₁ e o l₂ c₁ hl hrun₁ => ⟨trivial, fun u hu hp hq => ?_⟩
  have houtline : (lockedMap (K := K) default).Outline (fun _ => True)
      (fun _ p => GetHits default p)
      (fun s p _ => getsPresent s.cells p = true) (fun _ p _ q => OneMarks p q) fun _ => True :=
    { init := trivial
      start := trivial
      own := fun _ hhits hpresent hstep =>
        ⟨trivial, getHits_step hhits hpresent (LockedProgram.of_step hstep).1, fun _ _ => trivial⟩
      other := fun _ _ hq _ _ => hq }
  have hhits := (houtline.throughout hsteps l₁ ((e, o) :: l₂) c₁ hl hrun₁).assertion
  have hbounded := CellProgram.bounded_of_run (MapCall.within_program default)
    (LockedProgram.run_cells hrun₁)
  obtain ⟨hmap, hcleanList⟩ := shared_footprint hq (hhits u) (hbounded u)
  refine shared_next hp (hhits e.1) (hbounded e.1) hmap fun hmarking htouches => ?_
  exact (hsteps l₁ e o l₂ c₁ hl hrun₁).2 u hu ⟨hmarking, hcleanList htouches⟩

/-- A thread inserts a key; then a `get` of the key, a `contains` and a
`mark_current_values_for_clean` go on at the same time, and the marked key is erased. -/
def sampleMapCalls : List (ℕ × CellProgram.Action (MapCall ℕ ℕ)) :=
  [(0, .call (.insert 1 5)), (0, .go), (0, .go), (1, .call (.get 1)),
    (2, .call (.markCurrentValuesForClean 4)), (2, .go), (0, .call (.contains 2)), (1, .go),
    (2, .go), (0, .go), (1, .go), (2, .go), (0, .go), (2, .go), (0, .call (.clean 4)), (0, .go),
    (0, .go), (0, .go), (0, .go), (0, .go)]

/-- The answers of these calls are those of atomic steps. -/
theorem sampleMapCalls_atomic :
    ∃ l c m, (lockedMap 0).machine.Run l c ∧ l.map Prod.fst = sampleMapCalls ∧
      CellProgram.completed l = [(.insert 1 5, [.flag true]), (.get 1, [.value 5]),
        (.contains 2, [.flag false]), (.markCurrentValuesForClean 4, [.done]),
        (.clean 4, [.done])] ∧
      (cleanableMap 0).Run (CellProgram.completed l) m := by
  have hexec : ((lockedMap 0).machine.exec (lockedMap 0).machine.init sampleMapCalls).map
      (fun x => CellProgram.completed x.2) =
      some [(.insert 1 5, [.flag true]), (.get 1, [.value 5]), (.contains 2, [.flag false]),
        (.markCurrentValuesForClean 4, [.done]), (.clean 4, [.done])] := by rfl
  obtain ⟨l, c, hrun, hes, hl⟩ := LogMachine.exists_run_of_map_exec hexec
  have hsteps := ThreadSystem.everyStep_undisturbed_of_check
    (g := fun s p _ => getsPresent s.cells p) (k := fun _ p _ q => decide (OneMarks p q))
    [0, 1, 2] hrun (by rw [hes]; decide)
    (fun _ p _ => decide_eq_true fun h => Bool.false_ne_true h.2) (by rw [hes]; decide)
  simp only [decide_eq_true_eq] at hsteps
  obtain ⟨m, hm, -⟩ := lockedMap_atomic hrun hsteps
  exact ⟨l, c, m, hrun, hes, hl, hm⟩

end KotlinTracer
