import KotlinTracer.Lib.StdString

set_option relaxedAutoImplicit false
set_option autoImplicit false

/-!
# Code that throws

The outcome of a piece of code is a value, an exception or undefined behaviour. Code that looks up
one thing after the other, and throws at the first one that is missing, is specified by the list of
its checks: the first check that fails decides the outcome.

## Main definitions

* `Outcome` — the outcome of code; `none` stands for undefined behaviour.
* `Failure` — an outcome without a value.
* `Outcome.guard`, `Outcome.afterChecks` — a value after one check, and after a list of checks.

## Main results

* `Outcome.bind_guard`, `Outcome.bind_afterChecks` — the checks of a sequence are the checks of its
  parts, one after the other.
-/

/-- The outcome of code: `none` when its behaviour is undefined. -/
abbrev Outcome (α : Type) : Type := ExceptT StdException Option α

/-- An outcome without a value. -/
inductive Failure
  | undefined
  | exception (e : StdException)
deriving DecidableEq

/-- The outcome that a failure is. -/
def Failure.raise {α : Type} : Failure → Outcome α
  | .undefined => ExceptT.mk none
  | .exception e => throw e

namespace Outcome

variable {α β : Type}

/-- The value after a check: `c` is the failure of the check, if it fails. -/
def guard (c : Option Failure) (a : α) : Outcome α :=
  match c with
  | some failure => failure.raise
  | none => pure a

/-- The value after a list of checks: the first one that fails decides. -/
def afterChecks (cs : List (Option Failure)) (a : α) : Outcome α :=
  guard (cs.findSome? id) a

lemma raise_bind (failure : Failure) (f : α → Outcome β) :
    (failure.raise >>= f) = failure.raise := by
  cases failure <;> rfl

lemma afterChecks_nil (a : α) : afterChecks [] a = pure a := rfl

lemma afterChecks_of_forall {cs : List (Option Failure)} {a : α} (h : ∀ c ∈ cs, c = none) :
    afterChecks cs a = pure a := by
  have hnone : cs.findSome? id = none := List.findSome?_eq_none_iff.mpr h
  rw [afterChecks, hnone]
  rfl

/-- A check followed by code with checks of its own. -/
lemma bind_guard {x : Outcome α} {f : α → Outcome β} {c : Option Failure}
    {cs : List (Option Failure)} {a : α} {b : β} (hx : x = guard c a)
    (hf : c = none → f a = afterChecks cs b) : (x >>= f) = afterChecks (c :: cs) b := by
  subst hx
  cases c with
  | some failure => exact raise_bind failure f
  | none => exact hf rfl

/-- Code with checks followed by code with checks of its own. -/
lemma bind_afterChecks {x : Outcome α} {f : α → Outcome β} {cs ds : List (Option Failure)} {a : α}
    {b : β} (hx : x = afterChecks cs a) (hf : (∀ c ∈ cs, c = none) → f a = afterChecks ds b) :
    (x >>= f) = afterChecks (cs ++ ds) b := by
  subst hx
  rw [afterChecks, afterChecks, List.findSome?_append]
  cases hfirst : cs.findSome? id with
  | some failure => exact raise_bind failure f
  | none => exact hf (List.findSome?_eq_none_iff.mp hfirst)

end Outcome
