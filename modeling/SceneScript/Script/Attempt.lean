/-
Attempts: computations on a state that a fault can end. What an attempt did to the state before
it failed stays done, so the outcome is a state in either case.
-/
import SceneScript.Script.Fault
namespace SceneScript.Script

/-- A computation on a state that a fault can end. -/
abbrev Attempt (σ : Type) := ExceptT Fault (StateM σ)

namespace Attempt

variable {σ β γ : Type}

@[simp] theorem pure_apply (b : β) (s : σ) : (pure b : Attempt σ β) s = (.ok b, s) := rfl

@[simp] theorem throw_apply (f : Fault) (s : σ) :
    (throw f : Attempt σ β) s = (.error f, s) := rfl

@[simp] theorem get_apply (s : σ) : (get : Attempt σ σ) s = (.ok s, s) := rfl

/-- The second of two attempts starts where the first one ended, unless that failed. -/
theorem bind_apply (m : Attempt σ β) (f : β → Attempt σ γ) (s : σ) :
    (m >>= f) s =
      match m s with
      | (.ok b, next) => f b next
      | (.error fault, next) => (.error fault, next) := by
  simp only [bind, ExceptT.bind, ExceptT.mk, StateT.bind, ExceptT.bindCont]
  cases m s with
  | mk result next => cases result <;> rfl

theorem bind_of_ok {m : Attempt σ β} {s next : σ} {b : β} (h : m s = (.ok b, next))
    (f : β → Attempt σ γ) : (m >>= f) s = f b next := by
  rw [bind_apply, h]

theorem bind_of_error {m : Attempt σ β} {s next : σ} {fault : Fault}
    (h : m s = (.error fault, next)) (f : β → Attempt σ γ) :
    (m >>= f) s = (.error fault, next) := by
  rw [bind_apply, h]

end Attempt

end SceneScript.Script
