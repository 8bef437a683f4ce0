import Mathlib.Tactic.Cases
import Mathlib.Logic.Basic

namespace SonarPlugin.Library

inductive Misuse
  | null
  | dangling
deriving DecidableEq, Repr

/-- An owning pointer together with what it points to. A deleted object
leaves the pointer dangling until it is assigned again. -/
inductive Ptr (α : Type)
  | null
  | live (a : α)
  | dangling
deriving DecidableEq, Repr

namespace Ptr

variable {α β φ : Type} {p : Ptr α} {a : α} {f : α → β} {tag : Misuse → φ}

def isLive : Ptr α → Bool
  | .live _ => true
  | _ => false

/-- Dereference, reporting a misuse as the fault `tag` makes of it. -/
def use (tag : Misuse → φ) : Ptr α → Except φ α
  | .null => .error (tag .null)
  | .live a => .ok a
  | .dangling => .error (tag .dangling)

def misuse? : Ptr α → Option Misuse
  | .null => some .null
  | .live _ => none
  | .dangling => some .dangling

def map (f : α → β) : Ptr α → Ptr β
  | .null => .null
  | .live a => .live (f a)
  | .dangling => .dangling

@[simp] theorem isLive_live : (live a).isLive = true := rfl
@[simp] theorem isLive_null : (null : Ptr α).isLive = false := rfl
@[simp] theorem isLive_dangling : (dangling : Ptr α).isLive = false := rfl
@[simp] theorem use_live : (live a).use tag = .ok a := rfl
@[simp] theorem map_null : (null : Ptr α).map f = .null := rfl
@[simp] theorem map_live : (live a).map f = .live (f a) := rfl
@[simp] theorem map_dangling : (dangling : Ptr α).map f = .dangling := rfl
@[simp] theorem misuse?_live : (live a).misuse? = none := rfl
@[simp] theorem misuse?_null : (null : Ptr α).misuse? = some .null := rfl
@[simp] theorem misuse?_dangling : (dangling : Ptr α).misuse? = some .dangling := rfl

theorem live_unique {b : α} (ha : p = .live a) (hb : p = .live b) : a = b := by
  simpa [ha] using hb

theorem isLive_iff : p.isLive = true ↔ ∃ a, p = .live a := by
  cases p <;> simp

theorem isLive_iff_misuse? : p.isLive = true ↔ p.misuse? = none := by
  cases p <;> simp

theorem misuse?_eq_null : p.misuse? = some .null ↔ p = .null := by
  cases p <;> simp

theorem use_eq_ok : p.use tag = .ok a ↔ p = .live a := by
  cases p <;> simp [use]

theorem use_eq_error {x : φ} : p.use tag = .error x ↔ ∃ m, p.misuse? = some m ∧ tag m = x := by
  cases p <;> simp [use]

theorem isLive_map : (p.map f).isLive = p.isLive := by
  cases p <;> rfl

theorem map_map {γ : Type} {g : β → γ} : (p.map f).map g = p.map fun a => g (f a) := by
  cases p <;> rfl

/-- What comes of an object does not depend on how it is shown, if what is done
with it does not. -/
theorem use_map_bind {σ τ : Type} {view : σ → τ} {k : α → Except φ σ} {k' : β → Except φ σ}
    (hk : ∀ a, p = .live a → (k' (f a)).map view = (k a).map view) :
    ((p.map f).use tag >>= k').map view = (p.use tag >>= k).map view := by
  cases p with
  | live a => exact hk a rfl
  | null | dangling => rfl

end Ptr

end SonarPlugin.Library
