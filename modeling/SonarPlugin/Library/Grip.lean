import Mathlib.Algebra.Group.Basic
import Mathlib.Data.List.Basic
import Mathlib.Tactic.Abel

namespace SonarPlugin.Library

/-- Something that can be dragged. While it is held, `cursor` is the place
where the cursor that holds it was last seen. -/
structure Grip (V : Type) where
  position : V
  cursor : Option V

namespace Grip

inductive Act (V : Type)
  | press (p : V)
  | move (p : V)
  | release
  | reset

variable {V : Type} [AddCommGroup V]

def next (g : Grip V) : Act V → Grip V
  | .press p => { g with cursor := some p }
  | .move q =>
    match g.cursor with
    | none => g
    | some p => ⟨g.position + (q - p), some q⟩
  | .release => { g with cursor := none }
  | .reset => { g with position := 0 }

def after (g : Grip V) (acts : List (Act V)) : Grip V := acts.foldl next g

variable {g : Grip V} {p q : V} {a : Act V}

theorem next_move_free (h : g.cursor = none) : g.next (.move q) = g := by
  simp [next, h]

theorem next_move_held (h : g.cursor = some p) :
    g.next (.move q) = ⟨g.position + (q - p), some q⟩ := by
  simp [next, h]

theorem position_next_move (h : g.cursor = some p) :
    (g.next (.move q)).position - q = g.position - p := by
  rw [next_move_held h]
  change g.position + (q - p) - q = g.position - p
  abel

theorem position_next_free (h : g.cursor = none) (ha : a ≠ .reset) :
    (g.next a).position = g.position := by
  cases a with
  | press p => rfl
  | move q => rw [next_move_free h]
  | release => rfl
  | reset => exact absurd rfl ha

/-- Whatever the path, moves displace by the way from their first to their
last point. -/
theorem after_moves (h : g.cursor = some p) (qs : List V) :
    g.after (qs.map .move) =
      ⟨g.position + (qs.getLast?.getD p - p), some (qs.getLast?.getD p)⟩ := by
  induction qs generalizing g p with
  | nil =>
    have hg : g = ⟨g.position, some p⟩ := by rw [← h]
    simpa [after] using hg
  | cons q qs ih =>
    have hnext : g.after ((q :: qs).map .move) =
        Grip.after ⟨g.position + (q - p), some q⟩ (qs.map .move) := by
      rw [← next_move_held h]
      rfl
    rw [hnext, ih rfl, List.getLast?_cons]
    have hsum : g.position + (q - p) + (qs.getLast?.getD q - q) =
        g.position + (qs.getLast?.getD q - p) := by abel
    simp only [hsum, Option.getD_some]

theorem after_press_moves (g : Grip V) (p : V) (qs : List V) :
    g.after (.press p :: qs.map .move) =
      ⟨g.position + (qs.getLast?.getD p - p), some (qs.getLast?.getD p)⟩ := by
  have hheld : (g.next (.press p)).cursor = some p := rfl
  exact after_moves hheld qs

theorem after_reset_moves (h : g.cursor = some p) (qs : List V) :
    (g.after (.reset :: qs.map .move)).position = qs.getLast?.getD p - p := by
  have hheld : (g.next .reset).cursor = some p := h
  have hmoves := congrArg position (after_moves hheld qs)
  refine hmoves.trans ?_
  exact zero_add _

end Grip

end SonarPlugin.Library
