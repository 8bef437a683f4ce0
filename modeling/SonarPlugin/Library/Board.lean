import SonarPlugin.Library.Grip
import Mathlib.Logic.Function.Basic

namespace SonarPlugin.Library

/-- Several things that can be dragged, with one place for where the cursor was
last seen on any of them. -/
structure Board (ι V : Type) where
  cursor : V
  held : ι → Bool
  position : ι → V

namespace Board

variable {ι V : Type} [DecidableEq ι] [AddCommGroup V]

def next (b : Board ι V) : ι × Grip.Act V → Board ι V
  | (i, .press p) => { b with cursor := p, held := Function.update b.held i true }
  | (i, .move q) =>
    if b.held i then
      { b with cursor := q, position := Function.update b.position i (b.position i + (q - b.cursor)) }
    else b
  | (i, .release) => { b with held := Function.update b.held i false }
  | (i, .reset) => { b with position := Function.update b.position i 0 }

def after (b : Board ι V) (acts : List (ι × Grip.Act V)) : Board ι V := acts.foldl next b

def grip (b : Board ι V) (i : ι) : Grip V := ⟨b.position i, if b.held i then some b.cursor else none⟩

/-- The way that the cursor goes on other things than `i`. -/
def strayed (i : ι) (b : Board ι V) : List (ι × Grip.Act V) → V
  | [] => 0
  | act :: acts =>
    (if act.1 = i then 0 else (b.next act).cursor - b.cursor) + (b.next act).strayed i acts

variable {b : Board ι V} {i j : ι} {p q : V} {a : Grip.Act V} {acts : List (ι × Grip.Act V)}

theorem next_move_held (h : b.held i = true) : b.next (i, .move q) =
    { b with cursor := q, position := Function.update b.position i (b.position i + (q - b.cursor)) } :=
  if_pos h

theorem next_move_free (h : b.held i = false) : b.next (i, .move q) = b := by
  simp [next, h]

theorem grip_next_self : (b.next (i, a)).grip i = (b.grip i).next a := by
  cases a with
  | press p => simp [grip, next, Grip.next]
  | move q =>
    cases h : b.held i with
    | true =>
      rw [next_move_held h]
      simp [grip, Grip.next, h]
    | false =>
      rw [next_move_free h]
      simp [grip, Grip.next, h]
  | release => simp [grip, next, Grip.next]
  | reset => exact congrArg (Grip.mk · _) (Function.update_self i _ _)

theorem next_other (h : j ≠ i) :
    (b.next (i, a)).held j = b.held j ∧ (b.next (i, a)).position j = b.position j := by
  cases a with
  | press p => exact ⟨Function.update_of_ne h _ _, rfl⟩
  | move q =>
    cases hi : b.held i with
    | true =>
      rw [next_move_held hi]
      exact ⟨rfl, Function.update_of_ne h _ _⟩
    | false =>
      rw [next_move_free hi]
      exact ⟨rfl, rfl⟩
  | release => exact ⟨Function.update_of_ne h _ _, rfl⟩
  | reset => exact ⟨rfl, Function.update_of_ne h _ _⟩

/-- While a thing is held, its place relative to the cursor changes by just the
way that the cursor goes elsewhere. -/
theorem after_held (hi : b.held i = true) (hacts : ∀ a, (i, a) ∈ acts → ∃ q, a = .move q) :
    (b.after acts).position i - (b.after acts).cursor =
      b.position i - b.cursor - b.strayed i acts := by
  induction acts generalizing b with
  | nil => exact (sub_zero _).symm
  | cons act acts ih =>
    obtain ⟨j, a⟩ := act
    have hrest (a' : Grip.Act V) (ha' : (i, a') ∈ acts) : ∃ q, a' = .move q :=
      hacts a' (List.mem_cons_of_mem _ ha')
    change ((b.next (j, a)).after acts).position i - ((b.next (j, a)).after acts).cursor = _
    rw [strayed]
    by_cases hji : j = i
    · subst hji
      obtain ⟨q, rfl⟩ := hacts a (List.mem_cons_self ..)
      rw [if_pos rfl, next_move_held hi]
      have htail := ih (b := { b with
        cursor := q, position := Function.update b.position j (b.position j + (q - b.cursor)) }) hi hrest
      rw [htail]
      simp only [Function.update_self]
      abel
    · obtain ⟨hheld, hposition⟩ := next_other (b := b) (a := a) (Ne.symm hji)
      rw [if_neg hji, ih (hheld.trans hi) hrest, hposition]
      abel

theorem strayed_eq_zero (hheld : ∀ j a, j ≠ i → (j, a) ∈ acts → b.held j = false)
    (hpress : ∀ j p, j ≠ i → (j, .press p) ∉ acts) : b.strayed i acts = 0 := by
  induction acts generalizing b with
  | nil => rfl
  | cons act acts ih =>
    obtain ⟨j, a⟩ := act
    have hfree (hji : j ≠ i) : b.held j = false := hheld j a hji (List.mem_cons_self ..)
    have hkept (hji : j ≠ i) : (b.next (j, a)).cursor = b.cursor := by
      cases a with
      | press p => exact absurd (List.mem_cons_self ..) (hpress j p hji)
      | move q => rw [next_move_free (hfree hji)]
      | release | reset => rfl
    have htail : (b.next (j, a)).strayed i acts = 0 := by
      refine ih (fun k a' hk hmem => ?_) fun k p hk hmem => hpress k p hk (List.mem_cons_of_mem _ hmem)
      have hkfree := hheld k a' hk (List.mem_cons_of_mem _ hmem)
      by_cases hkj : k = j
      · subst hkj
        cases a with
        | press p => exact absurd (List.mem_cons_self ..) (hpress k p hk)
        | move q =>
          rw [next_move_free hkfree]
          exact hkfree
        | release => exact Function.update_self k _ _
        | reset => exact hkfree
      · exact (next_other hkj).1.trans hkfree
    rw [strayed, htail, add_zero]
    by_cases hji : j = i
    · exact if_pos hji
    · rw [if_neg hji, hkept hji, sub_self]

end Board

end SonarPlugin.Library
