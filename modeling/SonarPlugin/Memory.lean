import SonarPlugin.Ownership
import SonarPlugin.WindowLaws
import Mathlib.Algebra.BigOperators.Ring.Finset

namespace SonarPlugin

open Library Relation

/-- The frames whose window has been created and not closed. -/
def World.shown (w : World) : Finset Nat :=
  (Finset.range w.nextFrame).filter fun i => (w.frames i).map SonarFrame.life = some .created

section

variable {env : Env} {b : Bool} {w w' : World} {i : FrameId} {f : SonarFrame}

theorem SonarFrame.Sound.card_handles (h : f.Sound) :
    f.handles.card = 2 + if f.life = .created then 1 else 0 := by
  obtain ⟨v, hv⟩ := Ptr.isLive_iff.mp h.viewState
  obtain ⟨img, himg⟩ := Ptr.isLive_iff.mp h.imgData
  have hcard : f.handles.card = f.timer.handles.card + 2 := by
    rw [SonarFrame.handles, hv, himg, Multiset.card_add, Multiset.card_add]
    rfl
  have htimer : f.timer.handles.card = if f.life = .created then 1 else 0 := by
    cases hlife : f.life with
    | raw =>
      have hm := h.raw hlife
      cases ht : f.timer with
      | null => rfl
      | live tm => simp [ht] at hm
      | dangling => simp [ht] at hm
    | created =>
      obtain ⟨tm, ht⟩ := Ptr.isLive_iff.mp (h.created hlife).1
      rw [ht]
      rfl
    | closed =>
      have hm := h.closed hlife
      cases ht : f.timer with
      | null => simp [ht] at hm
      | live tm => simp [ht] at hm
      | dangling => rfl
  rw [hcard, htimer, Nat.add_comm]

theorem World.WellFormed.card_held (hw : w.WellFormed) (i : FrameId) :
    (w.held i).card =
      2 * w.present i + if (w.frames i).map SonarFrame.life = some .created then 1 else 0 := by
  cases hf : w.frames i with
  | none => simp [World.held, World.present, hf]
  | some f =>
    have hcard := (hw.sound i f hf).card_handles
    simp [World.held, World.present, hf, hcard]

theorem World.Balanced.card (hb : w.Balanced) (hw : w.WellFormed) :
    w.heap.live.card = 2 * w.nextFrame + w.shown.card := by
  obtain ⟨lost, hshared, hcount⟩ := hb
  have hheld : (∑ i ∈ Finset.range w.nextFrame, w.held i).card =
      2 * ∑ i ∈ Finset.range w.nextFrame, w.present i + w.shown.card := by
    rw [Multiset.card_sum, World.shown, Finset.card_filter, Finset.mul_sum,
      ← Finset.sum_add_distrib]
    exact Finset.sum_congr rfl fun i _ => hw.card_held i
  have hcard := Ledger.Owns.card hshared
  rw [Multiset.card_add, hheld] at hcard
  omega

end

namespace Lifecycle

end Lifecycle

/-- In every reachable state the frames opened so far account for all the
objects on the heap: two for each, whatever has become of it, and a timer for
each whose window is still there. -/
theorem objects_counted {env : Env} {config : FileConfig} {dilg1 : Colour} {es : List Event}
    {w : World} (h : (machine env).Run (World.construct env config dilg1) es w) :
    w.heap.live.card = 2 * w.nextFrame + w.shown.card :=
  (run_balanced h).card (run_wellFormed h)

def beforeAndAfterInit : List Event := [.toolbar 1, .init true, .toolbar 1]

theorem exists_two_shown :
    ∃ w, (machine .desktop).Run (World.blank .desktop) beforeAndAfterInit w ∧
      w.host.alive = true ∧ w.nextFrame = 2 ∧ w.shown = {0, 1} := by
  obtain ⟨w, hrun, hp⟩ := System.exists_run_of_exec (machine .desktop) (World.blank .desktop)
    beforeAndAfterInit (fun w => w.host.alive && decide (w.nextFrame = 2 ∧ w.shown = {0, 1}))
    (by decide +kernel)
  rw [Bool.and_eq_true, decide_eq_true_eq] at hp
  exact ⟨w, hrun, hp⟩

theorem two_shown_counted :
    ∃ w, (machine .desktop).Run (World.blank .desktop) beforeAndAfterInit w ∧
      w.nextFrame = 2 ∧ w.shown = {0, 1} ∧
      w.heap.live.card = 2 * w.nextFrame + w.shown.card := by
  obtain ⟨w, hrun, -, hnext, hshown⟩ := exists_two_shown
  exact ⟨w, hrun, hnext, hshown, objects_counted hrun⟩

end SonarPlugin
