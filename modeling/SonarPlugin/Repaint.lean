import SonarPlugin.Viewing

namespace SonarPlugin

open Library

/-- The last render drew the current picture, or a repaint is still to come. -/
def SonarFrame.UpToDate (f : SonarFrame) : Prop :=
  f.drawn = some f.picture ∨ f.repaintDue = true

def Picture.restored (p : Picture) : Picture := { p with imgPosition := ⟨0, 0⟩, imgDataSize := 1 }

/-- The restoration button is clicked only when this leaves the picture as it
is, or brings back the one that was drawn last. -/
def Scene.HarmlessClick (s : Scene) (e : FrameEvent) : Prop :=
  e = .restoration → s.frame.picture.restored = s.frame.picture ∨
    s.frame.drawn = some s.frame.picture.restored

section

variable {build : Build} {s t : Scene}

theorem refresh_upToDate (s : Scene) : s.refresh.frame.UpToDate := .inr rfl

theorem rendered_upToDate {disk : String → Bitmap} (h : Rendered build disk s t) :
    t.frame.UpToDate := by
  left
  rw [h.frame]

theorem setMouseDown_upToDate {b : Bool} (h : s.frame.UpToDate) :
    (s.setMouseDown b).frame.UpToDate := by
  obtain ⟨c, hc⟩ := s.setMouseDown_eq b
  rw [hc]
  exact h

theorem restoration_upToDate (h : s.frame.UpToDate) :
    s.onRestorationButtonClick.frame.UpToDate ↔ s.HarmlessClick .restoration := by
  have hset : s.onRestorationButtonClick.frame.UpToDate ↔
      s.frame.drawn = some s.frame.picture.restored ∨
        s.frame.repaintDue = true ∧ s.frame.picture.restored = s.frame.picture := by
    unfold SonarFrame.UpToDate
    simp [Scene.onRestorationButtonClick, Scene.setPicture, Picture.restored]
  rw [hset, Scene.HarmlessClick]
  constructor
  · rintro (hd | ⟨-, hp⟩) -
    · exact .inr hd
    · exact .inl hp
  · intro hc
    obtain hp | hd := hc rfl
    · rw [hp]
      exact h.imp_right fun hr => ⟨hr, rfl⟩
    · exact .inl hd

theorem handle_upToDate {e : FrameEvent} (h : s.frame.UpToDate) (he : (viewing build).allowed s e)
    (hr : e ≠ .restoration) (hs : e.handle build s = .ok t) : t.frame.UpToDate := by
  cases e with
  | move p =>
    obtain ⟨v, -, rfl⟩ := onMove_ok hs
    exact h
  | size client window disk =>
    obtain ⟨-, rfl⟩ | ⟨v, -, -, hrender⟩ := onSize_ok hs
    · exact h
    · exact rendered_upToDate hrender
  | paint disk => exact rendered_upToDate (paintEvent_ok hs).2
  | timer =>
    cases hs
    exact refresh_upToDate s
  | northUp value =>
    obtain ⟨-, ebl, rfl⟩ := checkNorthUp_ok hs
    exact refresh_upToDate _
  | restoration => exact absurd rfl hr
  | colours cs dilg1 =>
    cases hs
    exact refresh_upToDate _
  | mouseDown p =>
    cases hs
    have hm := setMouseDown_upToDate (b := true) h
    dsimp only [Scene.mouseDown, Scene.onLeftMouse]
    split
    · exact refresh_upToDate _
    · exact hm
  | mouseMoved p =>
    cases hs
    unfold Scene.mouseMoved
    split
    · split
      · unfold Scene.onLeftMouseMove
        split
        · exact refresh_upToDate _
        · exact h
      · exact h
    · exact h
  | mouseReleased p =>
    cases hs
    exact setMouseDown_upToDate (b := false) h
  | mouseScroll rotation =>
    cases hs
    exact refresh_upToDate _
  | key k ctrl =>
    cases hs
    cases k with
    | up | down => exact refresh_upToDate _
    | one | other code => exact h
  | close => exact absurd rfl he.1

theorem opens_upToDate {env : Env} {w : World} (h : Opens env w s) : s.frame.UpToDate :=
  .inr h.newFrame.repaintDue

theorem run_upToDate {env : Env} {w : World} {es : List FrameEvent} (h0 : Opens env w s)
    (h : ((viewing env.build).restrict Scene.HarmlessClick).Run s es t) : t.frame.UpToDate := by
  refine h.invariant (fun u => u.frame.UpToDate) (opens_upToDate h0) ?_
  intro u e v hu he hs
  by_cases hr : e = .restoration
  · subst hr
    cases hs
    exact (restoration_upToDate hu).mpr he.2
  · exact handle_upToDate hu he.1 hr hs

end

/-- The picture is never silently stale along the runs in which each click on
the restoration button is harmless, and the first click that is not leaves it stale. -/
theorem upToDate_until_harmful_click {env : Env} {w : World} {s : Scene} (h0 : Opens env w s) :
    (∀ es t, ((viewing env.build).restrict Scene.HarmlessClick).Run s es t → t.frame.UpToDate) ∧
      ∀ es t e u, ((viewing env.build).restrict Scene.HarmlessClick).Run s es t →
        ¬ t.HarmlessClick e → (viewing env.build).step e t = .ok u → ¬ u.frame.UpToDate := by
  refine ⟨fun es t h => run_upToDate h0 h, ?_⟩
  intro es t e u h hharm hstep hu
  have ht := run_upToDate h0 h
  obtain rfl : e = .restoration := by
    by_contra hne
    exact hharm fun he => absurd he hne
  cases hstep
  exact hharm ((restoration_upToDate ht).mp hu)

theorem upToDate_after_first_paint :
    ∃ s t, Opens .desktop (World.blank .desktop) s ∧
      (viewing Env.desktop.build).Run s [.paint fun _ => ⟨1, 1⟩] t ∧ t.frame.UpToDate := by
  obtain ⟨s, t, h0, hrun, -⟩ := exists_viewing_run .desktop (.blank .desktop)
    [.paint fun _ => ⟨1, 1⟩] (fun _ => true) rfl (by decide +kernel)
  obtain ⟨he, hs⟩ := System.Run.single_iff.mp hrun
  refine ⟨s, t, h0, hrun, (upToDate_until_harmful_click h0).1 _ t (.single ⟨he, nofun⟩ hs)⟩

theorem stale_after_restoration :
    ∃ s t, Opens .desktop (World.blank .desktop) s ∧
      (viewing Env.desktop.build).Run s [.paint fun _ => ⟨1, 1⟩, .mouseScroll 1, .paint fun _ => ⟨1, 1⟩,
        .restoration] t ∧ ¬ t.frame.UpToDate := by
  obtain ⟨s, t, h0, hrun, hp⟩ := exists_viewing_run .desktop (.blank .desktop)
    [.paint fun _ => ⟨1, 1⟩, .mouseScroll 1, .paint fun _ => ⟨1, 1⟩, .restoration]
    (fun t => !t.frame.repaintDue && decide (t.frame.drawn ≠ some t.frame.picture)) rfl
    (by decide +kernel)
  refine ⟨s, t, h0, hrun, ?_⟩
  simp only [Bool.and_eq_true, Bool.not_eq_true', decide_eq_true_eq] at hp
  rintro (hd | hr)
  · exact hp.2 hd
  · simp [hp.1] at hr

end SonarPlugin
