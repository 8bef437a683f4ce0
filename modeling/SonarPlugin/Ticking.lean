import SonarPlugin.OwnEvents

namespace SonarPlugin

open Library

/-- The timer of an open window runs, with the interval `Create` has given it. -/
def SonarFrame.Ticks (f : SonarFrame) : Prop :=
  f.life = .created → ∃ h, f.timer = .live ⟨h, ⟨2000, true⟩⟩

section

variable {env : Env} {build : Build} {w w' : World} {i : FrameId} {f f' : SonarFrame}
  {s t : Scene}

theorem SonarFrame.Ticks.value {tm : Owned Timer} (h : f.Ticks) (hf : f.Sound)
    (htm : f.timer = .live tm) : tm.value = ⟨2000, true⟩ := by
  cases hlife : f.life with
  | raw =>
    have hnull := hf.raw hlife
    simp [htm] at hnull
  | created =>
    obtain ⟨k, hk⟩ := h hlife
    rw [Ptr.live_unique htm hk]
  | closed =>
    have hdangling := hf.closed hlife
    simp [htm] at hdangling

theorem opened_ticks (w : World) : (Scene.opened env w).frame.Ticks := by
  intro hlife
  unfold Scene.opened at hlife ⊢
  dsimp only at hlife ⊢
  split at hlife
  next hok =>
    rw [if_pos hok]
    exact ⟨_, rfl⟩
  next => cases hlife

theorem Passed.ticks (h : Passed f f') (hf : f.Ticks) : f'.Ticks := by
  intro hlife
  obtain ⟨htimer, hlife'⟩ := h.opened (by simp [hlife])
  rw [htimer]
  exact hf (hlife'.symm.trans hlife)

theorem rendered_ticks {disk : String → Bitmap} (h : Rendered build disk s t) (hs : s.frame.Ticks) :
    t.frame.Ticks := by
  intro hlife
  obtain ⟨tm, htm, htm'⟩ := h.timer
  have hlife' : s.frame.life = .created := by
    rw [h.frame] at hlife
    exact hlife
  obtain ⟨k, hk⟩ := hs hlife'
  obtain rfl := Ptr.live_unique htm hk
  exact ⟨k, htm'⟩

theorem handle_ticks {e : FrameEvent} (hs : s.frame.Ticks) (h : e.handle build s = .ok t) :
    t.frame.Ticks := by
  cases e with
  | move p =>
    obtain ⟨v, -, rfl⟩ := onMove_ok h
    exact hs
  | size client window disk =>
    obtain ⟨-, rfl⟩ | ⟨v, -, -, hr⟩ := onSize_ok h
    · exact hs
    · exact rendered_ticks hr hs
  | paint disk => exact rendered_ticks (paintEvent_ok h).2 hs
  | northUp value =>
    obtain ⟨-, ebl, rfl⟩ := checkNorthUp_ok h
    exact hs
  | close =>
    intro hlife
    rw [(onClose_ok h).frame] at hlife
    cases hlife
  | colours cs dilg1 =>
    cases h
    exact hs
  | _ =>
    rw [(handle_steered rfl h).frame]
    exact hs

def World.Ticks (w : World) : Prop := ∀ i f, w.frames i = some f → f.Ticks

theorem FramesPassed.ticks (h : FramesPassed env w w') (hw : w.Ticks) : w'.Ticks := by
  intro i f' hf'
  obtain ⟨-, u, hp⟩ | ⟨f, hf, hp, -⟩ := h.frames i f' hf'
  · exact hp.ticks (opened_ticks u)
  · exact hp.ticks (hw i f hf)

theorem step_ticks {e : Event} (hw : w.Ticks) (h : World.step env e w = .ok w') : w'.Ticks := by
  cases e with
  | frame j e =>
    obtain ⟨v, g, s, hv, -, hg, hs, rfl⟩ := frame_handled h
    intro i f' hf'
    by_cases hij : i = j
    · subst hij
      rw [put_frames_self] at hf'
      cases hf'
      exact handle_ticks (hv.ticks hw _ g hg) hs
    · exact hv.ticks hw i f' ((put_frames_of_ne v s hij).symm.trans hf')
  | _ => exact (step_framesPassed (fun j => rfl) h).ticks hw

end

/-- No picture stays stale for longer than the timer's interval: the timer of
every open frame runs with 2000 ms, and from whatever state the frame is in its next
tick and the paint event that serves it succeed and draw the picture as it is. -/
theorem tick_repairs {env : Env} {config : FileConfig} {dilg1 : Colour} {es : List Event}
    {w : World} {i : FrameId} {f : SonarFrame} (disk : String → Bitmap)
    (h : (machine env).Run (World.construct env config dilg1) es w)
    (halive : w.host.alive = true) (hf : w.frames i = some f) (hlife : f.life = .created) :
    (∃ k, f.timer = .live ⟨k, ⟨2000, true⟩⟩) ∧
      ∃ v f', (machine env).Run w [.frame i .timer, .frame i (.paint disk)] v ∧
        v.frames i = some f' ∧ f'.drawn = some f.picture ∧ f'.picture = f.picture ∧
        f'.repaintDue = false := by
  have hticks : w.Ticks :=
    h.invariant World.Ticks (fun i g hg => by cases hg) fun _ _ _ hu _ hs => step_ticks hu hs
  refine ⟨hticks i f hf hlife, ?_⟩
  have hsound := (run_wellFormed h).sound i f hf
  obtain ⟨htimer, hcanvas, -⟩ := hsound.created hlife
  let u := w.put i (Scene.refresh ⟨f, w.toApp⟩)
  have htick : World.step env (.frame i .timer) w = .ok u :=
    onFrame_eq_ok.mpr ⟨f, _, hf, rfl, rfl⟩
  have huf : u.frames i = some { f with repaintDue := true } := put_frames_self w i _
  obtain ⟨t, ht⟩ := render_total env.build disk
    (s := ⟨{ f with repaintDue := false }, u.toApp⟩) htimer hcanvas hsound.imgData
  have hpaint : Scene.paintEvent env.build disk ⟨{ f with repaintDue := true }, u.toApp⟩ = .ok t := by
    obtain ⟨c, hc⟩ := Ptr.isLive_iff.mp hcanvas
    exact bind_eq_ok.mpr ⟨c, Ptr.use_eq_ok.mpr hc, ht⟩
  have hserve : World.step env (.frame i (.paint disk)) u = .ok (u.put i t) :=
    onFrame_eq_ok.mpr ⟨_, t, huf, hpaint, rfl⟩
  have hallowed : (machine env).allowed w (.frame i .timer) := by
    simp [machine, World.allows, halive, hf, SonarFrame.accepts, hlife]
  have hallowed' : (machine env).allowed u (.frame i (.paint disk)) := by
    have halive' : u.host.alive = true := halive
    simp [machine, World.allows, halive', huf, SonarFrame.accepts, hlife, hcanvas]
  have hframe := (render_spec ht).frame
  have hrun : (machine env).Run w ([.frame i .timer] ++ [.frame i (.paint disk)]) (u.put i t) :=
    (System.Run.single hallowed htick).snoc hallowed' hserve
  refine ⟨_, t.frame, hrun, put_frames_self u i t, ?_⟩
  rw [hframe]
  exact ⟨rfl, rfl, rfl⟩

theorem tick_repairs_restoration :
    ∃ w f v f', (machine .desktop).Run (World.blank .desktop)
        [.init true, .toolbar 1, .frame 0 (.mouseScroll 120), .frame 0 (.paint fun _ => ⟨4, 3⟩),
          .frame 0 .restoration] w ∧
      w.frames 0 = some f ∧ f.drawn ≠ some f.picture ∧ f.repaintDue = false ∧
      (machine .desktop).Run w [.frame 0 .timer, .frame 0 (.paint fun _ => ⟨4, 3⟩)] v ∧
      v.frames 0 = some f' ∧ f'.drawn = some f.picture := by
  let p (w : World) : Bool := w.host.alive && (w.frames 0).any fun f =>
    decide (f.life = .created) && decide (f.drawn ≠ some f.picture) && !f.repaintDue
  obtain ⟨w, hrun, hp⟩ := System.exists_run_of_exec (machine .desktop) (World.blank .desktop)
    [.init true, .toolbar 1, .frame 0 (.mouseScroll 120), .frame 0 (.paint fun _ => ⟨4, 3⟩),
      .frame 0 .restoration] p (by decide +kernel)
  obtain ⟨halive, hany⟩ := Bool.and_eq_true_iff.mp hp
  cases hf : w.frames 0 with
  | none => simp [hf] at hany
  | some f =>
    simp only [hf, Option.any_some, Bool.and_eq_true, decide_eq_true_eq, Bool.not_eq_true'] at hany
    obtain ⟨⟨hlife, hstale⟩, hdue⟩ := hany
    obtain ⟨-, v, f', hv, hf', hdrawn, -⟩ := tick_repairs (fun _ => ⟨4, 3⟩) hrun halive hf hlife
    exact ⟨w, f, v, f', hrun, hf, hstale, hdue, hv, hf', hdrawn⟩

end SonarPlugin
