import SonarPlugin.Memory
import SonarPlugin.Ticking
import SonarPlugin.ViewSteps

namespace SonarPlugin

open Library

/-- The plug-in without what looking at a frame changes: the image and what the
last render has drawn, position and zoom, the drag, the requests to repaint, the
static counters and the calls of `Refresh` and `Rescale`. Objects on the heap are
seen without their numbers. -/
def withoutPicture : View where
  feeds := true
  picture := false
  call := Option.guard fun c => !c.isPictureTrace
  call_twice c := by cases h : c.isPictureTrace <;> simp [Option.guard, h]
  without_feeds := by simp
  without_picture _ c hc := by simp [hc]

namespace withoutPicture

open View

section

variable {env : Env} {build : Build} {w w' : World} {s t : Scene}

theorem hides_eq : withoutPicture.hides = Event.isPictorial := by
  funext e
  simp [View.hides, withoutPicture]

theorem refresh_unseen (s : Scene) : withoutPicture.scene s.refresh = withoutPicture.scene s :=
  scene_eq rfl (app_eq rfl rfl rfl rfl (log_forgotten rfl _))

theorem setPicture_unseen {p : Picture} (hp : p.bgColour = s.frame.picture.bgColour) :
    withoutPicture.scene (s.setPicture p) = withoutPicture.scene s := by
  refine scene_eq ?_ rfl
  simp [frame, drawing, withoutPicture, Scene.setPicture, hp]

theorem drag_unseen (s : Scene) (b : Bool) (p : Point Int) :
    withoutPicture.scene { s with frame.isDragging := b, app.statics.lastMousePos := p } =
      withoutPicture.scene s := rfl

theorem setMouseDown_unseen (s : Scene) (b : Bool) :
    withoutPicture.scene (s.setMouseDown b) = withoutPicture.scene s := by
  unfold Scene.setMouseDown
  split
  next c hc =>
    refine scene_eq ?_ rfl
    simp [frame, withoutPicture, hc]
  next => rfl

theorem zoomBy_unseen (s : Scene) (change : ℚ → ℚ) :
    withoutPicture.scene (s.zoomBy change) = withoutPicture.scene s := setPicture_unseen rfl

theorem onLeftMouse_unseen (s : Scene) (p : Point Int) :
    withoutPicture.scene (s.onLeftMouse p) = withoutPicture.scene s := by
  dsimp only [Scene.onLeftMouse]
  split
  · exact (refresh_unseen _).trans (drag_unseen s true p)
  · exact drag_unseen s s.frame.isDragging p

theorem onLeftMouseMove_unseen (s : Scene) (p : Point Int) :
    withoutPicture.scene (s.onLeftMouseMove p) = withoutPicture.scene s := by
  dsimp only [Scene.onLeftMouseMove]
  split
  · refine (refresh_unseen _).trans ((drag_unseen _ s.frame.isDragging p).trans ?_)
    exact setPicture_unseen rfl
  · rfl

/-- A render restarts a timer that runs, which keeps its interval. -/
theorem render_unseen {disk : String → Bitmap} (hs : s.frame.Sound) (hticks : s.frame.Ticks)
    (h : Rendered build disk s t) : withoutPicture.scene t = withoutPicture.scene s := by
  obtain ⟨tm, htm, htm'⟩ := h.timer
  obtain ⟨img, himg⟩ := h.imgData
  obtain ⟨img', himg'⟩ := Ptr.isLive_iff.mp hs.imgData
  have hrestart : tm.value.start restart = tm.value := by
    rw [hticks.value hs htm]
    rfl
  refine scene_eq ?_ ?_
  · rw [h.frame, htm', himg, hrestart]
    simp [frame, withoutPicture, htm, himg']
  · rw [h.app]
    refine app_eq rfl rfl ?_ rfl ?_
    · simp [statics, withoutPicture, h.svg]
    · rw [h.log]
      exact log_forgotten rfl _

theorem zoom_unseen {p : Prop} [Decidable p] (hs : withoutPicture.scene s = withoutPicture.scene t) :
    withoutPicture.scene (if p then s else t) = withoutPicture.scene t := by
  split
  · exact hs
  · rfl

theorem handle_unseen {e : FrameEvent} (he : e.isPictorial = true) (hs : s.frame.Sound)
    (hticks : s.frame.Ticks) (h : e.handle build s = .ok t) :
    withoutPicture.scene t = withoutPicture.scene s := by
  cases e with
  | move | size | northUp | colours | close => cases he
  | paint disk =>
    exact render_unseen (s := { s with frame.repaintDue := false }) { hs with } hticks
      (paintEvent_ok h).2
  | timer =>
    cases h
    exact refresh_unseen s
  | restoration =>
    cases h
    exact setPicture_unseen rfl
  | mouseDown p =>
    cases h
    exact (onLeftMouse_unseen _ p).trans (setMouseDown_unseen s true)
  | mouseMoved p =>
    cases h
    unfold Scene.mouseMoved
    split
    · exact zoom_unseen (onLeftMouseMove_unseen s p)
    · rfl
  | mouseReleased p =>
    cases h
    exact setMouseDown_unseen s false
  | mouseScroll rotation =>
    cases h
    refine (refresh_unseen _).trans ((zoom_unseen (zoomBy_unseen _ _)).trans ?_)
    exact zoom_unseen (zoomBy_unseen s _)
  | key k ctrl =>
    cases h
    refine (zoom_unseen ((refresh_unseen _).trans (zoomBy_unseen _ _))).trans ?_
    exact zoom_unseen ((refresh_unseen _).trans (zoomBy_unseen s _))

theorem event_unseen {e : Event} (hw : w.WellFormed) (hticks : w.Ticks) (he : e.isPictorial = true)
    (h : World.step env e w = .ok w') : withoutPicture.world w' = withoutPicture.world w := by
  cases e with
  | frame i e =>
    have htoggle : e.isToggle = false := by
      cases e with
      | key k ctrl =>
        have hkey : (!(FrameEvent.key k ctrl).isToggle) = true := he
        simpa using hkey
      | _ => rfl
    obtain ⟨v, f, s, -, hv, hf, hs, rfl⟩ := frame_handled h
    obtain rfl := hv htoggle
    exact put_kept hf (handle_unseen he (hw.sound i f hf) (hticks i f hf) hs)
  | _ => cases he

theorem shown_eq (h : withoutPicture.world w = withoutPicture.world w') : w.shown = w'.shown := by
  have hshown (w : World) : (withoutPicture.world w).shown = w.shown := by
    have hlife (i : FrameId) : ((withoutPicture.world w).frames i).map SonarFrame.life =
        (w.frames i).map SonarFrame.life := Option.map_map ..
    simp only [World.shown, hlife]
    rfl
  rw [← hshown w, h, hshown w']

end

end withoutPicture

/-- Looking at the picture touches nothing else: every run goes through without
its paint, timer, mouse, button and zoom-key events and ends in the same world
but for what `withoutPicture` leaves out, with as many objects on the heap. So do
all runs that differ in nothing but these events. -/
theorem picture_unseen {env : Env} {config : FileConfig} {dilg1 : Colour} {es : List Event}
    {w : World} (h : (machine env).Run (World.construct env config dilg1) es w) :
    (∃ v, (machine env).Run (World.construct env config dilg1)
          (es.filter fun e => !e.isPictorial) v ∧
        withoutPicture.world w = withoutPicture.world v ∧
        w.heap.live.card = v.heap.live.card) ∧
      ∀ es' w', (machine env).Run (World.construct env config dilg1) es' w' →
        ((es.filter fun e => !e.isPictorial) = es'.filter fun e => !e.isPictorial) →
        withoutPicture.world w = withoutPicture.world w' ∧
          w.heap.live.card = w'.heap.live.card := by
  have hunseen : (machine env).Unseen (fun u => u.Keeps ∧ u.WellFormed ∧ u.Ticks)
      Event.isPictorial withoutPicture.world := by
    refine View.unseen withoutPicture.hides_eq ?_ (fun _ hu => hu.1.valid) ?_
    · rintro u e v ⟨hkeeps, hwell, hticks⟩ he hs
      exact ⟨step_keeps hkeeps he hs, step_wellFormed hwell he hs, step_ticks hticks hs⟩
    · rintro u e v ⟨-, hwell, hticks⟩ he hs
      exact withoutPicture.event_unseen hwell hticks he hs
  have hstart : (World.construct env config dilg1).Keeps ∧
      (World.construct env config dilg1).WellFormed ∧ (World.construct env config dilg1).Ticks :=
    ⟨construct_keeps env config dilg1, construct_wellFormed env config dilg1,
      fun i f hf => by cases hf⟩
  have hcard {es' : List Event} {w' : World}
      (h' : (machine env).Run (World.construct env config dilg1) es' w')
      (hview : withoutPicture.world w = withoutPicture.world w') :
      w.heap.live.card = w'.heap.live.card := by
    have hnext := congrArg World.nextFrame hview
    change w.nextFrame = w'.nextFrame at hnext
    rw [(run_balanced h).card (run_wellFormed h), (run_balanced h').card (run_wellFormed h'),
      hnext, withoutPicture.shown_eq hview]
  constructor
  · obtain ⟨v, hv, hview⟩ := hunseen.purge hstart hstart rfl h
    exact ⟨v, hv, hview, hcard hv hview⟩
  · intro es' w' h' hes
    have hview := hunseen.same_view hstart hstart rfl h h' hes
    exact ⟨hview, hcard h' hview⟩

theorem session_without_looking :
    ∃ w v, (machine .desktop).Run (World.blank .desktop)
        [.init true, .toolbar 1, .frame 0 (.mouseDown ⟨1, 1⟩), .frame 0 (.mouseMoved ⟨5, 5⟩),
          .frame 0 (.mouseScroll 120), .frame 0 (.paint fun _ => ⟨4, 3⟩), .frame 0 .close] w ∧
      (machine .desktop).Run (World.blank .desktop) [.init true, .toolbar 1, .frame 0 .close] v ∧
      withoutPicture.world w = withoutPicture.world v ∧ w.heap.live.card = v.heap.live.card := by
  obtain ⟨w, hrun, -⟩ := System.exists_run_of_exec (machine .desktop) (World.blank .desktop)
    [.init true, .toolbar 1, .frame 0 (.mouseDown ⟨1, 1⟩), .frame 0 (.mouseMoved ⟨5, 5⟩),
      .frame 0 (.mouseScroll 120), .frame 0 (.paint fun _ => ⟨4, 3⟩), .frame 0 .close]
    (fun _ => true) (by decide +kernel)
  obtain ⟨v, hv, hview, hcard⟩ := (picture_unseen hrun).1
  exact ⟨w, v, hrun, hv, hview, hcard⟩

end SonarPlugin
