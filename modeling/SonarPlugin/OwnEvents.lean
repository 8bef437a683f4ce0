import SonarPlugin.SingleFrame
import SonarPlugin.Ownership
import SonarPlugin.Rescale
import SonarPlugin.WindowLaws

namespace SonarPlugin

open Library

def Event.own? (i : FrameId) : Event → Option FrameEvent
  | .frame j e => if j = i then some e else none
  | _ => none

/-- What a frame keeps of the events it received: zoom, drag, the canvas's and
the check-box's state, position and size. -/
structure FrameData where
  imgDataSize : ℚ
  isDragging : Bool
  canvas : Ptr Canvas
  northUp : Ptr Bool
  view : Ptr ViewState
deriving DecidableEq

namespace FrameData

def press (b : Bool) (d : FrameData) : FrameData :=
  { d with isDragging := b, canvas := d.canvas.map fun _ => ⟨b⟩ }

def next (build : Build) (d : FrameData) : FrameEvent → FrameData
  | .move p => { d with view := d.view.map (ViewState.setPos p) }
  | .size client window _ =>
    if d.canvas.isLive then { d with view := d.view.map (ViewState.record build.platform client window) }
    else d
  | .northUp value => { d with northUp := d.northUp.map fun _ => value }
  | .mouseDown _ => d.press true
  | .mouseReleased _ => d.press false
  | e => { d with imgDataSize := e.scale build d.imgDataSize }

end FrameData

def SonarFrame.data (f : SonarFrame) : FrameData where
  imgDataSize := f.picture.imgDataSize
  isDragging := f.isDragging
  canvas := f.pCanvas
  northUp := f.pNorthUp
  view := f.pViewState.map Owned.value

/-- What the plug-in does to a frame of its own accord: it requests repaints,
recolours it or closes it. -/
structure Passed (f f' : SonarFrame) : Prop where
  frame : f' = { f with
    timer := f'.timer, life := f'.life, repaintDue := f'.repaintDue
    picture := { f.picture with bgColour := f'.picture.bgColour } }
  opened : f'.life ≠ .closed → f'.timer = f.timer ∧ f'.life = f.life

structure Still (a b : App) : Prop where
  statics : b.statics = a.statics
  log : ∃ calls, b.log = calls ++ a.log ∧ ∀ c ∈ calls, c.image? = none

/-- A change in which no frame receives an event. Only the current frame is
touched at all, and no other existing frame becomes current. -/
structure FramesPassed (env : Env) (w w' : World) : Prop where
  frames : ∀ i f', w'.frames i = some f' →
    (w.nextFrame ≤ i ∧ ∃ u, Passed (Scene.opened env u).frame f') ∨
      ∃ f, w.frames i = some f ∧ Passed f f' ∧
        (i < w.nextFrame → w.pi.pSonarFrame ≠ some i → f' = f)
  pointer : ∀ i < w.nextFrame, w.pi.pSonarFrame ≠ some i → w'.pi.pSonarFrame ≠ some i
  nextFrame : w.nextFrame ≤ w'.nextFrame
  still : Still w.toApp w'.toApp

section

variable {env : Env} {build : Build} {w w' v : World} {i : FrameId} {f f' f'' : SonarFrame}
  {s t : Scene}

namespace Passed

protected theorem refl (f : SonarFrame) : Passed f f := ⟨rfl, fun _ => ⟨rfl, rfl⟩⟩

theorem trans (h : Passed f f') (h' : Passed f' f'') : Passed f f'' where
  frame := by rw [h'.frame, h.frame]
  opened hopen := by
    obtain ⟨htimer', hlife'⟩ := h'.opened hopen
    obtain ⟨htimer, hlife⟩ := h.opened (hlife' ▸ hopen)
    exact ⟨htimer'.trans htimer, hlife'.trans hlife⟩

theorem data (h : Passed f f') : f'.data = f.data := by
  rw [h.frame]
  rfl

theorem closed (h : Closed s t) : Passed s.frame t.frame :=
  ⟨by rw [h.frame], fun hopen => absurd (by rw [h.frame]) hopen⟩

end Passed

namespace Still

variable {a b c : App}

protected theorem refl (a : App) : Still a a := ⟨rfl, [], rfl, by simp⟩

theorem trans (h : Still a b) (h' : Still b c) : Still a c :=
  ⟨h'.statics.trans h.statics, prepended_trans h.log h'.log⟩

theorem of_kept (h : AppKept a b) : Still a b := ⟨h.statics, h.log⟩

theorem note (a : App) {c : Call} (hc : c.image? = none) : Still a (a.note c) :=
  ⟨rfl, [c], rfl, by simpa using hc⟩

theorem closed (h : Closed s t) : Still s.app t.app :=
  ⟨h.statics, h.quiet.log⟩

end Still

namespace FramesPassed

protected theorem refl (w : World) : FramesPassed env w w :=
  ⟨fun _ f hf => .inr ⟨f, hf, .refl f, fun _ _ => rfl⟩, fun _ _ h => h, le_rfl, .refl _⟩

theorem trans (h : FramesPassed env w v) (h' : FramesPassed env v w') : FramesPassed env w w' where
  frames i f'' hf'' := by
    obtain ⟨hnext, hnew⟩ | ⟨f', hf', hpassed', heq'⟩ := h'.frames i f'' hf''
    · exact .inl ⟨h.nextFrame.trans hnext, hnew⟩
    obtain ⟨hnext, u, hpassed⟩ | ⟨f, hf, hpassed, heq⟩ := h.frames i f' hf'
    · exact .inl ⟨hnext, u, hpassed.trans hpassed'⟩
    · refine .inr ⟨f, hf, hpassed.trans hpassed', fun hi hp => ?_⟩
      rw [heq' (Nat.lt_of_lt_of_le hi h.nextFrame) (h.pointer i hi hp), heq hi hp]
  pointer i hi hp := h'.pointer i (Nat.lt_of_lt_of_le hi h.nextFrame) (h.pointer i hi hp)
  nextFrame := h.nextFrame.trans h'.nextFrame
  still := h.still.trans h'.still

theorem of_app {a : App} (h : a.pi.pSonarFrame = w.pi.pSonarFrame ∨ a.pi.pSonarFrame = none)
    (hstill : Still w.toApp a) : FramesPassed env w { w with toApp := a } where
  frames := (FramesPassed.refl w).frames
  pointer i _ hp := by
    obtain h | h := h
    · exact fun hi => hp (h.symm.trans hi)
    · exact fun hi => by cases h.symm.trans hi
  nextFrame := le_rfl
  still := hstill

theorem of_kept {a : App} (h : AppKept w.toApp a) : FramesPassed env w { w with toApp := a } :=
  of_app (.inl h.pSonarFrame) (.of_kept h)

theorem of_current (hp : w.pi.pSonarFrame = some i) (hf : w.frames i = some f)
    (h : Passed f s.frame) (hpointer : s.app.pi.pSonarFrame = some i ∨ s.app.pi.pSonarFrame = none)
    (hstill : Still w.toApp s.app) : FramesPassed env w (w.put i s) where
  frames j f' hf' := by
    by_cases hji : j = i
    · subst hji
      rw [put_frames_self] at hf'
      cases hf'
      exact .inr ⟨f, hf, h, fun _ hne => absurd hp hne⟩
    · rw [put_frames_of_ne w s hji] at hf'
      exact .inr ⟨f', hf', .refl f', fun _ _ => rfl⟩
  pointer j _ hne := by
    obtain hs | hs := hpointer
    · exact fun hj => hne (hp.trans (hs.symm.trans hj))
    · exact fun hj => by cases hs.symm.trans hj
  nextFrame := le_rfl
  still := hstill

theorem opened (w : World) : FramesPassed env w
    { w.put w.nextFrame (Scene.opened env w) with nextFrame := w.nextFrame + 1 } where
  frames j f' hf' := by
    by_cases hj : j = w.nextFrame
    · subst hj
      obtain rfl := Option.some.inj ((put_frames_self w _ (Scene.opened env w)).symm.trans hf')
      exact .inl ⟨le_rfl, w, .refl _⟩
    · have hf : w.frames j = some f' := (put_frames_of_ne w _ hj).symm.trans hf'
      exact .inr ⟨f', hf, .refl f', fun _ _ => rfl⟩
  pointer j hj _ := by
    have hs : (Scene.opened env w).app.pi.pSonarFrame = some w.nextFrame := by
      unfold Scene.opened
      dsimp only
      split <;> rfl
    intro hcur
    have hjn : w.nextFrame = j := Option.some.inj (hs.symm.trans hcur)
    exact absurd hj (by rw [hjn]; exact lt_irrefl j)
  nextFrame := Nat.le_succ _
  still := by
    change Still w.toApp (Scene.opened env w).app
    unfold Scene.opened
    dsimp only
    split
    · exact ⟨rfl, [_, _, _, _, _], rfl, by simp [Call.image?]⟩
    · exact ⟨rfl, [_, _, _], rfl, by simp [Call.image?]⟩

end FramesPassed

theorem toggle_framesPassed (h : w.toggleSonarFrame env = .ok w') : FramesPassed env w w' := by
  have hnote : FramesPassed env w { w with toApp := w.toApp.note .toggleSonarFrame } :=
    .of_kept (note_kept rfl _)
  refine hnote.trans ?_
  cases hp : w.pi.pSonarFrame with
  | none =>
    simp only [World.toggleSonarFrame, App.note, hp] at h
    rw [openFrame_eq] at h
    cases h
    exact .opened _
  | some i =>
    obtain ⟨hnone, -⟩ | ⟨j, f, s, hj, hf, hclosed, rfl⟩ := toggle_cases h
    · cases hp.symm.trans hnone
    · obtain ⟨v, -, hpi⟩ := hclosed.pi
      exact .of_current hj hf (.closed hclosed) (.inr (by rw [hpi])) (.closed hclosed)

theorem toggleOnKey_framesPassed {k : Key} {ctrl : Bool} (h : w.toggleOnKey env k ctrl = .ok w') :
    FramesPassed env w w' := by
  obtain ⟨-, h⟩ | ⟨-, rfl⟩ := toggleOnKey_inv h
  · exact toggle_framesPassed h
  · exact .refl _

theorem onSonarFrame_framesPassed {g : Scene → Except Fault Scene}
    (hg : ∀ s t, g s = .ok t → Passed s.frame t.frame ∧
      (t.app.pi.pSonarFrame = s.app.pi.pSonarFrame ∨ t.app.pi.pSonarFrame = none) ∧
      Still s.app t.app)
    (h : w.onSonarFrame g = .ok w') : FramesPassed env w w' := by
  obtain ⟨-, rfl⟩ | ⟨i, f, s, hp, hf, hs, rfl⟩ := onSonarFrame_eq_ok.mp h
  · exact .refl _
  · obtain ⟨hpassed, hpointer, hstill⟩ := hg _ s hs
    exact .of_current hp hf hpassed (hpointer.imp_left fun h => h.trans hp) hstill

theorem refresh_framesPassed (h : w.onSonarFrame (fun s => .ok s.refresh) = .ok w') :
    FramesPassed env w w' := by
  refine onSonarFrame_framesPassed (fun s t hs => ?_) h
  cases hs
  exact ⟨⟨rfl, fun _ => ⟨rfl, rfl⟩⟩, .inl rfl, .note s.app rfl⟩

theorem step_framesPassed {e : Event} (he : ∀ j, e.own? j = none)
    (h : World.step env e w = .ok w') : FramesPassed env w w' := by
  cases e with
  | init answer =>
    obtain ⟨a, ha, rfl⟩ := init_inv h
    have hi := init_ok ha
    exact .of_app (.inr hi.pSonarFrame) ⟨hi.statics, hi.log⟩
  | deInit =>
    obtain ⟨v, hv, rfl⟩ := deInit_inv h
    have hclose : FramesPassed env w v := by
      refine onSonarFrame_framesPassed (fun s t hs => ?_) hv
      have hc := onClose_ok hs
      obtain ⟨u, -, hpi⟩ := hc.pi
      exact ⟨.closed hc, .inr (by rw [hpi]), .closed hc⟩
    exact hclose.trans (.of_app (.inl rfl) ⟨rfl, [], rfl, by simp⟩)
  | toolbar id => exact toggle_framesPassed h
  | aisSentence answer =>
    obtain ⟨v, hv, h⟩ := aisSentence_inv h
    refine FramesPassed.trans ?_ (refresh_framesPassed h)
    obtain rfl | ⟨a, ha, rfl⟩ := hv
    · exact .refl _
    · exact .of_kept (getSonarTargets_kept ha)
  | positionFix x =>
    obtain rfl | h := positionFix_inv h
    · exact .refl _
    · have hstore : FramesPassed env w { w with toApp := w.toApp.storeFix x } :=
        .of_kept (storeFix_kept x _)
      exact hstore.trans (refresh_framesPassed h)
  | colorScheme cs dilg1 =>
    have hcol : FramesPassed env w { w with host.dilg1 := dilg1 } := .of_kept (dilg1_kept dilg1 _)
    refine hcol.trans (onSonarFrame_framesPassed (fun s t hs => ?_) h)
    cases hs
    have hscheme : Still s.app (s.setColourScheme cs).app :=
      (Still.note s.app rfl).trans (.note _ rfl)
    exact ⟨⟨rfl, fun _ => ⟨rfl, rfl⟩⟩, .inl rfl, hscheme⟩
  | getSonarTargets answer =>
    obtain ⟨a, ha, rfl⟩ := withApp_eq_ok.mp h
    exact .of_kept (getSonarTargets_kept ha)
  | preferences r =>
    obtain rfl := preferences_inv h
    have hd := dialog_spec r w.toApp
    obtain ⟨calls, hlog, hcalls⟩ := hd.calls
    refine .of_app (.inl hd.pSonarFrame) ⟨hd.statics, calls, hlog, fun c hc => ?_⟩
    rw [hcalls c hc]
    rfl
  | chartKey k ctrl =>
    exact repeatStep_invariant (FramesPassed env w)
      (fun u v hu huv => hu.trans (toggleOnKey_framesPassed huv)) (.refl w) h
  | frame j e => simpa [Event.own?] using he j
  | deleteFrame j =>
    cases h
    refine ⟨fun i f' hf' => .inr ?_, fun _ _ hp => hp, le_rfl, .refl _⟩
    by_cases hij : i = j
    · simp [hij] at hf'
    · exact ⟨f', by simpa [hij] using hf', .refl f', fun _ _ => rfl⟩
  | destroy =>
    obtain ⟨a, ha, rfl⟩ := withApp_eq_ok.mp h
    exact .of_kept (destroy_kept ha)

/-- An event of frame `i` passes all frames, and is then handled by that one.
Only Ctrl+1 does anything before. -/
theorem frame_handled {e : FrameEvent} (h : World.step env (.frame i e) w = .ok w') :
    ∃ v f s, FramesPassed env w v ∧ (e.isToggle = false → v = w) ∧ v.frames i = some f ∧
      e.handle env.build ⟨f, v.toApp⟩ = .ok s ∧ w' = v.put i s := by
  cases e with
  | key k ctrl =>
    obtain ⟨v, f, hv, hf, rfl⟩ := key_inv h
    refine ⟨v, f, _, toggleOnKey_framesPassed hv, fun hkey => ?_, hf, rfl, rfl⟩
    obtain ⟨htoggle, -⟩ | ⟨-, rfl⟩ := toggleOnKey_inv hv
    · cases hkey.symm.trans htoggle
    · rfl
  | _ =>
    obtain ⟨f, s, hf, hs, rfl⟩ := onFrame_eq_ok.mp h
    exact ⟨w, f, s, .refl w, fun _ => rfl, hf, hs, rfl⟩

theorem setMouseDown_data (s : Scene) (b : Bool) : (s.setMouseDown b).frame.data =
    { s.frame.data with canvas := s.frame.pCanvas.map fun _ => ⟨b⟩ } := by
  unfold Scene.setMouseDown
  cases hc : s.frame.pCanvas <;> simp [SonarFrame.data, hc]

theorem onLeftMouse_data (s : Scene) (p : Point Int) :
    (s.onLeftMouse p).frame.data = { s.frame.data with isDragging := true } := by
  dsimp only [Scene.onLeftMouse]
  split
  · rfl
  next hd =>
    have hdragging : s.frame.isDragging = true := by simpa using hd
    simp [SonarFrame.data, hdragging]

theorem onLeftMouseMove_data (s : Scene) (p : Point Int) :
    (s.onLeftMouseMove p).frame.data = s.frame.data := by
  dsimp only [Scene.onLeftMouseMove]
  split <;> rfl

theorem steered_data {e : FrameEvent} (h : t.frame = { s.frame with
      picture := t.frame.picture, repaintDue := t.frame.repaintDue })
    (hscale : t.frame.picture.imgDataSize = e.scale build s.frame.picture.imgDataSize) :
    t.frame.data = { s.frame.data with imgDataSize := e.scale build s.frame.data.imgDataSize } := by
  unfold SonarFrame.data
  rw [hscale, h]

theorem rendered_data {disk : String → Bitmap} (h : Rendered build disk s t) :
    t.frame.data = s.frame.data := by
  rw [h.frame]
  rfl

theorem handle_data {e : FrameEvent} (h : e.handle build s = .ok t) :
    t.frame.data = s.frame.data.next build e := by
  cases e with
  | move p =>
    obtain ⟨v, hv, rfl⟩ := onMove_ok h
    simp [SonarFrame.data, FrameData.next, hv]
  | size client window disk =>
    obtain ⟨hnull, rfl⟩ | ⟨v, hv, hlive, hr⟩ := onSize_ok h
    · simp [SonarFrame.data, FrameData.next, hnull]
    · rw [rendered_data hr]
      simp [SonarFrame.data, FrameData.next, hv, hlive]
  | paint disk =>
    exact rendered_data (s := { s with frame.repaintDue := false }) (paintEvent_ok h).2
  | northUp value =>
    obtain ⟨hlive, ebl, rfl⟩ := checkNorthUp_ok h
    obtain ⟨b, hb⟩ := Ptr.isLive_iff.mp hlive
    simp [SonarFrame.data, FrameData.next, Scene.refresh, hb]
  | mouseDown p =>
    cases h
    rw [Scene.mouseDown, onLeftMouse_data, setMouseDown_data]
    rfl
  | mouseMoved p =>
    cases h
    unfold Scene.mouseMoved
    split
    · split
      · exact onLeftMouseMove_data s p
      · rfl
    · rfl
  | mouseReleased p =>
    cases h
    have hset := setMouseDown_data s false
    exact congrArg (fun d : FrameData => { d with isDragging := false }) hset
  | close =>
    have hc := onClose_ok h
    rw [hc.frame]
    rfl
  | timer =>
    cases h
    rfl
  | colours cs dilg1 =>
    cases h
    rfl
  | restoration =>
    cases h
    rfl
  | mouseScroll rotation =>
    refine steered_data ?_ (handle_size h)
    cases h
    dsimp only [Scene.mouseScroll, Scene.onMouseScroll]
    split <;> split <;> rfl
  | key k ctrl =>
    refine steered_data ?_ (handle_size h)
    cases h
    cases k <;> rfl

theorem own?_eq_some {e : Event} {e' : FrameEvent} (h : e.own? i = some e') : e = .frame i e' := by
  cases e with
  | frame j e =>
    by_cases hji : j = i
    · subst hji
      simpa [Event.own?] using h
    · simp [Event.own?, hji] at h
  | _ => cases h

theorem step_passed {e : Event} (he : e.own? i = none) (hi : i < w.nextFrame)
    (h : World.step env e w = .ok w') (hf' : w'.frames i = some f') :
    ∃ f, w.frames i = some f ∧ Passed f f' ∧ (w.pi.pSonarFrame ≠ some i → f' = f) := by
  have hpassed {v : World} (hv : FramesPassed env w v) (hf' : v.frames i = some f') :
      ∃ f, w.frames i = some f ∧ Passed f f' ∧ (w.pi.pSonarFrame ≠ some i → f' = f) := by
    obtain ⟨hnext, -⟩ | ⟨f, hf, hpassed, heq⟩ := hv.frames i f' hf'
    · exact absurd hi (Nat.not_lt_of_le hnext)
    · exact ⟨f, hf, hpassed, heq hi⟩
  cases e with
  | frame j e =>
    have hij : i ≠ j := by
      rintro rfl
      simp [Event.own?] at he
    obtain ⟨v, g, s, hv, -, -, -, rfl⟩ := frame_handled h
    exact hpassed hv ((put_frames_of_ne v s hij).symm.trans hf')
  | _ => exact hpassed (step_framesPassed (fun j => rfl) h) hf'

theorem step_nextFrame {e : Event} (h : World.step env e w = .ok w') :
    w.nextFrame ≤ w'.nextFrame := by
  cases e with
  | frame j e =>
    obtain ⟨v, g, s, hv, -, -, -, rfl⟩ := frame_handled h
    exact hv.nextFrame
  | _ => exact (step_framesPassed (fun j => rfl) h).nextFrame

theorem step_data {e : Event} (hi : i < w.nextFrame) (h : World.step env e w = .ok w')
    (hf' : w'.frames i = some f') :
    ∃ f, w.frames i = some f ∧ f'.data = (e.own? i).elim f.data (f.data.next env.build) := by
  cases he : e.own? i with
  | none =>
    obtain ⟨f, hf, hpassed, -⟩ := step_passed he hi h hf'
    exact ⟨f, hf, hpassed.data⟩
  | some e' =>
    obtain rfl := own?_eq_some he
    obtain ⟨v, g, s, hv, -, hg, hs, rfl⟩ := frame_handled h
    rw [put_frames_self] at hf'
    cases hf'
    obtain ⟨hnext, -⟩ | ⟨f, hf, hpassed, -⟩ := hv.frames i g hg
    · exact absurd hi (Nat.not_lt_of_le hnext)
    · refine ⟨f, hf, ?_⟩
      rw [Option.elim_some, ← hpassed.data]
      exact handle_data hs

theorem run_data {fs : List Event} (hi : i < w.nextFrame) (hf : w.frames i = some f)
    (h : (machine env).Run w fs w') (hf' : w'.frames i = some f') :
    f'.data = (fs.filterMap (Event.own? i)).foldl (FrameData.next env.build) f.data := by
  have hfold : (fs.filterMap (Event.own? i)).foldl (FrameData.next env.build) f.data =
      fs.foldl (fun d e => (e.own? i).elim d (d.next env.build)) f.data := by
    rw [List.foldl_filterMap]
    congr 1
    funext d e
    cases e.own? i <;> rfl
  rw [hfold]
  have hstart : i < w.nextFrame ∧ ∀ g, w.frames i = some g → g.data = f.data := by
    refine ⟨hi, fun g hg => ?_⟩
    rw [Option.some.inj (hg.symm.trans hf)]
  have hend := h.refines (fun d e => (e.own? i).elim d (d.next env.build))
    (fun u d => i < u.nextFrame ∧ ∀ g, u.frames i = some g → g.data = d) hstart ?_
  · exact hend.2 f' hf'
  · rintro u d e v ⟨hu, hd⟩ - hs
    refine ⟨Nat.lt_of_lt_of_le hu (step_nextFrame hs), fun g hg => ?_⟩
    obtain ⟨k, hk, hdata⟩ := step_data hu hs hg
    rw [hdata, hd k hk]

end

/-- Whatever happens to the plug-in and to other frames meanwhile, zoom, drag,
check-box, position and size of a frame are what its own events make of them. -/
theorem frame_follows_own_events {env : Env} {config : FileConfig} {dilg1 : Colour}
    {es fs : List Event} {u w : World} {i : FrameId} {f f' : SonarFrame}
    (h : (machine env).Run (World.construct env config dilg1) es u)
    (h' : (machine env).Run u fs w) (hf : u.frames i = some f) (hf' : w.frames i = some f') :
    f'.data = (fs.filterMap (Event.own? i)).foldl (FrameData.next env.build) f.data :=
  run_data ((run_wellFormed h).lt_nextFrame hf) hf h' hf'

theorem zoomed_apart :
    ∃ u w f f', (machine .desktop).Run (World.blank .desktop)
        [.init true, .toolbar 1, .init true, .toolbar 1] u ∧
      (machine .desktop).Run u [.frame 0 (.mouseScroll 120), .frame 1 (.mouseScroll (-120)),
        .toolbar 1, .frame 0 (.northUp true)] w ∧
      u.frames 0 = some f ∧ w.frames 0 = some f' ∧
      f'.data = (f.data.next Env.desktop.build (.mouseScroll 120)).next Env.desktop.build
        (.northUp true) := by
  let fs : List Event := [.frame 0 (.mouseScroll 120), .frame 1 (.mouseScroll (-120)), .toolbar 1,
    .frame 0 (.northUp true)]
  obtain ⟨u, hu, hp⟩ := System.exists_run_of_exec (machine .desktop) (World.blank .desktop)
    [.init true, .toolbar 1, .init true, .toolbar 1]
    (fun u => (u.frames 0).isSome && ((machine .desktop).exec fs u).any fun w => (w.frames 0).isSome)
    (by decide +kernel)
  obtain ⟨hf, hexec⟩ := Bool.and_eq_true_iff.mp hp
  obtain ⟨w, hw, hf'⟩ := System.exists_run_of_exec (machine .desktop) u fs _ hexec
  obtain ⟨f, hf⟩ := Option.isSome_iff_exists.mp hf
  obtain ⟨f', hf'⟩ := Option.isSome_iff_exists.mp hf'
  exact ⟨u, w, f, f', hu, hw, hf, hf', frame_follows_own_events hu hw hf hf'⟩

section

variable {env : Env} {build : Build} {w w' : World} {i : FrameId} {f : SonarFrame} {s t : Scene}

theorem handle_bgColour {e : FrameEvent} (hcolours : ∀ cs dilg1, e ≠ .colours cs dilg1)
    (h : e.handle build s = .ok t) :
    t.frame.picture.bgColour = s.frame.picture.bgColour := by
  cases e with
  | colours cs dilg1 => exact absurd rfl (hcolours cs dilg1)
  | move p =>
    obtain ⟨v, -, rfl⟩ := onMove_ok h
    rfl
  | size client window disk =>
    obtain ⟨-, rfl⟩ | ⟨v, -, -, hr⟩ := onSize_ok h
    · rfl
    · rw [rendered_picture hr]
  | paint disk => rw [rendered_picture (paintEvent_ok h).2]
  | northUp value =>
    obtain ⟨-, ebl, rfl⟩ := checkNorthUp_ok h
    rfl
  | mouseDown p =>
    cases h
    obtain ⟨c, hc⟩ := s.setMouseDown_eq true
    dsimp only [Scene.mouseDown, Scene.onLeftMouse]
    rw [hc]
    split <;> rfl
  | mouseMoved p =>
    cases h
    unfold Scene.mouseMoved Scene.onLeftMouseMove
    split
    · split
      · split <;> rfl
      · rfl
    · rfl
  | mouseReleased p =>
    cases h
    obtain ⟨c, hc⟩ := s.setMouseDown_eq false
    dsimp only [Scene.mouseReleased]
    rw [hc]
    rfl
  | mouseScroll rotation =>
    cases h
    dsimp only [Scene.mouseScroll, Scene.onMouseScroll]
    split <;> split <;> rfl
  | key k ctrl =>
    cases h
    cases k <;> rfl
  | close => rw [(onClose_ok h).frame]
  | timer | restoration =>
    cases h
    rfl

/-- What holds of a frame from the moment on when another one can be opened
beside it, as long as it is not closed. -/
structure LeftAlone (env : Env) (i : FrameId) (f : SonarFrame) (w : World) : Prop where
  coherent : w.Coherent
  valid : w.lifecycle.Valid env
  orphan : w.lifecycle.Orphan i
  lives : w.lifecycle.lives i = some f.life
  bgColour : ∀ g, w.frames i = some g → g.picture.bgColour = f.picture.bgColour

theorem LeftAlone.step {e : Event} (hw : LeftAlone env i f w) (he : w.allows e = true)
    (hclose : e ≠ .frame i .close) (h : World.step env e w = .ok w') :
    LeftAlone env i f w' := by
  have hstep : Lifecycle.step env e w.lifecycle = .ok w'.lifecycle := by
    rw [step_shown hw.coherent he, h]
    rfl
  have hallows : w.lifecycle.allows e = true := by
    rw [allows_shown hw.coherent.numbered]
    exact he
  obtain ⟨horphan, hlives⟩ := Lifecycle.step_orphan hw.valid hallows hstep hclose hw.orphan
  refine ⟨step_coherent hw.coherent he h, Lifecycle.step_valid hw.valid hallows hstep, horphan,
    hlives.trans hw.lives, fun g' hg' => ?_⟩
  have hi : i < w.nextFrame := by
    obtain ⟨g, hg, -⟩ := frame_of_lives hw.lives
    exact hw.coherent.wellFormed.lt_nextFrame hg
  cases hown : e.own? i with
  | none =>
    obtain ⟨g, hg, -, heq⟩ := step_passed hown hi h hg'
    rw [heq hw.orphan.current]
    exact hw.bgColour g hg
  | some e' =>
    obtain rfl := own?_eq_some hown
    obtain ⟨v, k, s, hv, -, hk, hs, rfl⟩ := frame_handled h
    rw [put_frames_self] at hg'
    cases hg'
    obtain ⟨hnext, -⟩ | ⟨g, hg, -, heq⟩ := hv.frames i k hk
    · exact absurd hi (Nat.not_lt_of_le hnext)
    · rw [handle_bgColour ?_ hs]
      · rw [heq hi hw.orphan.current]
        exact hw.bgColour g hg
      · rintro cs dilg1 rfl
        obtain ⟨g, -, hacc⟩ := allows_frame he
        simp [SonarFrame.accepts] at hacc

theorem run_frozen {fs : List Event} (hfs : ∀ e ∈ fs, e.own? i = none)
    (hw : LeftAlone env i f w) (hf : w.frames i = some f) (h : (machine env).Run w fs w') :
    w'.frames i = some f := by
  have h' := h.to_restrict (C := fun _ e => e.own? i = none) fun _ e he => hfs e he
  have hboth : LeftAlone env i f w' ∧ w'.frames i = some f := by
    refine h'.invariant (fun u => LeftAlone env i f u ∧ u.frames i = some f) ⟨hw, hf⟩ ?_
    rintro u e v ⟨hu, huf⟩ ⟨ha, hown⟩ hs
    have hclose : e ≠ .frame i .close := by
      rintro rfl
      simp [Event.own?] at hown
    have hv := hu.step ha hclose hs
    have hi := hu.coherent.wellFormed.lt_nextFrame huf
    obtain ⟨g, hg, -⟩ := frame_of_lives hv.lives
    obtain ⟨k, hk, -, heq⟩ := step_passed hown hi hs hg
    obtain rfl : k = f := Option.some.inj (hk.symm.trans huf)
    exact ⟨hv, hg.trans (congrArg some (heq hu.orphan.current))⟩
  exact hboth.2

end

/-- An open frame that `Init` has cut off from the plug-in is out of its reach:
no toggle, `DeInit`, colour scheme or data feed changes anything in it any more, and
nothing but a close event of its own ever closes it. -/
theorem orphan_out_of_reach {env : Env} {config : FileConfig} {dilg1 : Colour}
    {es fs : List Event} {u w : World} {i : FrameId} {f : SonarFrame}
    (h : (machine env).Run (World.construct env config dilg1) es u)
    (h' : (machine env).Run u fs w) (hf : u.frames i = some f) (hopen : f.life ≠ .closed)
    (hp : u.pi.pSonarFrame ≠ some i) :
    ((∀ e ∈ fs, e ≠ .frame i .close) → w.pi.pSonarFrame ≠ some i ∧
        ∃ f', w.frames i = some f' ∧ f'.life = f.life ∧
          f'.picture.bgColour = f.picture.bgColour) ∧
      ((∀ e ∈ fs, e.own? i = none) → w.frames i = some f) := by
  have hu : LeftAlone env i f u := by
    refine ⟨run_coherent h, Lifecycle.run_valid (run_shown h),
      ⟨⟨f.life, lifecycle_lives hf, hopen⟩, hp⟩, lifecycle_lives hf, fun g hg => ?_⟩
    rw [Option.some.inj (hg.symm.trans hf)]
  refine ⟨fun hclose => ?_, fun hown => run_frozen hown hu hf h'⟩
  have hrun := h'.to_restrict (C := fun _ e => e ≠ .frame i .close) fun _ e he => hclose e he
  have hw : LeftAlone env i f w := by
    refine hrun.invariant (LeftAlone env i f) hu ?_
    rintro v e v' hv ⟨ha, hclose⟩ hs
    exact hv.step ha hclose hs
  obtain ⟨f', hf', hlife⟩ := frame_of_lives hw.lives
  exact ⟨hw.orphan.current, f', hf', hlife, hw.bgColour f' hf'⟩

theorem orphan_misses_colours :
    ∃ u w f, (machine .desktop).Run (World.blank .desktop) [.init true, .toolbar 1, .init true] u ∧
      (machine .desktop).Run u [.colorScheme .night ⟨1, 2, 3⟩,
        .positionFix ⟨.num 5, .num 6, .num 7, .num 8, 9⟩, .deInit, .init true, .toolbar 1] w ∧
      u.frames 0 = some f ∧ w.frames 0 = some f := by
  let fs : List Event := [.colorScheme .night ⟨1, 2, 3⟩,
    .positionFix ⟨.num 5, .num 6, .num 7, .num 8, 9⟩, .deInit, .init true, .toolbar 1]
  obtain ⟨u, hu, hp⟩ := System.exists_run_of_exec (machine .desktop) (World.blank .desktop)
    [.init true, .toolbar 1, .init true]
    (fun u => decide (u.pi.pSonarFrame = none) &&
      decide ((u.frames 0).map SonarFrame.life = some .created) &&
      ((machine .desktop).exec fs u).isSome) (by decide +kernel)
  simp only [Bool.and_eq_true, decide_eq_true_eq, Option.map_eq_some_iff] at hp
  obtain ⟨⟨hnone, f, hf, hlife⟩, hexec⟩ := hp
  obtain ⟨w, hw⟩ := Option.isSome_iff_exists.mp hexec
  have hrun := System.run_of_exec hw
  have hreach := orphan_out_of_reach hu hrun hf (by simp [hlife]) (by simp [hnone])
  refine ⟨u, w, f, hu, hrun, hf, hreach.2 fun e he => ?_⟩
  simp only [fs, List.mem_cons, List.not_mem_nil, or_false] at he
  obtain rfl | rfl | rfl | rfl | rfl := he <;> rfl

end SonarPlugin
