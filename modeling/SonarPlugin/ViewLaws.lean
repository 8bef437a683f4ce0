import SonarPlugin.Views

namespace SonarPlugin

open Library

/-- Paint, timer, mouse, button and zoom keys: all that a frame receives but
what moves, sizes, recolours, toggles or closes it and its check-box. -/
def FrameEvent.isPictorial : FrameEvent → Bool
  | .paint _ | .timer | .restoration | .mouseDown _ | .mouseMoved _ | .mouseReleased _
  | .mouseScroll _ => true
  | .key k ctrl => !(decide (k = .one) && ctrl)
  | _ => false

def Event.isPictorial : Event → Bool
  | .frame _ e => e.isPictorial
  | _ => false

/-- The events by which the host passes on targets and positions. -/
def Event.isData : Event → Bool
  | .aisSentence _ | .positionFix _ | .getSonarTargets _ => true
  | _ => false

namespace View

def hides (V : View) (e : Event) : Bool :=
  (!V.feeds && e.isData) || (!V.picture && e.isPictorial)

section

variable {V : View} {env : Env} {build : Build} {w : World} {a b : App} {s t : Scene}

theorem refresh_seen : Seen V.scene Scene.refresh := by
  intro s
  refine scene_eq ?_ (note_seen _ s.app)
  simp [scene, frame, Scene.refresh]

theorem setColourScheme_seen (cs : ColorScheme) : Seen V.scene (Scene.setColourScheme cs) := by
  intro s
  refine scene_eq ?_ ?_
  · simp [scene, frame, Scene.setColourScheme, Scene.refresh, Scene.setPicture, Scene.note, drawing,
      app, host]
  · exact app_eq (pi_pi _) (host_host _) (statics_statics _) (heap_heap _) (log_append [_, _] _)

theorem viewState_eq {v : Owned ViewState} (x : ViewState) :
    V.scene { V.scene s with frame.pViewState := .live ⟨keep V.picture v.handle 0, x⟩ } =
      V.scene { s with frame.pViewState := .live ⟨v.handle, x⟩ } := by
  refine scene_eq ?_ (app_twice s.app)
  simp [scene, frame]

theorem timer_eq {tm : Owned Timer} (x : Timer) :
    V.scene { V.scene s with frame.timer := .live ⟨keep V.picture tm.handle 0, x⟩ } =
      V.scene { s with frame.timer := .live ⟨tm.handle, x⟩ } := by
  refine scene_eq ?_ (app_twice s.app)
  simp [scene, frame]

theorem onMove_sees (p : Point Int32) : Sees V.scene (Scene.onMove p) := fun _ =>
  Ptr.use_map_bind fun _ _ => congrArg Except.ok (viewState_eq _)

theorem heap_release (L : Ledger) (h : Nat) :
    V.heap ((V.heap L).release (keep V.picture h 0)) = V.heap (L.release h) := by
  cases hp : V.picture <;> simp [heap, hp]

theorem heap_alloc (L : Ledger) : V.heap (V.heap L).alloc = V.heap L.alloc := by
  cases hp : V.picture <;> simp [heap, hp]

theorem deleteImgData_sees : Sees V.scene Scene.deleteImgData := by
  intro s
  have himg : (V.scene s).frame.imgData = V.image s.frame.imgData := rfl
  unfold Scene.deleteImgData
  rw [himg]
  cases s.frame.imgData with
  | null => exact congrArg Except.ok (scene_twice s)
  | live img =>
    refine congrArg Except.ok (scene_eq ?_ ?_)
    · simp [scene, frame]
    · exact app_eq (pi_pi _) (host_host _) (statics_statics _) (heap_release _ _) (log_append [] _)
  | dangling => rfl

theorem statics_of_picture (hp : V.picture = true) (x : Statics) : V.statics x = x := by
  simp [statics, hp]

theorem heap_of_picture (hp : V.picture = true) (L : Ledger) : V.heap L = L := by
  simp [heap, hp]

theorem drawing_of_picture (hp : V.picture = true) (p : Picture) : V.drawing p = p := by
  simp [drawing, hp]

theorem picture_scene (hp : V.picture = true) (s : Scene) :
    (V.scene s).frame.picture = s.frame.picture := drawing_of_picture hp _

theorem dimsFor_scene (hp : V.picture = true) (img : Bitmap) (s : Scene) :
    (V.scene s).dimsFor img = s.dimsFor img := by
  change (V.statics s.app.statics).resizeDims.getD img.dims = _
  rw [statics_of_picture hp]
  rfl

theorem rescaleCall_scene (hp : V.picture = true) (img : Bitmap) (s : Scene) :
    (V.scene s).rescaleCall build img = s.rescaleCall build img := by
  rw [Scene.rescaleCall, Scene.rescaleCall, dimsFor_scene hp, picture_scene hp]

theorem nextBitmap_scene (hp : V.picture = true) (disk : String → Bitmap) (s : Scene) :
    (V.scene s).nextBitmap disk = s.nextBitmap disk := by
  change disk (Scene.nextImage (V.statics s.app.statics).imgNum).2 = _
  rw [statics_of_picture hp]
  rfl

theorem rescaled_scene (hp : V.picture = true) (img : Bitmap) (s : Scene) :
    (V.scene s).rescaled build img = s.rescaled build img := by
  rw [Scene.rescaled, Scene.rescaled, dimsFor_scene hp, picture_scene hp]

/-- Without the picture nothing is seen of the image that is loaded, and with it
all that the load depends on. -/
theorem loadAndDraw_seen (disk : String → Bitmap) :
    Seen V.scene (Scene.loadAndDraw build disk) := by
  intro s
  rw [Scene.loadAndDraw_eq, Scene.loadAndDraw_eq]
  cases hp : V.picture with
  | false =>
    have hcall (u : Scene) : V.call (u.rescaleCall build (u.nextBitmap disk)) = none :=
      V.without_picture hp _ rfl
    refine scene_eq ?_ (app_eq (pi_pi _) (host_host _) ?_ (heap_alloc _) ?_)
    · simp [scene, frame, image, drawing, hp]
    · simp [scene, app, statics, hp]
    · exact (log_forgotten (hcall _) _).trans
        ((log_append [] s.app.log).trans (log_forgotten (hcall s) _).symm)
  | true =>
    rw [nextBitmap_scene hp, dimsFor_scene hp, rescaleCall_scene hp, rescaled_scene hp]
    refine scene_eq ?_ (app_eq (pi_pi _) (host_host _) ?_ (heap_alloc _) (log_append [_] s.app.log))
    · simp [scene, frame, app, drawing_of_picture hp, heap_of_picture hp]
    · simp [scene, app, statics_of_picture hp]

theorem render_sees (disk : String → Bitmap) : Sees V.scene (Scene.render build disk) := by
  have hrest : Sees V.scene fun s => s.deleteImgData >>= fun t => .ok (t.loadAndDraw build disk) :=
    deleteImgData_sees.bind (Sees.ok (loadAndDraw_seen disk))
  intro s
  refine Ptr.use_map_bind fun tm _ => ?_
  refine Ptr.use_map_bind fun c _ => ?_
  exact hrest.congr (timer_eq (tm.value.start restart))

theorem onSize_sees (client window : Size Int32) (disk : String → Bitmap) :
    Sees V.scene (Scene.onSize build client window disk) := by
  intro s
  have hcanvas : (V.scene s).frame.pCanvas = V.canvas s.frame.pCanvas := rfl
  unfold Scene.onSize
  rw [hcanvas]
  cases s.frame.pCanvas with
  | null => exact congrArg Except.ok (scene_twice s)
  | live c =>
    refine Ptr.use_map_bind fun c _ => ?_
    exact Ptr.use_map_bind fun v _ => (render_sees disk).congr (viewState_eq _)
  | dangling => rfl

theorem paintEvent_sees (disk : String → Bitmap) : Sees V.scene (Scene.paintEvent build disk) := by
  have hserved : Seen V.scene fun s => { s with frame.repaintDue := false } :=
    frame_seen (fun s => { s.frame with repaintDue := false }) fun s => by simp [scene, frame]
  intro s
  exact Ptr.use_map_bind fun c _ => (render_sees disk).congr (hserved s)

theorem setPicture_seen (hp : V.picture = true) (p : Picture) :
    Seen V.scene (Scene.setPicture p) := by
  refine frame_seen (fun s => (s.setPicture p).frame) fun s => ?_
  cases hf : V.feeds <;> simp [scene, frame, drawing_of_picture hp, Scene.setPicture, hp, hf]

theorem zoomBy_seen (hp : V.picture = true) (change : ℚ → ℚ) :
    Seen V.scene (Scene.zoomBy change) := by
  intro s
  rw [Scene.zoomBy, Scene.zoomBy, picture_scene hp]
  exact setPicture_seen hp _ s

theorem onRestorationButtonClick_seen (hp : V.picture = true) :
    Seen V.scene Scene.onRestorationButtonClick := by
  intro s
  rw [Scene.onRestorationButtonClick, Scene.onRestorationButtonClick, picture_scene hp]
  exact setPicture_seen hp _ s

theorem setMouseDown_seen (b : Bool) : Seen V.scene (Scene.setMouseDown b) := by
  intro s
  have hcanvas : (V.scene s).frame.pCanvas = V.canvas s.frame.pCanvas := rfl
  unfold Scene.setMouseDown
  rw [hcanvas]
  cases s.frame.pCanvas with
  | live c => exact scene_eq (by simp [scene, frame]) (app_twice s.app)
  | null | dangling => exact scene_twice s

theorem lastMousePos_seen (p : Point Int) :
    Seen V.scene fun s => { s with app.statics.lastMousePos := p } := by
  intro s
  refine scene_eq (frame_twice s.frame) (app_eq (pi_pi _) (host_host _) ?_ (heap_heap _)
    (log_append [] s.app.log))
  simp [scene, app, statics]

theorem onLeftMouse_seen (hp : V.picture = true) (p : Point Int) :
    Seen V.scene (Scene.onLeftMouse p) := by
  have hdrag : Seen V.scene fun s => { s with frame.isDragging := true } :=
    frame_seen (fun s => { s.frame with isDragging := true }) fun s => by simp [scene, frame]
  have hdragging (s : Scene) : (V.scene s).frame.isDragging = s.frame.isDragging := by
    simp [scene, frame, hp]
  have hrest : Seen V.scene fun s : Scene =>
      if !s.frame.isDragging then Scene.refresh { s with frame.isDragging := true } else s :=
    Seen.ite (fun s => by rw [hdragging]) (refresh_seen.comp hdrag) scene_twice
  exact hrest.comp (lastMousePos_seen p)

theorem onLeftMouseMove_seen (hp : V.picture = true) (p : Point Int) :
    Seen V.scene (Scene.onLeftMouseMove p) := by
  have hdragging (s : Scene) : (V.scene s).frame.isDragging = s.frame.isDragging := by
    simp [scene, frame, hp]
  have hlast (s : Scene) : (V.scene s).app.statics = s.app.statics := statics_of_picture hp _
  refine Seen.ite (fun s => by rw [hdragging]) (refresh_seen.comp fun s => ?_) scene_twice
  rw [hlast, picture_scene hp]
  exact (lastMousePos_seen p).congr (setPicture_seen hp _ s)

theorem mouseMoved_seen (hp : V.picture = true) (p : Point Int) :
    Seen V.scene (Scene.mouseMoved p) := by
  intro s
  have hcanvas : (V.scene s).frame.pCanvas = V.canvas s.frame.pCanvas := rfl
  unfold Scene.mouseMoved
  rw [hcanvas]
  cases s.frame.pCanvas with
  | live c =>
    have hdown : keep V.picture c.mouseDown false = c.mouseDown := by simp [hp]
    dsimp only [canvas_live]
    rw [hdown]
    split
    · exact onLeftMouseMove_seen hp p s
    · exact scene_twice s
  | null | dangling => exact scene_twice s

theorem mouseReleased_seen (p : Point Int) : Seen V.scene (Scene.mouseReleased p) := by
  have hrelease : Seen V.scene (Scene.onLeftMouseRelease p) :=
    frame_seen (fun s => { s.frame with isDragging := false }) fun s => by simp [scene, frame]
  exact hrelease.comp (setMouseDown_seen false)

theorem onMouseScroll_seen (hp : V.picture = true) (rotation : Int) :
    Seen V.scene (Scene.onMouseScroll build rotation) := by
  have hin := Seen.ite (c := fun _ => rotation > 0) (fun _ => Iff.rfl)
    (zoomBy_seen hp build.grown) scene_twice
  have hout := Seen.ite (c := fun _ => rotation < 0) (fun _ => Iff.rfl)
    (zoomBy_seen hp build.shrunk) scene_twice
  exact refresh_seen.comp (hout.comp hin)

theorem zoomKey_seen (hp : V.picture = true) (k : Key) :
    Seen V.scene (Scene.zoomKey build k) := by
  have hup := Seen.ite (c := fun _ => k = .up) (fun _ => Iff.rfl)
    (refresh_seen.comp (zoomBy_seen hp build.grown)) scene_twice
  have hdown := Seen.ite (c := fun _ => k = .down) (fun _ => Iff.rfl)
    (refresh_seen.comp (zoomBy_seen hp build.shrunk)) scene_twice
  exact hdown.comp hup

theorem checkNorthUp_sees (value : Bool) : Sees V.scene (Scene.checkNorthUp value) := by
  intro s
  have hnorth : (V.scene s).frame.pNorthUp = s.frame.pNorthUp := rfl
  unfold Scene.checkNorthUp
  rw [hnorth]
  cases hn : s.frame.pNorthUp with
  | live b =>
    refine congrArg Except.ok (scene_eq ?_ ?_)
    · cases hf : V.feeds <;> cases value <;> simp [scene, frame, app, pi, Scene.refresh, hf]
    · exact app_eq (by simp [scene, app, pi, Scene.refresh, App.note]) (host_host _)
        (statics_statics _) (heap_heap _) (log_append [_] _)
  | _ =>
    change Except.map _ (s.frame.pNorthUp.use _ >>= _) = Except.map _ (s.frame.pNorthUp.use _ >>= _)
    rw [hn]
    rfl

theorem saveConfig_seen : Seen V.app fun a => a.saveConfig.2 := by
  intro a
  have hpconfig : (V.app a).pi.pconfig = a.pi.pconfig := rfl
  dsimp only [App.saveConfig]
  rw [hpconfig]
  split
  · refine app_eq (pi_pi _) ?_ (statics_statics _) (heap_heap _) (log_append [_] a.log)
    simp [host, app, pi]
  · exact app_twice a

theorem loadConfig_seen : Seen V.app fun a => a.loadConfig.2 := by
  intro a
  have hpconfig : (V.app a).pi.pconfig = a.pi.pconfig := rfl
  dsimp only [App.loadConfig]
  rw [hpconfig]
  split
  · refine app_eq ?_ ?_ (statics_statics _) (heap_heap _) (log_append [] a.log)
    · simp [app, pi, host]
    · simp [app, host]
  · exact app_twice a

theorem onSonarFrameClose_seen : Seen V.app App.onSonarFrameClose :=
  saveConfig_seen.comp (pi_seen (fun p => { p with pSonarFrame := none }) fun p => by simp [pi])

theorem onClose_sees : Sees V.scene Scene.onClose := by
  intro s
  refine Ptr.use_map_bind fun tm _ => ?_
  refine Ptr.use_map_bind fun v _ => congrArg Except.ok (scene_eq ?_ ?_)
  · simp [scene, frame, Scene.saveGeometry, Scene.deleteTimer, Scene.note]
  · refine onSonarFrameClose_seen.congr (app_eq ?_ (host_host _) (statics_statics _)
      (heap_release _ _) (log_append [_, _, _] _))
    simp [scene, app, pi, Scene.saveGeometry, Scene.deleteTimer, Scene.note, App.note]

theorem insertTool_seen (icons : ToolIcons) : Seen V.app (App.insertTool icons) := by
  intro a
  refine app_eq ?_ ?_ (statics_statics _) (heap_heap _) (log_append [] a.log)
  · simp [app, pi, host, App.insertTool]
  · simp [app, host, App.insertTool]

theorem removePlugInTool_seen (id : Nat) : Seen V.app (App.removePlugInTool id) :=
  host_seen (fun h => { h with tools := h.tools.filter fun t => t.id ≠ id }) fun h => by simp [host]

theorem dialog_seen (r : Option (Bool × Bool)) : Seen V.app (App.showPreferencesDialog r) := by
  cases r with
  | none => exact app_twice
  | some r =>
    obtain ⟨icon, use⟩ := r
    have hicon : Seen V.app fun a => { a with pi.sonarShowIcon := icon } :=
      pi_seen (fun p => { p with sonarShowIcon := icon }) fun p => by simp [pi]
    have huse : Seen V.app fun a => { a with pi.sonarUseSonar := use } :=
      pi_seen (fun p => { p with sonarUseSonar := use }) fun p => by simp [pi]
    have hinsert : Seen V.app fun a => a.insertTool (preferencesIcons a.statics.svg) :=
      fun a => insertTool_seen (preferencesIcons a.statics.svg) a
    have hremove : Seen V.app fun a => a.removePlugInTool a.pi.leftclickToolId :=
      fun a => removePlugInTool_seen a.pi.leftclickToolId a
    have htool : Seen V.app fun a =>
        if icon = true then a.insertTool (preferencesIcons a.statics.svg)
        else a.removePlugInTool a.pi.leftclickToolId :=
      Seen.ite (fun _ => Iff.rfl) hinsert hremove
    exact saveConfig_seen.comp (huse.comp (Seen.ite (fun _ => Iff.rfl) (htool.comp hicon) app_twice))

theorem opened_seen (env : Env) (w : World) :
    V.scene (Scene.opened env (V.world w)) = V.scene (Scene.opened env w) := by
  have hok : env.dialogOk (V.world w).nextFrame = env.dialogOk w.nextFrame := rfl
  simp only [Scene.opened, Scene.construct, Scene.beginCreate, Scene.showFrame, Scene.note, App.new,
    App.note, hok]
  split
  · refine scene_eq ?_ (app_eq ?_ (host_host _) (statics_statics _) ?_
      (log_append [_, _, _, _, _] w.log))
    · cases hp : V.picture <;> simp [frame, world, app, heap, hp]
    · simp [world, app, pi]
    · cases hp : V.picture <;> simp [world, app, heap, hp]
  · refine scene_eq ?_ (app_eq ?_ (host_host _) (statics_statics _) ?_ (log_append [_, _, _] w.log))
    · cases hp : V.picture <;> simp [frame, world, app, heap, hp]
    · simp [world, app, pi]
    · cases hp : V.picture <;> simp [world, app, heap, hp]

theorem arrays_of_feeds (hf : V.feeds = true) (h : Host) : (V.host h).arrays = h.arrays := by
  simp [host, hf]

theorem deleteSonarTargets_sees (ha : a.pi.sonarTargets ≠ .dangling) :
    (V.app a).deleteSonarTargets.map V.app = a.deleteSonarTargets.map V.app := by
  have htargets : (V.app a).pi.sonarTargets = keep V.feeds a.pi.sonarTargets .null := rfl
  unfold App.deleteSonarTargets
  rw [htargets]
  cases ht : a.pi.sonarTargets with
  | dangling => exact absurd ht ha
  | null =>
    have hnull : keep V.feeds (Ptr.null : Ptr Nat) .null = .null := by cases V.feeds <;> rfl
    rw [hnull]
    exact congrArg Except.ok (app_twice a)
  | live h =>
    cases hf : V.feeds with
    | false =>
      refine congrArg Except.ok ((app_twice a).trans (app_eq ?_ ?_ rfl rfl ?_))
      · simp [pi, hf]
      · simp [host, hf]
      · exact (log_forgotten (V.without_feeds hf _ rfl) a.log).symm
    | true =>
      refine congrArg Except.ok (app_eq ?_ ?_ (statics_statics _) (heap_heap _)
        (log_append [_] a.log))
      · simp [app, pi, hf]
      · simp [app, host, hf]

theorem deleteSonarTargets_congr (ha : a.pi.sonarTargets ≠ .dangling)
    (hb : b.pi.sonarTargets ≠ .dangling) (h : V.app a = V.app b) :
    a.deleteSonarTargets.map V.app = b.deleteSonarTargets.map V.app := by
  rw [← deleteSonarTargets_sees ha, h, deleteSonarTargets_sees hb]

theorem getAISTargetArray_seen (answer : Bool) : Seen V.app (App.getAISTargetArray answer) := by
  intro a
  unfold App.getAISTargetArray
  cases hf : V.feeds with
  | false =>
    have hcall (array : Option Nat) : V.call (.getAISTargetArray array) = none :=
      V.without_feeds hf _ rfl
    split <;> refine app_eq ?_ ?_ (statics_statics _) (heap_heap _)
      ((log_forgotten (hcall _) _).trans ((log_append [] _).trans (log_forgotten (hcall _) _).symm))
    all_goals simp [app, pi, host, hf]
  | true =>
    have harrays : (V.app a).host.arrays = a.host.arrays := arrays_of_feeds hf a.host
    rw [harrays]
    split <;> refine app_eq ?_ ?_ (statics_statics _) (heap_heap _) (log_append [_] a.log)
    all_goals simp [app, pi, host, hf]

theorem getSonarTargets_sees (answer : Bool) (ha : a.pi.sonarTargets ≠ .dangling) :
    ((V.app a).getSonarTargets answer).map V.app = (a.getSonarTargets answer).map V.app :=
  Sees.bind_congr (Sees.ok (getAISTargetArray_seen answer)) (deleteSonarTargets_sees ha)

theorem destroy_sees (ha : a.pi.sonarTargets ≠ .dangling) :
    (V.app a).destroy.map V.app = a.destroy.map V.app := by
  refine Sees.bind_congr (Sees.ok fun b => ?_) (deleteSonarTargets_sees ha)
  refine app_eq ?_ ?_ (statics_statics _) (heap_heap _) (log_append [] b.log)
  · simp [app, pi]
  · simp [app, host]

theorem init_sees (env : Env) (answer : Bool) (ha : a.pi.sonarTargets ≠ .dangling) :
    (App.init env answer (V.app a)).map V.app = (App.init env answer a).map V.app := by
  let reset (p : SonarPi) : SonarPi :=
    { p with
      sonarFrameX := 0, sonarFrameY := 0, sonarFrameSx := 200, sonarFrameSy := 200
      pSonarFrame := none
      lat := .zero, lon := .zero, cog := .zero, sog := .zero, sats := 0
      pconfig := env.configObject }
  have hreset : Seen V.app fun a => { a with pi := reset a.pi } :=
    pi_seen reset fun p => by simp [reset, pi]
  have hload (a : App) : a.loadConfig.2.pi.sonarTargets = a.pi.sonarTargets := by
    unfold App.loadConfig
    split <;> rfl
  have hvalid : (V.app a).pi.sonarTargets ≠ .dangling := by
    change keep V.feeds a.pi.sonarTargets .null ≠ _
    cases V.feeds
    · simp
    · exact ha
  have hbind : Seen V.app fun a => { a with host.handlers := a.host.handlers + 1 } :=
    host_seen (fun h => { h with handlers := h.handlers + 1 }) fun h => by simp [host]
  have hicons : Seen V.app fun a : App =>
      if a.pi.sonarShowIcon = true then a.insertTool (initIcons a.statics.svg) else a :=
    Seen.ite (fun _ => Iff.rfl) (fun a => insertTool_seen (initIcons a.statics.svg) a) app_twice
  refine Sees.bind_congr (Sees.ok ((getAISTargetArray_seen answer).comp (hicons.comp hbind))) ?_
  refine deleteSonarTargets_congr ?_ ?_ (loadConfig_seen.comp hreset a)
  · rw [hload]
    exact hvalid
  · rw [hload]
    exact ha

end

end View

end SonarPlugin
