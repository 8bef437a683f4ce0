import SonarPlugin.Render
import SonarPlugin.Create

namespace SonarPlugin

open Library

def SonarFrame.misuse? (f : SonarFrame) : Member → Option Misuse
  | .timer => f.timer.misuse?
  | .canvas => f.pCanvas.misuse?
  | .viewState => f.pViewState.misuse?
  | .northUp => f.pNorthUp.misuse?
  | .imgData => f.imgData.misuse?

def SonarFrame.handles (f : SonarFrame) : Multiset Nat :=
  f.timer.handles + f.pViewState.handles + f.imgData.handles

def Call.isRoutine : Call → Bool
  | .refresh _ | .setColourScheme .. | .rescale .. => true
  | _ => false

structure Quiet (a b : App) : Prop where
  resizeDims : b.statics.resizeDims = a.statics.resizeDims
  log : ∃ calls, b.log = calls ++ a.log ∧ ∀ c ∈ calls, c.image? = none

/-- The static variables of `resize_img_data` hold the size of the first
image that was ever rescaled. -/
def App.Remembers (a : App) : Prop :=
  a.statics.resizeDims = (a.log.filterMap Call.image?).getLast?.map Bitmap.dims

theorem Quiet.remembers {a b : App} (h : Quiet a b) (ha : a.Remembers) : b.Remembers := by
  obtain ⟨calls, hlog, hcalls⟩ := h.log
  have hnil : calls.filterMap Call.image? = [] := List.filterMap_eq_nil_iff.mpr hcalls
  rw [App.Remembers, h.resizeDims, hlog, List.filterMap_append, hnil]
  exact ha

theorem Rendered.remembers {build : Build} {disk : String → Bitmap} {s t : Scene}
    (h : Rendered build disk s t) (hs : s.app.Remembers) : t.app.Remembers := by
  have himg : (s.rescaleCall build (s.nextBitmap disk)).image? = some (s.nextBitmap disk) := rfl
  rw [App.Remembers, h.resizeDims, h.log, List.filterMap_cons_some himg, Scene.dimsFor, hs]
  cases s.app.log.filterMap Call.image? with
  | nil => rfl
  | cons img imgs => simp [List.getLast?_cons]

/-- What every handler but `OnClose` leaves alone: the frame's identity, its
window, what its members point to, the host, and the plug-in's members up to
the North-Up flag. What the frame releases or allocates it also drops or holds. -/
structure Kept (s t : Scene) : Prop where
  this : t.frame.this = s.frame.this
  life : t.frame.life = s.frame.life
  members : ∀ m, m ≠ .imgData → t.frame.misuse? m = s.frame.misuse? m
  imgData : s.frame.imgData.isLive = true → t.frame.imgData.isLive = true
  owned : ∀ R, s.app.heap.Owns (R + s.frame.handles) → t.app.heap.Owns (R + t.frame.handles)
  pi : t.app.pi = { s.app.pi with sonarNorthUp := t.app.pi.sonarNorthUp }
  host : t.app.host = s.app.host
  log : ∃ calls, t.app.log = calls ++ s.app.log ∧ ∀ c ∈ calls, c.isRoutine = true
  remembers : s.app.Remembers → t.app.Remembers
  svg : t.app.statics.svg = s.app.statics.svg

namespace Kept

variable {s t u : Scene}

protected theorem refl (s : Scene) : Kept s s :=
  ⟨rfl, rfl, fun _ _ => rfl, id, fun _ => id, rfl, rfl, ⟨[], rfl, nofun⟩, id, rfl⟩

theorem trans (h : Kept s t) (h' : Kept t u) : Kept s u where
  this := h'.this.trans h.this
  life := h'.life.trans h.life
  members m hm := (h'.members m hm).trans (h.members m hm)
  imgData := h'.imgData ∘ h.imgData
  owned R hR := h'.owned R (h.owned R hR)
  pi := by rw [h'.pi, h.pi]
  host := h'.host.trans h.host
  log := prepended_trans h.log h'.log
  remembers := h'.remembers ∘ h.remembers
  svg := h'.svg.trans h.svg

theorem rendered {build : Build} {disk : String → Bitmap} (hr : Rendered build disk s t) :
    Kept s t where
  this := by rw [hr.frame]
  life := by rw [hr.frame]
  members m hm := by
    obtain ⟨tm, hs, ht⟩ := hr.timer
    cases m with
    | timer => simp [SonarFrame.misuse?, hs, ht]
    | imgData => exact absurd rfl hm
    | canvas | viewState | northUp =>
      rw [hr.frame]
      rfl
  imgData _ := by
    obtain ⟨img, himg⟩ := hr.imgData
    rw [himg, Ptr.isLive_live]
  owned R hR := by
    obtain ⟨tm, hs, ht⟩ := hr.timer
    obtain ⟨img, himg⟩ := hr.imgData
    have hrel : (releaseImg s.app.heap s.frame.imgData).Owns
        (R + s.frame.timer.handles + s.frame.pViewState.handles) := by
      simp only [SonarFrame.handles, ← add_assoc] at hR
      cases hi : s.frame.imgData with
      | live img =>
        rw [hi] at hR
        exact hR.release
      | null | dangling =>
        rw [hi] at hR
        exact hR.congr (add_zero _)
    have hown := hrel.alloc
    rw [← hr.heap] at hown
    refine hown.congr ?_
    rw [SonarFrame.handles, himg, ht, hs, hr.frame]
    simp only [Ptr.handles_live, add_assoc]
  pi := by rw [hr.app]
  host := by rw [hr.app]
  log := ⟨[s.rescaleCall build (s.nextBitmap disk)], hr.log,
    by simp [Call.isRoutine, Scene.rescaleCall]⟩
  remembers := hr.remembers
  svg := hr.svg

theorem of_data {f : SonarFrame} (hthis : f.this = s.frame.this) (hlife : f.life = s.frame.life)
    (hmem : ∀ m, f.misuse? m = s.frame.misuse? m) (hown : f.handles = s.frame.handles) :
    Kept s ⟨f, s.app⟩ where
  this := hthis
  life := hlife
  members m _ := hmem m
  imgData h := by
    rw [Ptr.isLive_iff_misuse?] at h ⊢
    exact (hmem .imgData).trans h
  owned R hR := by rwa [hown]
  pi := rfl
  host := rfl
  log := ⟨[], rfl, nofun⟩
  remembers := id
  svg := rfl

end Kept

/-- All that input can change: the picture and what belongs to dragging. It
makes no calls but `Refresh`. -/
structure Steered (s t : Scene) : Prop where
  frame : t.frame = { s.frame with
    pCanvas := t.frame.pCanvas, isDragging := t.frame.isDragging
    picture := t.frame.picture, repaintDue := t.frame.repaintDue }
  canvas : t.frame.pCanvas.misuse? = s.frame.pCanvas.misuse?
  app : t.app = { s.app with
    statics.lastMousePos := t.app.statics.lastMousePos, log := t.app.log }
  log : ∃ calls, t.app.log = calls ++ s.app.log ∧ ∀ c ∈ calls, c = .refresh s.frame.this

namespace Steered

variable {s t u : Scene}

protected theorem refl (s : Scene) : Steered s s := ⟨rfl, rfl, rfl, [], rfl, by simp⟩

theorem trans (h : Steered s t) (h' : Steered t u) : Steered s u where
  frame := by rw [h'.frame, h.frame]
  canvas := h'.canvas.trans h.canvas
  app := by rw [h'.app, h.app]
  log := by
    have hthis : t.frame.this = s.frame.this := by rw [h.frame]
    exact prepended_trans h.log (hthis ▸ h'.log)

theorem refresh (s : Scene) : Steered s s.refresh :=
  ⟨rfl, rfl, rfl, [.refresh s.frame.this], rfl, by simp⟩

theorem setPicture (s : Scene) (p : Picture) : Steered s (s.setPicture p) :=
  ⟨rfl, rfl, rfl, [], rfl, by simp⟩

theorem drag (s : Scene) (b : Bool) (p : Point Int) :
    Steered s { s with frame.isDragging := b, app.statics.lastMousePos := p } :=
  ⟨rfl, rfl, rfl, [], rfl, by simp⟩

theorem setMouseDown (s : Scene) (b : Bool) : Steered s (s.setMouseDown b) := by
  unfold Scene.setMouseDown
  split
  next c hc => exact ⟨rfl, by simp [hc], rfl, [], rfl, by simp⟩
  next => exact .refl s

theorem onLeftMouse (s : Scene) (p : Point Int) : Steered s (s.onLeftMouse p) := by
  dsimp only [Scene.onLeftMouse]
  split
  · exact (drag s true p).trans (refresh _)
  · exact drag s s.frame.isDragging p

theorem onLeftMouseMove (s : Scene) (p : Point Int) : Steered s (s.onLeftMouseMove p) := by
  dsimp only [Scene.onLeftMouseMove]
  split
  · refine trans ?_ (refresh _)
    exact (setPicture s _).trans (drag _ s.frame.isDragging p)
  · exact .refl s

theorem zoomKey (build : Build) (s : Scene) (k : Key) : Steered s (s.zoomKey build k) := by
  have hif (p : Prop) [Decidable p] (u : Scene) (change : ℚ → ℚ) :
      Steered u (if p then (u.zoomBy change).refresh else u) := by
    split
    · exact (setPicture u _).trans (refresh _)
    · exact .refl u
  exact (hif _ s _).trans (hif _ _ _)

theorem onMouseScroll (build : Build) (s : Scene) (rotation : Int) :
    Steered s (s.onMouseScroll build rotation) := by
  have hif (p : Prop) [Decidable p] (u : Scene) (change : ℚ → ℚ) :
      Steered u (if p then u.zoomBy change else u) := by
    split
    · exact setPicture u _
    · exact .refl u
  exact ((hif _ s _).trans (hif _ _ _)).trans (refresh _)

theorem quiet (h : Steered s t) : Quiet s.app t.app := by
  obtain ⟨calls, hlog, hcalls⟩ := h.log
  refine ⟨by rw [h.app], calls, hlog, fun c hc => ?_⟩
  rw [hcalls c hc]
  rfl

theorem kept (h : Steered s t) : Kept s t where
  this := by rw [h.frame]
  life := by rw [h.frame]
  members m _ := by
    cases m with
    | canvas => exact h.canvas
    | timer | viewState | northUp | imgData =>
      rw [h.frame]
      rfl
  imgData := by
    rw [h.frame]
    exact id
  owned R hR := by
    rw [h.app, h.frame]
    exact hR
  pi := by rw [h.app]
  host := by rw [h.app]
  log := by
    obtain ⟨calls, hlog, hcalls⟩ := h.log
    refine ⟨calls, hlog, fun c hc => ?_⟩
    rw [hcalls c hc]
    rfl
  remembers := h.quiet.remembers
  svg := by rw [h.app]

end Steered

theorem handle_steered {build : Build} {e : FrameEvent} {s t : Scene} (he : e.isInput = true)
    (h : e.handle build s = .ok t) : Steered s t := by
  cases e with
  | move | size | paint | northUp | colours | close => cases he
  | timer =>
    cases h
    exact .refresh s
  | restoration =>
    cases h
    exact .setPicture s _
  | mouseDown p =>
    cases h
    exact (Steered.setMouseDown s true).trans (.onLeftMouse _ p)
  | mouseMoved p =>
    cases h
    unfold Scene.mouseMoved
    split
    · split
      · exact .onLeftMouseMove s p
      · exact .refl s
    · exact .refl s
  | mouseReleased p =>
    cases h
    refine (Steered.setMouseDown s false).trans ?_
    exact .drag _ false (s.setMouseDown false).app.statics.lastMousePos
  | mouseScroll rotation =>
    cases h
    exact .onMouseScroll build s rotation
  | key k ctrl =>
    cases h
    exact .zoomKey build s k

theorem onMove_ok {s t : Scene} {p : Point Int32} (h : s.onMove p = .ok t) :
    ∃ v, s.frame.pViewState = .live v ∧
      t = { s with frame.pViewState := .live ⟨v.handle, v.value.setPos p⟩ } := by
  obtain ⟨v, hv, h⟩ := bind_eq_ok.mp h
  cases h
  exact ⟨v, Ptr.use_eq_ok.mp hv, rfl⟩

theorem onSize_ok {build : Build} {client window : Size Int32} {disk : String → Bitmap}
    {s t : Scene} (h : s.onSize build client window disk = .ok t) :
    (s.frame.pCanvas = .null ∧ t = s) ∨
      ∃ v, s.frame.pViewState = .live v ∧ s.frame.pCanvas.isLive = true ∧
        Rendered build disk
          { s with
            frame.pViewState := .live ⟨v.handle, v.value.record build.platform client window⟩ }
          t := by
  unfold Scene.onSize at h
  split at h
  next hnull =>
    cases h
    exact .inl ⟨hnull, rfl⟩
  next =>
    obtain ⟨c, hc, h⟩ := bind_eq_ok.mp h
    obtain ⟨v, hv, h⟩ := bind_eq_ok.mp h
    have hlive : s.frame.pCanvas.isLive = true :=
      Ptr.isLive_iff.mpr ⟨c, Ptr.use_eq_ok.mp hc⟩
    exact .inr ⟨v, Ptr.use_eq_ok.mp hv, hlive, render_spec h⟩

theorem paintEvent_ok {build : Build} {disk : String → Bitmap} {s t : Scene}
    (h : s.paintEvent build disk = .ok t) :
    s.frame.pCanvas.isLive = true ∧ Rendered build disk { s with frame.repaintDue := false } t := by
  obtain ⟨c, hc, h⟩ := bind_eq_ok.mp h
  exact ⟨Ptr.isLive_iff.mpr ⟨c, Ptr.use_eq_ok.mp hc⟩, render_spec h⟩

theorem checkNorthUp_ok {value : Bool} {s t : Scene} (h : s.checkNorthUp value = .ok t) :
    s.frame.pNorthUp.isLive = true ∧
      ∃ ebl, t = Scene.refresh
        { s with
          frame.pNorthUp := .live value, frame.ebl := ebl, app.pi.sonarNorthUp := value } := by
  unfold Scene.checkNorthUp at h
  split at h
  next b hb =>
    cases h
    exact ⟨by rw [hb]; rfl, _, rfl⟩
  next hdead =>
    obtain ⟨b, hb, -⟩ := bind_eq_ok.mp h
    exact absurd (Ptr.use_eq_ok.mp hb) (hdead b)

structure Closed (s t : Scene) : Prop where
  timer : s.frame.timer.isLive = true
  owned : ∀ R, s.app.heap.Owns (R + s.frame.handles) → t.app.heap.Owns (R + t.frame.handles)
  frame : t.frame = { s.frame with timer := .dangling, life := .closed }
  pi : ∃ v, s.frame.pViewState = .live v ∧
    t.app.pi = { s.app.pi with
      sonarFrameX := v.value.pos.x, sonarFrameY := v.value.pos.y
      sonarFrameSx := v.value.size.width, sonarFrameSy := v.value.size.height
      pSonarFrame := none }
  host : t.app.host = { s.app.host with
    config := if s.app.pi.pconfig then
      writeSettings t.app.pi.toSettings (s.app.host.config.setPath configPath)
      else s.app.host.config }
  statics : t.app.statics = s.app.statics
  log : t.app.log = App.saves t.app.pi ++
    [.requestRefresh, .deleteTimer s.frame.this, .onClose s.frame.this] ++ s.app.log

theorem onClose_ok {s t : Scene} (h : s.onClose = .ok t) : Closed s t := by
  unfold Scene.onClose at h
  obtain ⟨tm, htm, h⟩ := bind_eq_ok.mp h
  obtain ⟨v, hv, h⟩ := bind_eq_ok.mp h
  cases h
  have htm := Ptr.use_eq_ok.mp htm
  have hv := Ptr.use_eq_ok.mp hv
  have hown (R : Multiset Nat) (hR : s.app.heap.Owns (R + s.frame.handles)) :
      (s.app.heap.release tm.handle).Owns
        (R + (0 + s.frame.pViewState.handles + s.frame.imgData.handles)) := by
    apply Ledger.Owns.release
    refine hR.congr ?_
    have htm' : s.frame.timer = .live tm := htm
    rw [SonarFrame.handles, htm', Ptr.handles_live]
    abel
  simp only [App.onSonarFrameClose, App.saveConfig_eq]
  exact
    { timer := Ptr.isLive_iff.mpr ⟨tm, htm⟩
      owned := hown
      frame := rfl
      pi := ⟨v, hv, rfl⟩
      host := rfl
      statics := rfl
      log := by
        rw [List.append_assoc]
        rfl }

theorem Closed.calls {s t : Scene} (h : Closed s t) :
    ∃ calls, t.app.log = calls ++ s.app.log ∧
      ∀ c ∈ calls, c = .onClose s.frame.this ∨ c = .deleteTimer s.frame.this ∨
        c = .requestRefresh ∨ c = .saveConfig t.app.pi.toSettings := by
  refine ⟨_, h.log, fun c hc => ?_⟩
  obtain hc | hc := List.mem_append.mp hc
  · exact .inr (.inr (.inr (App.eq_of_mem_saves hc)))
  · simp only [List.mem_cons, List.not_mem_nil, or_false] at hc
    tauto

theorem Closed.quiet {s t : Scene} (h : Closed s t) : Quiet s.app t.app := by
  obtain ⟨calls, hlog, hcalls⟩ := h.calls
  refine ⟨by rw [h.statics], calls, hlog, fun c hc => ?_⟩
  obtain rfl | rfl | rfl | rfl := hcalls c hc <;> rfl

theorem onClose_total {s : Scene} (ht : s.frame.timer.isLive = true)
    (hv : s.frame.pViewState.isLive = true) : ∃ t, s.onClose = .ok t := by
  obtain ⟨tm, htm⟩ := Ptr.isLive_iff.mp ht
  obtain ⟨v, hv⟩ := Ptr.isLive_iff.mp hv
  simp [Scene.onClose, Scene.note, Scene.deleteTimer, htm, hv, bind, Except.bind, pure, Except.pure]

theorem onClose_fault {s : Scene} {x : Misuse} (hx : s.frame.timer.misuse? = some x) :
    s.onClose = .error (.member s.frame.this .onClose .timer x) := by
  have huse : s.frame.timer.use (s.fault .onClose .timer) =
      .error (.member s.frame.this .onClose .timer x) := Ptr.use_eq_error.mpr ⟨x, hx, rfl⟩
  change s.frame.timer.use (s.fault .onClose .timer) >>= _ = _
  rw [huse]
  rfl

theorem handle_kept {build : Build} {e : FrameEvent} {s t : Scene}
    (h : e.handle build s = .ok t) (hclose : e ≠ .close)
    (hcolours : ∀ cs dilg1, e ≠ .colours cs dilg1) : Kept s t := by
  cases e with
  | move p =>
    obtain ⟨v, hv, rfl⟩ := onMove_ok h
    refine Kept.of_data rfl rfl (fun m => ?_) (by simp [SonarFrame.handles, hv])
    cases m <;> simp [SonarFrame.misuse?, hv]
  | size client window disk =>
    obtain ⟨-, rfl⟩ | ⟨v, hv, -, hr⟩ := onSize_ok h
    · exact .refl _
    · refine Kept.trans ?_ (Kept.rendered hr)
      refine Kept.of_data rfl rfl (fun m => ?_) (by simp [SonarFrame.handles, hv])
      cases m <;> simp [SonarFrame.misuse?, hv]
  | paint disk =>
    refine Kept.trans ?_ (Kept.rendered (paintEvent_ok h).2)
    exact Kept.of_data rfl rfl (fun m => by cases m <;> rfl) rfl
  | northUp value =>
    obtain ⟨hlive, ebl, rfl⟩ := checkNorthUp_ok h
    have hn := Ptr.isLive_iff_misuse?.mp hlive
    refine Kept.trans ?_ (Steered.refresh _).kept
    refine ⟨rfl, rfl, fun m _ => ?_, id, fun _ => id, rfl, rfl, ⟨[], rfl, nofun⟩, id, rfl⟩
    cases m <;> simp [SonarFrame.misuse?, hn]
  | colours cs dilg1 => exact absurd rfl (hcolours cs dilg1)
  | timer | restoration | mouseDown | mouseMoved | mouseReleased | mouseScroll | key =>
    exact (handle_steered rfl h).kept
  | close => exact absurd rfl hclose

end SonarPlugin
