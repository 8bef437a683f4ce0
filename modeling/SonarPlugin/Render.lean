import SonarPlugin.FrameEvents
import SonarPlugin.Library.System

namespace SonarPlugin

open Library

def Scene.nextBitmap (disk : String → Bitmap) (s : Scene) : Bitmap :=
  disk (Scene.nextImage s.app.statics.imgNum).2

/-- The width and height `resize_img_data` works with. -/
def Scene.dimsFor (img : Bitmap) (s : Scene) : Int × Int :=
  s.app.statics.resizeDims.getD img.dims

/-- The call of `Rescale` that a render of `img` makes in scene `s`. -/
def Scene.rescaleCall (build : Build) (img : Bitmap) (s : Scene) : Call :=
  .rescale img s.frame.picture.imgDataSize
    (build.scaled (s.dimsFor img).1 s.frame.picture.imgDataSize)
    (build.scaled (s.dimsFor img).2 s.frame.picture.imgDataSize)

def Scene.rescaled (build : Build) (img : Bitmap) (s : Scene) : Bitmap :=
  img.rescale (build.scaled (s.dimsFor img).1 s.frame.picture.imgDataSize)
    (build.scaled (s.dimsFor img).2 s.frame.picture.imgDataSize)

theorem Scene.loadAndDraw_eq (build : Build) (disk : String → Bitmap) (s : Scene) :
    s.loadAndDraw build disk =
      ⟨{ s.frame with
          imgData := .live ⟨s.app.heap.next, s.rescaled build (s.nextBitmap disk)⟩
          drawn := some s.frame.picture },
        { s.app with
          statics.imgNum := (nextImage s.app.statics.imgNum).1
          statics.resizeDims := some (s.dimsFor (s.nextBitmap disk))
          heap := s.app.heap.alloc
          log := s.rescaleCall build (s.nextBitmap disk) :: s.app.log }⟩ := rfl

def releaseImg (L : Ledger) : Ptr (Owned Bitmap) → Ledger
  | .live img => L.release img.handle
  | _ => L

structure Rendered (build : Build) (disk : String → Bitmap) (s t : Scene) : Prop where
  timer : ∃ tm, s.frame.timer = .live tm ∧
    t.frame.timer = .live ⟨tm.handle, tm.value.start restart⟩
  canvas : s.frame.pCanvas.isLive = true
  imgData : ∃ img, t.frame.imgData =
    .live ⟨(releaseImg s.app.heap s.frame.imgData).next, img⟩
  frame : t.frame = { s.frame with
    timer := t.frame.timer, imgData := t.frame.imgData, drawn := some s.frame.picture }
  heap : t.app.heap = (releaseImg s.app.heap s.frame.imgData).alloc
  resizeDims : t.app.statics.resizeDims = some (s.dimsFor (s.nextBitmap disk))
  lastMousePos : t.app.statics.lastMousePos = s.app.statics.lastMousePos
  svg : t.app.statics.svg = s.app.statics.svg
  log : t.app.log = s.rescaleCall build (s.nextBitmap disk) :: s.app.log
  app : t.app = { s.app with statics := t.app.statics, heap := t.app.heap, log := t.app.log }

theorem deleteImgData_ok {s t : Scene} (h : s.deleteImgData = .ok t) :
    ∃ p, t = ⟨{ s.frame with imgData := p },
      { s.app with heap := releaseImg s.app.heap s.frame.imgData }⟩ := by
  unfold Scene.deleteImgData at h
  cases hi : s.frame.imgData with
  | null =>
    obtain rfl : s = t := by simpa [hi] using h
    exact ⟨.null, by simp [releaseImg, ← hi]⟩
  | live img =>
    rw [hi] at h
    cases h
    exact ⟨.dangling, rfl⟩
  | dangling => simp [hi] at h

theorem render_spec {build : Build} {disk : String → Bitmap} {s t : Scene}
    (h : s.render build disk = .ok t) : Rendered build disk s t := by
  unfold Scene.render at h
  obtain ⟨tm, htm, h⟩ := bind_eq_ok.mp h
  obtain ⟨c, hc, h⟩ := bind_eq_ok.mp h
  obtain ⟨u, hu, h⟩ := bind_eq_ok.mp h
  obtain ⟨p, rfl⟩ := deleteImgData_ok hu
  cases h
  exact
    { timer := ⟨tm, Ptr.use_eq_ok.mp htm, rfl⟩
      canvas := Ptr.isLive_iff.mpr ⟨c, Ptr.use_eq_ok.mp hc⟩
      imgData := ⟨_, rfl⟩
      frame := rfl
      heap := rfl
      resizeDims := rfl
      lastMousePos := rfl
      svg := rfl
      log := rfl
      app := rfl }

theorem render_total (build : Build) (disk : String → Bitmap) {s : Scene}
    (ht : s.frame.timer.isLive = true) (hc : s.frame.pCanvas.isLive = true)
    (hi : s.frame.imgData.isLive = true) :
    ∃ t, s.render build disk = .ok t := by
  obtain ⟨tm, htm⟩ := Ptr.isLive_iff.mp ht
  obtain ⟨c, hc⟩ := Ptr.isLive_iff.mp hc
  obtain ⟨img, himg⟩ := Ptr.isLive_iff.mp hi
  refine ⟨Scene.loadAndDraw build disk
    ⟨{ s.frame with
        timer := .live ⟨tm.handle, tm.value.start restart⟩, imgData := .dangling },
      { s.app with heap := s.app.heap.release img.handle }⟩, ?_⟩
  simp only [Scene.render, htm, hc, Ptr.use_live, Scene.deleteImgData, himg]
  rfl

theorem render_fault {build : Build} {disk : String → Bitmap} {s : Scene} {x : Misuse}
    (hx : s.frame.timer.misuse? = some x) :
    s.render build disk = .error (.member s.frame.this .render .timer x) := by
  have huse : s.frame.timer.use (s.fault .render .timer) =
      .error (.member s.frame.this .render .timer x) := Ptr.use_eq_error.mpr ⟨x, hx, rfl⟩
  rw [Scene.render, huse]
  rfl

end SonarPlugin
