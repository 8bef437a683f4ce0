import SonarPlugin.App
import SonarPlugin.ViewState

namespace SonarPlugin

open Library

structure Timer where
  milliseconds : Int
  running : Bool
deriving DecidableEq, Repr

namespace Timer

/-- `wxTimer::Start`, where -1 keeps the interval. -/
def start (ms : Int) (t : Timer) : Timer :=
  ⟨if ms = -1 then t.milliseconds else ms, true⟩

def stop (t : Timer) : Timer := { t with running := false }

end Timer

def restart : Int := -1

structure Canvas where
  mouseDown : Bool
deriving DecidableEq, Repr

/-- The window of a frame: not created, created, or with `Destroy` scheduled. -/
inductive Life
  | raw
  | created
  | closed
deriving DecidableEq, Repr

/-- The members that decide what `render` draws: `img_position`,
`img_data_size` and `m_BgColour`. -/
structure Picture where
  imgPosition : Point Int
  imgDataSize : ℚ
  bgColour : Colour
deriving DecidableEq

/-- A `SonarFrame`. On the window's side, `drawn` is the picture of the last
render and `repaintDue` says that a repaint has been requested since the picture
last changed and is not yet served. -/
structure SonarFrame where
  this : FrameId
  life : Life
  timer : Ptr (Owned Timer)
  pCanvas : Ptr Canvas
  pNorthUp : Ptr Bool
  pViewState : Ptr (Owned ViewState)
  imgData : Ptr (Owned Bitmap)
  ebl : Double
  isDragging : Bool
  picture : Picture
  drawn : Option Picture
  repaintDue : Bool
deriving DecidableEq

/-- A frame handler runs on its frame and on all that lies outside the frames. -/
structure Scene where
  frame : SonarFrame
  app : App

namespace Scene

def note (c : Call) (s : Scene) : Scene := { s with app := s.app.note c }

@[simp] theorem note_frame (c : Call) (s : Scene) : (s.note c).frame = s.frame := rfl

def fault (s : Scene) (site : Site) (member : Member) (misuse : Misuse) : Fault :=
  .member s.frame.this site member misuse

def refresh (s : Scene) : Scene :=
  { frame := { s.frame with repaintDue := true }, app := s.app.note (.refresh s.frame.this) }

def setPicture (p : Picture) (s : Scene) : Scene :=
  { s with
    frame.picture := p
    frame.repaintDue := s.frame.repaintDue && decide (p = s.frame.picture) }

def onRestorationButtonClick (s : Scene) : Scene :=
  s.setPicture { s.frame.picture with imgPosition := ⟨0, 0⟩, imgDataSize := 1 }

def setColourScheme (cs : ColorScheme) (s : Scene) : Scene :=
  ((s.note (.setColourScheme s.frame.this cs)).setPicture
    { s.frame.picture with bgColour := s.app.host.dilg1 }).refresh

def onNorthUp (s : Scene) : Except Fault Scene := do
  let value ← s.frame.pNorthUp.use (s.fault .onNorthUp .northUp)
  let ebl := if value then s.frame.ebl.add s.app.pi.cog else s.frame.ebl.sub s.app.pi.cog
  return Scene.refresh { s with app.pi.sonarNorthUp := value, frame.ebl := ebl }

def onTimer (s : Scene) : Scene := s.refresh

def onLeftMouseRelease (_curpos : Point Int) (s : Scene) : Scene :=
  { s with frame.isDragging := false }

def onLeftMouse (curpos : Point Int) (s : Scene) : Scene :=
  let s := { s with app.statics.lastMousePos := curpos }
  if !s.frame.isDragging then Scene.refresh { s with frame.isDragging := true } else s

def onLeftMouseMove (curpos : Point Int) (s : Scene) : Scene :=
  if s.frame.isDragging then
    let deltaX := curpos.x - s.app.statics.lastMousePos.x
    let deltaY := curpos.y - s.app.statics.lastMousePos.y
    let p := s.frame.picture.imgPosition
    let s := s.setPicture { s.frame.picture with imgPosition := ⟨p.x + deltaX, p.y + deltaY⟩ }
    Scene.refresh { s with app.statics.lastMousePos := curpos }
  else s

def onMove (p : Point Int32) (s : Scene) : Except Fault Scene := do
  let v ← s.frame.pViewState.use (s.fault .onMove .viewState)
  return { s with frame.pViewState := .live ⟨v.handle, v.value.setPos p⟩ }

def zoomBy (change : ℚ → ℚ) (s : Scene) : Scene :=
  s.setPicture { s.frame.picture with imgDataSize := change s.frame.picture.imgDataSize }

def onMouseScroll (build : Build) (rotation : Int) (s : Scene) : Scene :=
  let s := if rotation > 0 then s.zoomBy build.grown else s
  let s := if rotation < 0 then s.zoomBy build.shrunk else s
  s.refresh

def nextImage (imgNum : Nat) : Nat × String :=
  if imgNum = 1 then (2, "test1.png")
  else if imgNum = 2 then (3, "test2.png")
  else if imgNum = 3 then (1, "test3.png")
  else (imgNum, "")

def deleteImgData (s : Scene) : Except Fault Scene :=
  match s.frame.imgData with
  | .null => .ok s
  | .live img => .ok { s with frame.imgData := .dangling, app.heap := s.app.heap.release img.handle }
  | .dangling => .error (s.fault .render .imgData .dangling)

def renderRange (s : Scene) : Scene := { s with frame.drawn := some s.frame.picture }

/-- The part of `render` from the choice of the file on. -/
def loadAndDraw (build : Build) (disk : String → Bitmap) (s : Scene) : Scene :=
  let next := nextImage s.app.statics.imgNum
  let (img, app) := { s.app with statics.imgNum := next.1 }.new (disk next.2)
  let (resized, app) := app.resizeImgData build img.value s.frame.picture.imgDataSize
  renderRange { frame := { s.frame with imgData := .live ⟨img.handle, resized⟩ }, app }

def render (build : Build) (disk : String → Bitmap) (s : Scene) : Except Fault Scene := do
  let timer ← s.frame.timer.use (s.fault .render .timer)
  let s := { s with frame.timer := .live ⟨timer.handle, timer.value.start restart⟩ }
  let _canvas ← s.frame.pCanvas.use (s.fault .render .canvas)
  let s ← s.deleteImgData
  return s.loadAndDraw build disk

def onSize (build : Build) (client window : Size Int32) (disk : String → Bitmap) (s : Scene) :
    Except Fault Scene :=
  match s.frame.pCanvas with
  | .null => .ok s
  | canvas => do
    let _canvas ← canvas.use (s.fault .onSize .canvas)
    let v ← s.frame.pViewState.use (s.fault .onSize .viewState)
    render build disk
      { s with frame.pViewState := .live ⟨v.handle, v.value.record build.platform client window⟩ }

/-- The paint event serves the requested repaint. -/
def paintEvent (build : Build) (disk : String → Bitmap) (s : Scene) : Except Fault Scene := do
  let _canvas ← s.frame.pCanvas.use (s.fault .paintEvent .canvas)
  render build disk { s with frame.repaintDue := false }

def deleteTimer (timer : Owned Timer) (s : Scene) : Scene :=
  Scene.note (.deleteTimer s.frame.this)
    { s with frame.timer := .dangling, app.heap := s.app.heap.release timer.handle }

def saveGeometry (v : ViewState) (s : Scene) : Scene :=
  { s with
    app.pi.sonarFrameX := v.getPos.x
    app.pi.sonarFrameY := v.getPos.y
    app.pi.sonarFrameSx := v.getSize.width
    app.pi.sonarFrameSy := v.getSize.height }

def onClose (s : Scene) : Except Fault Scene := do
  let s := s.note (.onClose s.frame.this)
  let timer ← s.frame.timer.use (s.fault .onClose .timer)
  let s := { s with frame.timer := .live ⟨timer.handle, timer.value.stop⟩ }
  let s := s.deleteTimer timer
  let v ← s.frame.pViewState.use (s.fault .onClose .viewState)
  let s := (s.saveGeometry v.value).note .requestRefresh
  return { frame := { s.frame with life := .closed }, app := s.app.onSonarFrameClose }

def showFrame (s : Scene) : Scene :=
  Scene.note (.showFrame s.frame.this) { s with frame.repaintDue := true }

end Scene

end SonarPlugin
