import SonarPlugin.Frame

namespace SonarPlugin

open Library

namespace Scene

def setMouseDown (b : Bool) (s : Scene) : Scene :=
  match s.frame.pCanvas with
  | .live c => { s with frame.pCanvas := .live { c with mouseDown := b } }
  | _ => s

theorem setMouseDown_eq (b : Bool) (s : Scene) :
    ∃ c, s.setMouseDown b = { s with frame.pCanvas := c } := by
  unfold setMouseDown
  split
  · exact ⟨_, rfl⟩
  · exact ⟨s.frame.pCanvas, rfl⟩

def mouseMoved (p : Point Int) (s : Scene) : Scene :=
  match s.frame.pCanvas with
  | .live c => if c.mouseDown then s.onLeftMouseMove p else s
  | _ => s

def mouseDown (p : Point Int) (s : Scene) : Scene := (s.setMouseDown true).onLeftMouse p

def mouseReleased (p : Point Int) (s : Scene) : Scene :=
  (s.setMouseDown false).onLeftMouseRelease p

def mouseScroll (build : Build) (rotation : Int) (s : Scene) : Scene :=
  s.onMouseScroll build rotation

/-- `Canvas::OnKeyDown` after its test for Ctrl+1. -/
def zoomKey (build : Build) (k : Key) (s : Scene) : Scene :=
  let s := if k = .up then (s.zoomBy build.grown).refresh else s
  if k = .down then (s.zoomBy build.shrunk).refresh else s

/-- What the host does before it calls `SetColourScheme`, and the call. -/
def changeColours (cs : ColorScheme) (dilg1 : Colour) (s : Scene) : Scene :=
  setColourScheme cs { s with app.host.dilg1 := dilg1 }

/-- The check-box changes its own value before its event is handled. -/
def checkNorthUp (value : Bool) (s : Scene) : Except Fault Scene :=
  match s.frame.pNorthUp with
  | .live _ => onNorthUp { s with frame.pNorthUp := .live value }
  | _ => s.onNorthUp

end Scene

/-- The events a frame and its canvas receive. A render reads the file it
loads from `disk`. -/
inductive FrameEvent
  | move (p : Point Int32)
  | size (client window : Size Int32) (disk : String → Bitmap)
  | paint (disk : String → Bitmap)
  | timer
  | northUp (value : Bool)
  | restoration
  | colours (cs : ColorScheme) (dilg1 : Colour)
  | mouseDown (p : Point Int)
  | mouseMoved (p : Point Int)
  | mouseReleased (p : Point Int)
  | mouseScroll (rotation : Int)
  | key (k : Key) (ctrl : Bool)
  | close

namespace FrameEvent

/-- The handler of each event. The toggle on Ctrl+1 is not the frame's own
business and is left to the plug-in. -/
def handle (build : Build) : FrameEvent → Scene → Except Fault Scene
  | .move p, s => s.onMove p
  | .size client window disk, s => s.onSize build client window disk
  | .paint disk, s => s.paintEvent build disk
  | .timer, s => .ok s.onTimer
  | .northUp value, s => s.checkNorthUp value
  | .restoration, s => .ok s.onRestorationButtonClick
  | .colours cs dilg1, s => .ok (s.changeColours cs dilg1)
  | .mouseDown p, s => .ok (s.mouseDown p)
  | .mouseMoved p, s => .ok (s.mouseMoved p)
  | .mouseReleased p, s => .ok (s.mouseReleased p)
  | .mouseScroll rotation, s => .ok (s.mouseScroll build rotation)
  | .key k _, s => .ok (s.zoomKey build k)
  | .close, s => s.onClose

def isInput : FrameEvent → Bool
  | .timer | .restoration | .mouseDown _ | .mouseMoved _ | .mouseReleased _ | .mouseScroll _
  | .key .. => true
  | _ => false

def isToggle : FrameEvent → Bool
  | .key k ctrl => decide (k = .one) && ctrl
  | _ => false

end FrameEvent

end SonarPlugin
