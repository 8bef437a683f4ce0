import SonarPlugin.Types

namespace SonarPlugin

structure ViewState where
  pos : Point Int32
  size : Size Int32
deriving DecidableEq, Repr

namespace ViewState

def getWindowSize (v : ViewState) : Platform → Size Int32
  | .win32 => defaultSize
  | .other => v.size

def getCanvasSize (v : ViewState) : Platform → Size Int32
  | .win32 => v.size
  | .other => defaultSize

def getSize (v : ViewState) : Size Int32 := v.size

def getPos (v : ViewState) : Point Int32 := v.pos

def setPos (p : Point Int32) (v : ViewState) : ViewState := { v with pos := p }

def setWindowSize (s : Size Int32) (v : ViewState) : Platform → ViewState
  | .win32 => v
  | .other => { v with size := s }

def setCanvasSize (s : Size Int32) (v : ViewState) : Platform → ViewState
  | .win32 => { v with size := s }
  | .other => v

/-- The two setters as `OnSize` calls them. -/
def record (platform : Platform) (client window : Size Int32) (v : ViewState) : ViewState :=
  (v.setCanvasSize client platform).setWindowSize window platform

def sizeOf (client window : Size Int32) : Platform → Size Int32
  | .win32 => client
  | .other => window

theorem record_eq (platform : Platform) (client window : Size Int32) (v : ViewState) :
    v.record platform client window = ⟨v.pos, sizeOf client window platform⟩ := by
  cases platform <;> rfl

end ViewState

end SonarPlugin
