import SonarPlugin.Config
import SonarPlugin.Icons
import SonarPlugin.Library.Pointer
import SonarPlugin.Library.Ledger

namespace SonarPlugin

open Library

inductive Fault
  | member (frame : FrameId) (site : Site) (member : Member) (misuse : Misuse)
  | sonarTargets (misuse : Misuse)
  | window (frame : FrameId)
deriving DecidableEq

/-- The calls that are recorded, newest first, while the plug-in runs. -/
inductive Call
  | toggleSonarFrame
  | create (frame : FrameId) (pos : Point Int32) (size : Size Int32)
  | dialogCreate (frame : FrameId) (pos : Point Int32) (size : Size Int32)
  | newCanvas (frame : FrameId) (size : Size Int32)
  | fit (frame : FrameId) (inside : Bool)
  | showFrame (frame : FrameId)
  | refresh (frame : FrameId)
  | setColourScheme (frame : FrameId) (cs : ColorScheme)
  | onClose (frame : FrameId)
  | deleteTimer (frame : FrameId)
  | requestRefresh
  | saveConfig (settings : Settings)
  | rescale (image : Bitmap) (factor : ℚ) (width height : Int)
  | getAISTargetArray (array : Option Nat)
  | deleteSonarTargets (array : Nat)
deriving DecidableEq

def Call.image? : Call → Option Bitmap
  | .rescale img .. => some img
  | _ => none

/-- The members of `sonar_pi`. The config object, the chart window and the
preference check-boxes belong to the host; of the first only its presence is kept. -/
structure SonarPi extends Settings where
  pconfig : Bool
  pSonarFrame : Option FrameId
  sonarTargets : Ptr Nat
  leftclickToolId : Nat
  lat : Double
  lon : Double
  cog : Double
  sog : Double
  sats : Int
deriving DecidableEq

structure Tool where
  id : Nat
  icons : ToolIcons
deriving DecidableEq, Repr

/-- The host's side: its config store, the `OnKeyPress` handlers bound to the
chart window, the tools of the toolbar and the arrays it has handed out. -/
structure Host where
  config : FileConfig
  handlers : Nat
  tools : List Tool
  nextTool : Nat
  arrays : Ledger
  dilg1 : Colour
  initialised : Bool
  alive : Bool

/-- The static variables of the process. The two of `resize_img_data` are set
by its first call. -/
structure Statics where
  svg : SvgImages
  imgNum : Nat
  resizeDims : Option (Int × Int)
  lastMousePos : Point Int
deriving DecidableEq

structure App where
  pi : SonarPi
  host : Host
  statics : Statics
  heap : Ledger
  log : List Call

namespace App

def note (c : Call) (a : App) : App := { a with log := c :: a.log }

def loadConfig (a : App) : Bool × App :=
  if a.pi.pconfig then
    let c := a.host.config.setPath configPath
    (true, { a with pi.toSettings := readSettings c, host.config := c })
  else (false, a)

def saveConfig (a : App) : Bool × App :=
  if a.pi.pconfig then
    let c := a.host.config.setPath configPath
    (true, { a with
      host.config := writeSettings a.pi.toSettings c
      log := .saveConfig a.pi.toSettings :: a.log })
  else (false, a)

def saves (pi : SonarPi) : List Call := if pi.pconfig then [.saveConfig pi.toSettings] else []

theorem eq_of_mem_saves {c : Call} {pi : SonarPi} (h : c ∈ saves pi) :
    c = .saveConfig pi.toSettings := by
  unfold saves at h
  split at h
  · exact List.mem_singleton.mp h
  · cases h

theorem saveConfig_eq (a : App) : a.saveConfig.2 = { a with
    host.config := if a.pi.pconfig then
      writeSettings a.pi.toSettings (a.host.config.setPath configPath) else a.host.config
    log := saves a.pi ++ a.log } := by
  unfold saveConfig saves
  split <;> rfl

def onSonarFrameClose (a : App) : App :=
  (saveConfig { a with pi.pSonarFrame := none }).2

/-- `InsertPlugInToolSVG`: the host adds a tool under a fresh id. -/
def insertTool (icons : ToolIcons) (a : App) : App :=
  { a with
    host.tools := a.host.tools ++ [⟨a.host.nextTool, icons⟩]
    host.nextTool := a.host.nextTool + 1
    pi.leftclickToolId := a.host.nextTool }

def removePlugInTool (id : Nat) (a : App) : App :=
  { a with host.tools := a.host.tools.filter (fun t => t.id ≠ id) }

def getAISTargetArray (answer : Bool) (a : App) : App :=
  if answer then
    { a with
      pi.sonarTargets := .live a.host.arrays.next
      host.arrays := a.host.arrays.alloc
      log := .getAISTargetArray (some a.host.arrays.next) :: a.log }
  else { a with pi.sonarTargets := .null, log := .getAISTargetArray none :: a.log }

/-- `WX_CLEAR_ARRAY(*SonarTargets); delete SonarTargets;` behind the null test. -/
def deleteSonarTargets (a : App) : Except Fault App :=
  match a.pi.sonarTargets with
  | .null => .ok a
  | .live h =>
    .ok { a with
      pi.sonarTargets := .dangling
      host.arrays := a.host.arrays.release h
      log := .deleteSonarTargets h :: a.log }
  | .dangling => .error (.sonarTargets .dangling)

def getSonarTargets (answer : Bool) (a : App) : Except Fault App := do
  let a ← a.deleteSonarTargets
  return a.getAISTargetArray answer

/-- `new T(...)` for an object outside the window tree. -/
def new {α : Type} (value : α) (a : App) : Owned α × App :=
  (⟨a.heap.next, value⟩, { a with heap := a.heap.alloc })

def resizeImgData (build : Build) (img : Bitmap) (size : ℚ) (a : App) : Bitmap × App :=
  let dims := a.statics.resizeDims.getD img.dims
  let newWidth := build.scaled dims.1 size
  let newHeight := build.scaled dims.2 size
  (img.rescale newWidth newHeight,
    { a with
      statics.resizeDims := some dims
      log := .rescale img size newWidth newHeight :: a.log })

end App

end SonarPlugin
