import SonarPlugin.Create
import SonarPlugin.Library.System

namespace SonarPlugin

open Library

structure PositionFix where
  lat : Double
  lon : Double
  cog : Double
  sog : Double
  nSats : Int
deriving DecidableEq

/-- All frame objects that exist, with everything outside them. -/
structure World extends App where
  frames : FrameId → Option SonarFrame
  nextFrame : FrameId

namespace App

def init (env : Env) (answer : Bool) (a : App) : Except Fault App := do
  let a : App := { a with
    pi.sonarFrameX := 0, pi.sonarFrameY := 0, pi.sonarFrameSx := 200, pi.sonarFrameSy := 200
    pi.pSonarFrame := none
    pi.lat := .zero, pi.lon := .zero, pi.cog := .zero, pi.sog := .zero, pi.sats := 0
    pi.pconfig := env.configObject }
  let a := a.loadConfig.2
  let a ← a.deleteSonarTargets
  let a := { a with host.handlers := a.host.handlers + 1 }
  let a := if a.pi.sonarShowIcon then a.insertTool (initIcons a.statics.svg) else a
  return a.getAISTargetArray answer

/-- The dialog's end: `none` for Cancel, or the two check-boxes for OK. -/
def showPreferencesDialog (result : Option (Bool × Bool)) (a : App) : App :=
  match result with
  | none => a
  | some (showIcon, useSonar) =>
    let a :=
      if a.pi.sonarShowIcon ≠ showIcon then
        let a := { a with pi.sonarShowIcon := showIcon }
        if showIcon then a.insertTool (preferencesIcons a.statics.svg)
        else a.removePlugInTool a.pi.leftclickToolId
      else a
    (saveConfig { a with pi.sonarUseSonar := useSonar }).2

def destroy (a : App) : Except Fault App := do
  let a ← a.deleteSonarTargets
  return { a with pi.sonarTargets := .null, host.alive := false }

def storeFix (fix : PositionFix) (a : App) : App :=
  { a with
    pi.lat := fix.lat
    pi.lon := fix.lon
    pi.cog := if fix.cog.nonneg then fix.cog else a.pi.cog
    pi.sog := if fix.sog.nonneg then fix.sog else a.pi.sog
    pi.sats := fix.nSats }

end App

namespace World

/-- `new sonar_pi`, with the constructor's values. -/
def construct (env : Env) (config : FileConfig) (dilg1 : Colour) : World where
  pi :=
    { sonarShowIcon := true, sonarUseSonar := true, sonarNorthUp := false
      sonarFrameSx := 0, sonarFrameSy := 0, sonarFrameX := 0, sonarFrameY := 0, sonarRange := 0
      pconfig := false, pSonarFrame := none, sonarTargets := .null, leftclickToolId := 0
      lat := .zero, lon := .zero, cog := .zero, sog := .zero, sats := 0 }
  host :=
    { config, handlers := 0, tools := [], nextTool := 1, arrays := .empty, dilg1
      initialised := false, alive := true }
  statics :=
    { svg := initializeImages env.pluginDataDir, imgNum := 1, resizeDims := none
      lastMousePos := ⟨0, 0⟩ }
  heap := .empty
  log := []
  frames _ := none
  nextFrame := 0

def withApp (f : App → Except Fault App) (w : World) : Except Fault World := do
  let a ← f w.toApp
  return { w with toApp := a }

def onFrame (i : FrameId) (h : Scene → Except Fault Scene) (w : World) : Except Fault World :=
  match w.frames i with
  | none => .error (.window i)
  | some f => do
    let s ← h ⟨f, w.toApp⟩
    return { w with toApp := s.app, frames := Function.update w.frames i (some s.frame) }

/-- The calls behind the test `if (m_pSonarFrame)`. -/
def onSonarFrame (h : Scene → Except Fault Scene) (w : World) : Except Fault World :=
  match w.pi.pSonarFrame with
  | none => .ok w
  | some i => w.onFrame i h

def deInit (w : World) : Except Fault World := w.onSonarFrame Scene.onClose

/-- The branch of `ToggleSonarFrame` that opens a frame. The result of
`Create` is not looked at. -/
def openFrame (env : Env) (w : World) : Except Fault World := do
  let i := w.nextFrame
  let s := Scene.construct env i w.toApp
  let s := { s with app.pi.pSonarFrame := some i }
  let (_, s) ← s.create env ⟨w.pi.sonarFrameX, w.pi.sonarFrameY⟩
    ⟨w.pi.sonarFrameSx, w.pi.sonarFrameSy⟩
  let s := s.showFrame
  return { toApp := s.app, frames := Function.update w.frames i (some s.frame), nextFrame := i + 1 }

def toggleSonarFrame (env : Env) (w : World) : Except Fault World :=
  let w := { w with toApp := w.toApp.note .toggleSonarFrame }
  match w.pi.pSonarFrame with
  | none => w.openFrame env
  | some i => w.onFrame i Scene.onClose

def onToolbarToolCallback (env : Env) (_id : Nat) (w : World) : Except Fault World :=
  w.toggleSonarFrame env

def updateTargets (answer : Bool) (w : World) : Except Fault World :=
  if w.pi.sonarUseSonar then w.withApp (App.getSonarTargets answer) else .ok w

def setAISSentence (answer : Bool) (w : World) : Except Fault World := do
  let w ← w.updateTargets answer
  w.onSonarFrame fun s => .ok s.refresh

def setPositionFix (fix : PositionFix) (w : World) : Except Fault World :=
  if w.pi.lat.ne fix.lat || w.pi.lon.ne fix.lon || w.pi.cog.ne fix.cog || w.pi.sog.ne fix.sog then
    World.onSonarFrame (fun s => .ok s.refresh) { w with toApp := w.toApp.storeFix fix }
  else .ok w

def setColorScheme (cs : ColorScheme) (w : World) : Except Fault World :=
  w.onSonarFrame fun s => .ok (s.setColourScheme cs)

/-- The test for Ctrl+1 that both key handlers make. -/
def toggleOnKey (env : Env) (k : Key) (ctrl : Bool) (w : World) : Except Fault World :=
  if k = .one && ctrl then w.toggleSonarFrame env else .ok w

def onKeyPress (env : Env) (k : Key) (ctrl : Bool) (w : World) : Except Fault World :=
  w.toggleOnKey env k ctrl

def onKeyDown (env : Env) (i : FrameId) (k : Key) (ctrl : Bool) (w : World) :
    Except Fault World := do
  let w ← w.toggleOnKey env k ctrl
  w.onFrame i fun s => .ok (s.zoomKey env.build k)

end World

end SonarPlugin
