import SonarPlugin.FrameEvents

namespace SonarPlugin

open Library

/-- The statements of `SonarFrame::Create` once `wxDialog::Create` has
succeeded. Those that only build the window tree are `layout`. `MyFit` is `Fit` on
Windows and `FitInside` elsewhere. -/
inductive CreateStmt
  | layout
  | newCanvas
  | useCanvas
  | newNorthUp
  | setNorthUp
  | useNorthUp
  | newTimer
  | startTimer
  | myFit
deriving DecidableEq, Repr

namespace CreateStmt

def exec (build : Build) : CreateStmt → Scene → Except Fault Scene
  | .layout, s => .ok s
  | .newCanvas, s => do
    let v ← s.frame.pViewState.use (s.fault .create .viewState)
    return Scene.note (.newCanvas s.frame.this (v.value.getCanvasSize build.platform))
      { s with frame.pCanvas := .live ⟨false⟩ }
  | .useCanvas, s => do
    let _canvas ← s.frame.pCanvas.use (s.fault .create .canvas)
    return s
  | .newNorthUp, s => .ok { s with frame.pNorthUp := .live false }
  | .setNorthUp, s => do
    let _northUp ← s.frame.pNorthUp.use (s.fault .create .northUp)
    return { s with frame.pNorthUp := .live s.app.pi.sonarNorthUp }
  | .useNorthUp, s => do
    let _northUp ← s.frame.pNorthUp.use (s.fault .create .northUp)
    return s
  | .newTimer, s =>
    let (timer, app) := s.app.new (Timer.mk (-1) false)
    .ok { frame := { s.frame with timer := .live timer }, app }
  | .startTimer, s => do
    let timer ← s.frame.timer.use (s.fault .create .timer)
    return { s with frame.timer := .live ⟨timer.handle, timer.value.start 2000⟩ }
  | .myFit, s => .ok (s.note (.fit s.frame.this (decide (build.platform = .other))))

end CreateStmt

def createBody : List CreateStmt :=
  [.layout, .layout, -- CenterOnScreen, Move
    .layout, .layout, .layout, .layout, -- panel, SetAutoLayout, vbox, SetSizer
    .layout, .newCanvas, .useCanvas, -- canvas sizer, m_pCanvas, SetBackgroundStyle
    .layout, .useCanvas, .useCanvas, .layout, -- cbox, FitInside, Add, Add
    .layout, .layout, .layout, .layout, .layout, -- sb, controls, button, Add, Bind
    .newNorthUp, .setNorthUp, .useNorthUp, .layout, -- m_pNorthUp, SetValue, Add, Add
    .newTimer, .startTimer, .myFit]

namespace Scene

/-- `new SonarFrame()`, whose constructor ends with `Init`. -/
def construct (env : Env) (i : FrameId) (a : App) : Scene :=
  let (img, app) := a.new env.testPng
  { frame :=
      { this := i
        life := .raw
        timer := .null
        pCanvas := .null
        pNorthUp := .null
        pViewState := .null
        imgData := .live img
        ebl := .zero
        isDragging := false
        picture := ⟨⟨0, 0⟩, 1, a.host.dilg1⟩
        drawn := none
        repaintDue := false }
    app }

/-- `Create` up to the call of `wxDialog::Create`, with its arguments. -/
def beginCreate (env : Env) (pos : Point Int32) (size : Size Int32) (s : Scene) : Scene :=
  let i := s.frame.this
  let (v, app) := (s.app.note (.create i pos size)).new (ViewState.mk pos size)
  { frame := { s.frame with pViewState := .live v }
    app := app.note (.dialogCreate i pos (v.value.getWindowSize env.build.platform)) }

def create (env : Env) (pos : Point Int32) (size : Size Int32) (s : Scene) :
    Except Fault (Bool × Scene) := do
  let s := s.beginCreate env pos size
  if env.dialogOk s.frame.this then
    let s ← createBody.foldlM (fun s c => c.exec env.build s) { s with frame.life := .created }
    return (true, s)
  else return (false, s)

end Scene

end SonarPlugin
