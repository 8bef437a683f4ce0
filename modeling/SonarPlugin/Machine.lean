import SonarPlugin.Plugin

namespace SonarPlugin

open Library

inductive Event
  | init (answer : Bool)
  | deInit
  | toolbar (id : Nat)
  | aisSentence (answer : Bool)
  | positionFix (fix : PositionFix)
  | colorScheme (cs : ColorScheme) (dilg1 : Colour)
  | getSonarTargets (answer : Bool)
  | preferences (result : Option (Bool × Bool))
  | chartKey (k : Key) (ctrl : Bool)
  | frame (i : FrameId) (e : FrameEvent)
  | deleteFrame (i : FrameId)
  | destroy

namespace World

/-- Every handler still bound to the chart window is run on a key press there. -/
def step (env : Env) : Event → World → Except Fault World
  | .init answer, w => do
    let w ← w.withApp (App.init env answer)
    return { w with host.initialised := true }
  | .deInit, w => do
    let w ← w.deInit
    return { w with host.initialised := false }
  | .toolbar id, w => w.onToolbarToolCallback env id
  | .aisSentence answer, w => w.setAISSentence answer
  | .positionFix fix, w => w.setPositionFix fix
  | .colorScheme cs dilg1, w => setColorScheme cs { w with host.dilg1 := dilg1 }
  | .getSonarTargets answer, w => w.withApp (App.getSonarTargets answer)
  | .preferences result, w => w.withApp fun a => .ok (a.showPreferencesDialog result)
  | .chartKey k ctrl, w => repeatStep (onKeyPress env k ctrl) w.host.handlers w
  | .frame i (.key k ctrl), w => w.onKeyDown env i k ctrl
  | .frame i e, w => w.onFrame i (e.handle env.build)
  | .deleteFrame i, w => .ok { w with frames := Function.update w.frames i none }
  | .destroy, w => w.withApp App.destroy

end World

/-- What the window system can deliver to a frame. Input comes to an open
frame only: a window whose `Destroy` is scheduled is hidden. -/
def SonarFrame.accepts (f : SonarFrame) : FrameEvent → Bool
  | .move _ | .timer | .size .. => f.life ≠ .raw
  | .paint _ => f.life ≠ .raw && f.pCanvas.isLive
  | .colours .. => false
  | _ => f.life = .created

def World.allows (w : World) (e : Event) : Bool :=
  w.host.alive &&
    match e with
    | .frame i e => (w.frames i).any fun f => f.accepts e
    | .deleteFrame i => (w.frames i).any fun f => f.life = .closed
    | _ => true

/-- The host's order: `Init` and `DeInit` alternate, and the calls that
concern a session come between the two. -/
def World.inOrder (w : World) : Event → Bool
  | .init _ | .destroy => !w.host.initialised
  | .deInit | .toolbar _ | .aisSentence _ | .positionFix _ | .colorScheme .. => w.host.initialised
  | _ => true

def machine (env : Env) : System World Event Fault where
  allowed w e := w.allows e = true
  step := World.step env

def hosted (env : Env) : System World Event Fault :=
  (machine env).restrict fun w e => w.inOrder e = true

instance (env : Env) (w : World) (e : Event) : Decidable ((machine env).allowed w e) :=
  inferInstanceAs (Decidable (w.allows e = true))

instance (env : Env) (w : World) (e : Event) : Decidable ((hosted env).allowed w e) :=
  inferInstanceAs (Decidable (w.allows e = true ∧ w.inOrder e = true))

/-- A desktop on which every window can be created. -/
def Env.desktop : Env where
  build := ⟨.other, .ieee⟩
  dialogOk _ := true
  configObject := true
  pluginDataDir := ""
  testPng := ⟨1, 1⟩

def FileConfig.blank : FileConfig := ⟨"", fun _ => none⟩

def World.blank (env : Env) : World := World.construct env .blank ⟨0, 0, 0⟩

end SonarPlugin
