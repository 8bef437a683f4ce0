import SonarPlugin.Effects
import SonarPlugin.Plugin

namespace SonarPlugin

open Library

theorem createBody_exec (build : Build) (s : Scene) (v : Owned ViewState)
    (hv : s.frame.pViewState = .live v) :
    createBody.foldlM (fun s c => c.exec build s) s = .ok
      ⟨{ s.frame with
          pCanvas := .live ⟨false⟩
          pNorthUp := .live s.app.pi.sonarNorthUp
          timer := .live ⟨s.app.heap.next, ⟨2000, true⟩⟩ },
        { s.app with
          heap := s.app.heap.alloc
          log := .fit s.frame.this (decide (build.platform = .other)) ::
            .newCanvas s.frame.this (v.value.getCanvasSize build.platform) :: s.app.log }⟩ := by
  simp only [createBody, List.foldlM_cons, List.foldlM_nil, CreateStmt.exec, hv, Ptr.use_live,
    bind, Except.bind, pure, Except.pure]
  rfl

def Call.isOpening : Call → Bool
  | .create .. | .dialogCreate .. | .newCanvas .. | .fit .. | .showFrame _ => true
  | _ => false

/-- A frame as `ToggleSonarFrame` leaves it. It is complete only if
`wxDialog::Create` has succeeded. -/
structure NewFrame (env : Env) (w : World) (s : Scene) : Prop where
  this : s.frame.this = w.nextFrame
  life : s.frame.life = if env.dialogOk w.nextFrame then .created else .raw
  viewState : s.frame.pViewState = .live ⟨w.heap.next + 1,
    ⟨⟨w.pi.sonarFrameX, w.pi.sonarFrameY⟩, ⟨w.pi.sonarFrameSx, w.pi.sonarFrameSy⟩⟩⟩
  imgData : s.frame.imgData = .live ⟨w.heap.next, env.testPng⟩
  built : env.dialogOk w.nextFrame = true →
    s.frame.timer = .live ⟨w.heap.next + 2, ⟨2000, true⟩⟩ ∧ s.frame.pCanvas = .live ⟨false⟩ ∧
      s.frame.pNorthUp = .live w.pi.sonarNorthUp
  halfBuilt : env.dialogOk w.nextFrame = false →
    s.frame.timer = .null ∧ s.frame.pCanvas = .null ∧ s.frame.pNorthUp = .null
  isDragging : s.frame.isDragging = false
  picture : s.frame.picture = ⟨⟨0, 0⟩, 1, w.host.dilg1⟩
  drawn : s.frame.drawn = none
  repaintDue : s.frame.repaintDue = true
  owned : ∀ R, w.heap.Owns R → s.app.heap.Owns (R + s.frame.handles)
  pi : s.app.pi = { w.pi with pSonarFrame := some w.nextFrame }
  host : s.app.host = w.host
  statics : s.app.statics = w.statics
  log : ∃ calls, s.app.log = calls ++ w.log ∧ (∀ c ∈ calls, c.isOpening = true) ∧
    .create w.nextFrame ⟨w.pi.sonarFrameX, w.pi.sonarFrameY⟩
      ⟨w.pi.sonarFrameSx, w.pi.sonarFrameSy⟩ ∈ calls

theorem NewFrame.quiet {env : Env} {w : World} {s : Scene} (h : NewFrame env w s) :
    Quiet w.toApp s.app := by
  obtain ⟨calls, hlog, hcalls, -⟩ := h.log
  refine ⟨by rw [h.statics], calls, hlog, fun c hc => ?_⟩
  cases c with
  | rescale => cases hcalls _ hc
  | _ => rfl

/-- The world with the frame of scene `s` put in place of frame `i`. -/
def World.put (w : World) (i : FrameId) (s : Scene) : World :=
  { w with toApp := s.app, frames := Function.update w.frames i (some s.frame) }

@[simp] theorem World.put_toApp (w : World) (i : FrameId) (s : Scene) :
    (w.put i s).toApp = s.app := rfl

theorem openFrame_spec (env : Env) (w : World) :
    ∃ s, w.openFrame env = .ok { w.put w.nextFrame s with nextFrame := w.nextFrame + 1 } ∧
      NewFrame env w s := by
  unfold World.openFrame
  cases hok : env.dialogOk w.nextFrame with
  | true =>
    simp only [Scene.create, Scene.construct, Scene.beginCreate, App.new, App.note, hok, if_true]
    rw [createBody_exec _ _ _ rfl]
    refine ⟨⟨_, _⟩, rfl, ?_⟩
    exact
      { this := rfl
        life := by rw [hok]; rfl
        viewState := rfl
        imgData := rfl
        built := fun _ => ⟨rfl, rfl, rfl⟩
        halfBuilt := fun h => by simp [hok] at h
        isDragging := rfl
        picture := rfl
        drawn := rfl
        repaintDue := rfl
        owned := fun R hR => by
          have hown := hR.alloc.alloc.alloc
          refine hown.congr ?_
          change R + {w.heap.next} + {w.heap.next + 1} + {w.heap.next + 2} =
            R + ({w.heap.next + 2} + {w.heap.next + 1} + {w.heap.next})
          abel
        pi := rfl
        host := rfl
        statics := rfl
        log := ⟨[_, _, _, _, _], rfl, by simp [Call.isOpening], by simp⟩ }
  | false =>
    simp only [Scene.create, Scene.construct, Scene.beginCreate, App.new, App.note, hok]
    refine ⟨⟨_, _⟩, rfl, ?_⟩
    exact
      { this := rfl
        life := by rw [hok]; rfl
        viewState := rfl
        imgData := rfl
        built := fun h => by simp [hok] at h
        halfBuilt := fun _ => ⟨rfl, rfl, rfl⟩
        isDragging := rfl
        picture := rfl
        drawn := rfl
        repaintDue := rfl
        owned := fun R hR => by
          have hown := hR.alloc.alloc
          refine hown.congr ?_
          change R + {w.heap.next} + {w.heap.next + 1} =
            R + (0 + {w.heap.next + 1} + {w.heap.next})
          abel
        pi := rfl
        host := rfl
        statics := rfl
        log := ⟨[_, _, _], rfl, by simp [Call.isOpening], by simp⟩ }

def Scene.opened (env : Env) (w : World) : Scene :=
  let i := w.nextFrame
  let s := Scene.construct env i w.toApp
  let s := Scene.beginCreate env ⟨w.pi.sonarFrameX, w.pi.sonarFrameY⟩
    ⟨w.pi.sonarFrameSx, w.pi.sonarFrameSy⟩ { s with app.pi.pSonarFrame := some i }
  if env.dialogOk i then
    let (timer, app) := s.app.new (Timer.mk 2000 true)
    Scene.showFrame
      { frame := { s.frame with
          life := .created, pCanvas := .live ⟨false⟩, pNorthUp := .live w.pi.sonarNorthUp
          timer := .live timer }
        app := (app.note (.newCanvas i
            (ViewState.getCanvasSize ⟨⟨w.pi.sonarFrameX, w.pi.sonarFrameY⟩,
              ⟨w.pi.sonarFrameSx, w.pi.sonarFrameSy⟩⟩ env.build.platform))).note
          (.fit i (decide (env.build.platform = .other))) }
  else s.showFrame

theorem openFrame_eq (env : Env) (w : World) : w.openFrame env = .ok
    { w.put w.nextFrame (Scene.opened env w) with nextFrame := w.nextFrame + 1 } := by
  unfold World.openFrame Scene.opened
  cases hok : env.dialogOk w.nextFrame with
  | true =>
    simp only [Scene.create, Scene.construct, Scene.beginCreate, App.new, App.note, hok, if_true]
    rw [createBody_exec _ _ _ rfl]
    rfl
  | false =>
    simp only [Scene.create, Scene.construct, Scene.beginCreate, App.new, App.note, hok]
    rfl

end SonarPlugin
