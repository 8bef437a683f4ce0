import SonarPlugin.Opening
import SonarPlugin.Machine

namespace SonarPlugin

open Library

def World.scene? (w : World) (i : FrameId) : Option Scene := (w.frames i).map fun f => ⟨f, w.toApp⟩

/-- Opening a frame in world `w` creates its window and leaves scene `s`. -/
structure Opens (env : Env) (w : World) (s : Scene) : Prop where
  dialogOk : env.dialogOk w.nextFrame = true
  scene : ((w.openFrame env).toOption.bind fun v => v.scene? w.nextFrame) = some s

/-- A frame between the end of `Create` and the event that closes it. -/
def viewing (build : Build) : System Scene FrameEvent Fault where
  allowed _ e := e ≠ .close ∧ e.isToggle = false
  step := FrameEvent.handle build

instance (build : Build) (s : Scene) (e : FrameEvent) : Decidable ((viewing build).allowed s e) :=
  match e with
  | .close => isFalse fun h => h.1 rfl
  | .key k ctrl => decidable_of_iff ((FrameEvent.key k ctrl).isToggle = false)
      ⟨fun h => ⟨nofun, h⟩, And.right⟩
  | .move _ | .size .. | .paint _ | .timer | .northUp _ | .restoration | .colours .. |
    .mouseDown _ | .mouseMoved _ | .mouseReleased _ | .mouseScroll _ => isTrue ⟨nofun, rfl⟩

theorem Opens.newFrame {env : Env} {w : World} {s : Scene} (h : Opens env w s) :
    NewFrame env w s := by
  obtain ⟨t, ht, hnew⟩ := openFrame_spec env w
  have hs := h.scene
  rw [ht] at hs
  have hframe : (w.put w.nextFrame t).frames w.nextFrame = some t.frame := by
    simp [World.put]
  obtain rfl : t = s := by
    simpa [World.scene?, Except.toOption, hframe] using hs
  exact hnew

theorem exists_viewing_run (env : Env) (w : World) (es : List FrameEvent) (p : Scene → Bool)
    (hok : env.dialogOk w.nextFrame = true)
    (h : (((w.openFrame env).toOption.bind fun v => v.scene? w.nextFrame).bind
      fun s => (viewing env.build).exec es s).any p = true) :
    ∃ s t, Opens env w s ∧ (viewing env.build).Run s es t ∧ p t = true := by
  cases hs : (w.openFrame env).toOption.bind fun v => v.scene? w.nextFrame with
  | none => simp [hs] at h
  | some s =>
    rw [hs] at h
    obtain ⟨t, hrun, hp⟩ := System.exists_run_of_exec (viewing env.build) s es p h
    exact ⟨s, t, ⟨hok, hs⟩, hrun, hp⟩

end SonarPlugin
