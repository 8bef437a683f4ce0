import SonarPlugin.ViewLaws

namespace SonarPlugin

open Library

namespace View

section

variable {V : View} {env : Env} {build : Build} {w : World}

theorem handle_sees {e : FrameEvent} (he : V.picture = true ∨ e.isPictorial = false) :
    Sees V.scene (e.handle build) := by
  have hp (h : e.isPictorial = true) : V.picture = true := by simpa [h] using he
  cases e with
  | move p => exact onMove_sees p
  | size client window disk => exact onSize_sees client window disk
  | paint disk => exact paintEvent_sees disk
  | timer => exact Sees.ok refresh_seen
  | northUp value => exact checkNorthUp_sees value
  | restoration => exact Sees.ok (onRestorationButtonClick_seen (hp rfl))
  | colours cs dilg1 =>
    refine Sees.ok ((setColourScheme_seen cs).comp fun s => ?_)
    exact scene_eq (frame_twice s.frame) (app_eq (pi_pi _) (by simp [scene, app, host])
      (statics_statics _) (heap_heap _) (log_append [] s.app.log))
  | mouseDown p => exact Sees.ok ((onLeftMouse_seen (hp rfl) p).comp (setMouseDown_seen true))
  | mouseMoved p => exact Sees.ok (mouseMoved_seen (hp rfl) p)
  | mouseReleased p => exact Sees.ok (mouseReleased_seen p)
  | mouseScroll rotation => exact Sees.ok (onMouseScroll_seen (hp rfl) rotation)
  | key k ctrl =>
    by_cases hk : k = .one
    · -- Ctrl+1 or 1 alone: the frame does nothing with it.
      subst hk
      exact Sees.ok scene_twice
    · exact Sees.ok (zoomKey_seen (hp (by simp [FrameEvent.isPictorial, hk])) k)
  | close => exact onClose_sees

theorem openFrame_sees : Sees V.world (World.openFrame env) := by
  intro w
  rw [openFrame_eq, openFrame_eq]
  have hput : V.world ((V.world w).put w.nextFrame (Scene.opened env (V.world w))) =
      V.world (w.put w.nextFrame (Scene.opened env w)) :=
    put_congr (world_twice w) (opened_seen env w)
  exact congrArg (fun u : World => Except.ok { u with nextFrame := w.nextFrame + 1 }) hput

theorem toggleSonarFrame_sees : Sees V.world (World.toggleSonarFrame env) := by
  intro w
  have hnote : V.world { V.world w with toApp := (V.world w).toApp.note .toggleSonarFrame } =
      V.world { w with toApp := w.toApp.note .toggleSonarFrame } :=
    app_congr (world_twice w) (note_seen _ w.toApp)
  have hp : (V.world w).pi.pSonarFrame = w.pi.pSonarFrame := rfl
  unfold World.toggleSonarFrame
  dsimp only [App.note] at hnote ⊢
  rw [hp]
  cases w.pi.pSonarFrame with
  | none => exact openFrame_sees.congr hnote
  | some i => exact (sees_onFrame i onClose_sees).congr hnote

theorem toggleOnKey_sees (k : Key) (ctrl : Bool) : Sees V.world (World.toggleOnKey env k ctrl) :=
  Sees.ite (c := fun _ => (decide (k = .one) && ctrl) = true) (fun _ => Iff.rfl)
    toggleSonarFrame_sees (Sees.ok world_twice)

theorem refreshed_sees : Sees V.world (World.onSonarFrame fun s => .ok s.refresh) :=
  sees_onSonarFrame (Sees.ok refresh_seen)

theorem updateTargets_sees (answer : Bool) (hw : w.pi.sonarTargets ≠ .dangling) :
    ((V.world w).updateTargets answer).map V.world = (w.updateTargets answer).map V.world := by
  have huse : (V.world w).pi.sonarUseSonar = w.pi.sonarUseSonar := rfl
  unfold World.updateTargets
  rw [huse]
  split
  · exact withApp_congr (world_twice w) (getSonarTargets_sees answer hw)
  · exact congrArg Except.ok (world_twice w)

theorem setPositionFix_sees (hf : V.feeds = true) (x : PositionFix) :
    Sees V.world (World.setPositionFix x) := by
  have hstore : Seen V.app (App.storeFix x) :=
    pi_seen (fun p => { p with
      lat := x.lat
      lon := x.lon
      cog := if x.cog.nonneg then x.cog else p.cog
      sog := if x.sog.nonneg then x.sog else p.sog
      sats := x.nSats }) fun p => by simp [pi, hf]
  let differs (w : World) : Prop :=
    (w.pi.lat.ne x.lat || w.pi.lon.ne x.lon || w.pi.cog.ne x.cog || w.pi.sog.ne x.sog) = true
  exact Sees.ite (c := differs) (fun w => by simp [differs, world, app, pi, hf])
    ((sees_app hstore).bind refreshed_sees) (Sees.ok world_twice)

theorem delete_seen (i : FrameId) :
    Seen V.world fun w => { w with frames := Function.update w.frames i none } := by
  intro w
  have hframes : (fun j => (Function.update (fun j => (w.frames j).map V.frame) i none j).map V.frame) =
      fun j => (Function.update w.frames i none j).map V.frame := by
    funext j
    by_cases hj : j = i
    · subst hj
      simp
    · have htwice := congrFun (congrArg World.frames (world_twice (V := V) w)) j
      simpa [hj, world] using htwice
  have happ := app_twice (V := V) w.toApp
  change World.mk (V.app (V.app w.toApp)) _ w.nextFrame = World.mk (V.app w.toApp) _ w.nextFrame
  rw [happ, ← hframes]
  rfl

/-- What the view forgets flows into nothing that it shows. -/
theorem step_sees {e : Event} (he : V.hides e = false) (hw : w.pi.sonarTargets ≠ .dangling) :
    (World.step env e (V.world w)).map V.world = (World.step env e w).map V.world := by
  have hhost (g : Host → Host) (hg : ∀ h, V.host (g (V.host h)) = V.host (g h)) :
      Sees V.world fun w => (.ok { w with host := g w.host } : Except Fault World) :=
    sees_app (host_seen g hg)
  have hinitialised (b : Bool) := hhost (fun h => { h with initialised := b }) fun h => by simp [host]
  cases e with
  | init answer =>
    exact (hinitialised true).bind_congr (withApp_congr (world_twice w) (init_sees env answer hw))
  | deInit => exact (sees_onSonarFrame onClose_sees).bind (hinitialised false) w
  | toolbar id => exact toggleSonarFrame_sees w
  | aisSentence answer => exact refreshed_sees.bind_congr (updateTargets_sees answer hw)
  | positionFix x =>
    have hfeeds : V.feeds = true := by simpa [hides, Event.isData, Event.isPictorial] using he
    exact setPositionFix_sees hfeeds x w
  | colorScheme cs dilg1 =>
    have hdilg1 := hhost (fun h => { h with dilg1 }) fun h => by simp [host]
    exact hdilg1.bind (sees_onSonarFrame (Sees.ok (setColourScheme_seen cs))) w
  | getSonarTargets answer =>
    exact withApp_congr (world_twice w) (getSonarTargets_sees answer hw)
  | preferences r => exact sees_app (dialog_seen r) w
  | chartKey k ctrl => exact (toggleOnKey_sees k ctrl).repeated world_twice w.host.handlers w
  | frame i e =>
    have hhandle : Sees V.scene (e.handle env.build) := by
      refine handle_sees ?_
      cases hp : V.picture with
      | true => exact .inl rfl
      | false => exact .inr (by simpa [hides, Event.isData, Event.isPictorial, hp] using he)
    cases e with
    | key k ctrl => exact (toggleOnKey_sees k ctrl).bind (sees_onFrame i hhandle) w
    | _ => exact sees_onFrame i hhandle w
  | deleteFrame i => exact Sees.ok (delete_seen i) w
  | destroy => exact withApp_congr (world_twice w) (destroy_sees hw)

theorem unseen {I : World → Prop} {hidden : Event → Bool} (hhidden : V.hides = hidden)
    (hkeeps : ∀ u e v, I u → u.allows e = true → World.step env e u = .ok v → I v)
    (hvalid : ∀ u, I u → u.pi.sonarTargets ≠ .dangling)
    (hkept : ∀ u e v, I u → hidden e = true → World.step env e u = .ok v →
      V.world v = V.world u) :
    (machine env).Unseen I hidden V.world where
  keeps u e v hu he h := hkeeps u e v hu he h
  unseen u e v hu he _ h := hkept u e v hu he h
  allowed u v e _ _ _ hview := by
    change u.allows e = true ↔ v.allows e = true
    rw [← allows_world (V := V) e, hview, allows_world]
  step u v e hu hv he _ hview := by
    rw [← hhidden] at he
    have hstep (w : World) (hw : I w) :
        (World.step env e (V.world w)).map V.world = (World.step env e w).map V.world :=
      step_sees he (hvalid w hw)
    exact (hstep u hu).symm.trans (hview ▸ hstep v hv)

end

end View

end SonarPlugin
