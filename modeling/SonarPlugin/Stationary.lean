import SonarPlugin.CallOrder
import SonarPlugin.Recovery
import SonarPlugin.Matching

namespace SonarPlugin

open Library

def Event.edits : Event → Bool
  | .preferences (some _) => true
  | .frame _ (.move _) | .frame _ (.size ..) | .frame _ (.northUp _) => true
  | _ => false

/-- Settings, store and the geometry of every frame, open, cut off or closed,
all say `x`. -/
structure World.Rests (env : Env) (x : Settings) (w : World) : Prop where
  settings : w.pi.toSettings = x
  pconfig : w.pi.pconfig = env.configObject
  stored : env.configObject = true → storedSettings w.host.config = x
  unstored : env.configObject = false → x.geometry = ⟨⟨0, 0⟩, ⟨200, 200⟩⟩
  views : ∀ i f, w.frames i = some f → f.pViewState.map Owned.value = .live x.geometry

section

variable {env : Env} {w w' : World} {x : Settings} {i : FrameId} {f : SonarFrame} {s t : Scene}
  {a : App}

theorem rests_app (hw : w.Rests env x) (hsettings : a.pi.toSettings = w.pi.toSettings)
    (hpconfig : a.pi.pconfig = w.pi.pconfig) (hconfig : a.host.config = w.host.config) :
    World.Rests env x { w with toApp := a } where
  settings := hsettings.trans hw.settings
  pconfig := hpconfig.trans hw.pconfig
  stored hc := (congrArg storedSettings hconfig).trans (hw.stored hc)
  unstored := hw.unstored
  views := hw.views

theorem AppKept.rests (h : AppKept w.toApp a) (hw : w.Rests env x) :
    World.Rests env x { w with toApp := a } :=
  rests_app hw h.settings h.pconfig h.config

theorem rests_put (hw : w.Rests env x) (hsettings : s.app.pi.toSettings = x)
    (hpconfig : s.app.pi.pconfig = w.pi.pconfig)
    (hstored : env.configObject = true → storedSettings s.app.host.config = x)
    (hview : s.frame.pViewState.map Owned.value = .live x.geometry) :
    (w.put i s).Rests env x where
  settings := hsettings
  pconfig := hpconfig.trans hw.pconfig
  stored := hstored
  unstored := hw.unstored
  views j g hg := by
    by_cases hj : j = i
    · subst hj
      rw [put_frames_self] at hg
      cases hg
      exact hview
    · rw [put_frames_of_ne w s hj] at hg
      exact hw.views j g hg

theorem kept_rests (hw : w.Rests env x) (hf : w.frames i = some f) (h : Kept ⟨f, w.toApp⟩ s)
    (hview : s.frame.pViewState = f.pViewState) (hpi : s.app.pi = w.pi) :
    (w.put i s).Rests env x := by
  apply rests_put hw
  · rw [hpi]
    exact hw.settings
  · rw [hpi]
  · rw [h.host]
    exact hw.stored
  · rw [hview]
    exact hw.views i f hf

theorem closed_rests (hw : w.Rests env x) (hf : w.frames i = some f)
    (h : Closed ⟨f, w.toApp⟩ s) : (w.put i s).Rests env x := by
  obtain ⟨v, hv, hpi⟩ := h.pi
  have hgeometry : v.value = x.geometry := by
    have hview := hw.views i f hf
    have hv' : f.pViewState = .live v := hv
    rw [hv', Ptr.map_live] at hview
    exact Ptr.live_unique rfl hview
  have hsettings : s.app.pi.toSettings = x := by
    rw [hpi, hgeometry]
    change { w.pi.toSettings with
      sonarFrameX := x.geometry.pos.x, sonarFrameY := x.geometry.pos.y
      sonarFrameSx := x.geometry.size.width, sonarFrameSy := x.geometry.size.height } = x
    rw [hw.settings]
    rfl
  apply rests_put hw hsettings
  · rw [hpi]
  · intro hc
    have hconf : w.pi.pconfig = true := hw.pconfig.trans hc
    rw [h.host, if_pos hconf, storedSettings_writeSettings]
    exact hsettings
  · rw [h.frame]
    exact hw.views i f hf

theorem opened_rests (hw : w.Rests env x) : World.Rests env x
    { w.put w.nextFrame (Scene.opened env w) with nextFrame := w.nextFrame + 1 } := by
  have hgeometry : (Scene.opened env w).frame.pViewState.map Owned.value =
      .live w.pi.toSettings.geometry := by
    unfold Scene.opened
    dsimp only
    split <;> rfl
  have happ : (Scene.opened env w).app.pi.toSettings = w.pi.toSettings ∧
      (Scene.opened env w).app.pi.pconfig = w.pi.pconfig ∧
      (Scene.opened env w).app.host = w.host := by
    unfold Scene.opened
    dsimp only
    split <;> exact ⟨rfl, rfl, rfl⟩
  obtain ⟨hsettings, hpconfig, hhost⟩ := happ
  have hput : (w.put w.nextFrame (Scene.opened env w)).Rests env x := by
    apply rests_put hw (hsettings.trans hw.settings) hpconfig
    · rw [hhost]
      exact hw.stored
    · rw [hgeometry, hw.settings]
  exact ⟨hput.settings, hput.pconfig, hput.stored, hput.unstored, hput.views⟩

theorem toggle_rests (hw : w.Rests env x) (h : w.toggleSonarFrame env = .ok w') :
    w'.Rests env x := by
  have hnote : World.Rests env x { w with toApp := w.toApp.note .toggleSonarFrame } :=
    (note_kept rfl _).rests hw
  cases hp : w.pi.pSonarFrame with
  | none =>
    simp only [World.toggleSonarFrame, App.note, hp] at h
    rw [openFrame_eq] at h
    cases h
    exact opened_rests hnote
  | some i =>
    obtain ⟨hnone, -⟩ | ⟨j, f, s, -, hf, hclosed, rfl⟩ := toggle_cases h
    · cases hp.symm.trans hnone
    · exact closed_rests hnote hf hclosed

theorem toggleOnKey_rests {k : Key} {ctrl : Bool} (hw : w.Rests env x)
    (h : w.toggleOnKey env k ctrl = .ok w') : w'.Rests env x := by
  obtain ⟨-, h⟩ | ⟨-, rfl⟩ := toggleOnKey_inv h
  · exact toggle_rests hw h
  · exact hw

theorem onSonarFrame_rests {g : Scene → Scene} (hg : ∀ s, Kept s (g s))
    (hview : ∀ s, (g s).frame.pViewState = s.frame.pViewState) (hpi : ∀ s, (g s).app.pi = s.app.pi)
    (hw : w.Rests env x) (h : w.onSonarFrame (fun s => .ok (g s)) = .ok w') : w'.Rests env x := by
  obtain ⟨-, rfl⟩ | ⟨i, f, s, -, hf, hs, rfl⟩ := onSonarFrame_eq_ok.mp h
  · exact hw
  · cases hs
    exact kept_rests hw hf (hg _) (hview _) (hpi _)

theorem refresh_rests (hw : w.Rests env x)
    (h : w.onSonarFrame (fun s => .ok s.refresh) = .ok w') : w'.Rests env x :=
  onSonarFrame_rests (fun s => (Steered.refresh s).kept) (fun _ => rfl) (fun _ => rfl) hw h

theorem inited_rests (hw : w.Rests env x) (h : Inited env w.toApp a) :
    World.Rests env x { w with toApp := { a with host.initialised := true } } where
  settings := by
    change a.pi.toSettings = x
    rw [h.settings]
    cases hc : env.configObject with
    | true =>
      rw [if_pos rfl]
      exact hw.stored hc
    | false =>
      have hsettings := hw.settings
      have hgeometry := hw.unstored hc
      rw [if_neg (by simp), hsettings]
      clear hw
      cases x
      simp only [Settings.geometry, ViewState.mk.injEq, Point.mk.injEq, Size.mk.injEq] at hgeometry
      obtain ⟨⟨rfl, rfl⟩, rfl, rfl⟩ := hgeometry
      rfl
  pconfig := h.pconfig
  stored hc := by
    change storedSettings a.host.config = x
    rw [h.config, if_pos hc, storedSettings_setPath]
    exact hw.stored hc
  unstored := hw.unstored
  views := hw.views

theorem step_rests {e : Event} (hedit : e.edits = false) (hw : w.Rests env x)
    (he : w.allows e = true) (h : World.step env e w = .ok w') : w'.Rests env x := by
  cases e with
  | init answer =>
    obtain ⟨a, ha, rfl⟩ := init_inv h
    exact inited_rests hw (init_ok ha)
  | deInit =>
    obtain ⟨v, hv, rfl⟩ := deInit_inv h
    have hclose : v.Rests env x := by
      obtain ⟨-, rfl⟩ | ⟨i, f, s, -, hf, hs, rfl⟩ := onSonarFrame_eq_ok.mp hv
      · exact hw
      · exact closed_rests hw hf (onClose_ok hs)
    exact rests_app hclose rfl rfl rfl
  | toolbar id => exact toggle_rests hw h
  | aisSentence answer =>
    obtain ⟨v, hv, hr⟩ := aisSentence_inv h
    obtain rfl | ⟨a, ha, rfl⟩ := hv
    · exact refresh_rests hw hr
    · exact refresh_rests ((getSonarTargets_kept ha).rests hw) hr
  | positionFix fix =>
    obtain rfl | h := positionFix_inv h
    · exact hw
    · exact refresh_rests ((storeFix_kept fix _).rests hw) h
  | colorScheme cs dilg1 =>
    exact onSonarFrame_rests (setColourScheme_kept cs) (fun _ => rfl) (fun _ => rfl)
      ((dilg1_kept dilg1 _).rests hw) h
  | getSonarTargets answer =>
    obtain ⟨a, ha, rfl⟩ := withApp_eq_ok.mp h
    exact (getSonarTargets_kept ha).rests hw
  | preferences r =>
    cases r with
    | none =>
      obtain rfl := preferences_inv h
      exact hw
    | some r => cases hedit
  | chartKey k ctrl =>
    exact repeatStep_invariant (World.Rests env x) (fun u v hu huv => toggleOnKey_rests hu huv) hw h
  | frame i e =>
    cases e with
    | move | size | northUp => cases hedit
    | close =>
      obtain ⟨f, s, hf, hs, rfl⟩ := onFrame_eq_ok.mp h
      exact closed_rests hw hf (onClose_ok hs)
    | colours cs dilg1 =>
      obtain ⟨f, hf, hacc⟩ := allows_frame he
      simp [SonarFrame.accepts] at hacc
    | key k ctrl =>
      obtain ⟨v, f, hv, hf, rfl⟩ := key_inv h
      have hsteered := Steered.zoomKey env.build ⟨f, v.toApp⟩ k
      apply kept_rests (toggleOnKey_rests hw hv) hf hsteered.kept
      · rw [hsteered.frame]
      · rw [hsteered.app]
    | _ =>
      obtain ⟨f, s, hf, hs, rfl⟩ := onFrame_eq_ok.mp h
      obtain ⟨hview, hpi⟩ := handle_settles rfl hs
      exact kept_rests hw hf (handle_kept hs (by simp) (by simp)) hview hpi
  | deleteFrame i =>
    cases h
    refine ⟨hw.settings, hw.pconfig, hw.stored, hw.unstored, fun j f hf => ?_⟩
    by_cases hj : j = i
    · simp [hj] at hf
    · exact hw.views j f (by simpa [hj] using hf)
  | destroy =>
    obtain ⟨a, ha, rfl⟩ := withApp_eq_ok.mp h
    exact (destroy_kept ha).rests hw

theorem first_init_rests {config : FileConfig} {dilg1 : Colour} {answer : Bool}
    (h : World.step env (.init answer) (World.construct env config dilg1) = .ok w) :
    w.Rests env w.pi.toSettings := by
  obtain ⟨a, ha, rfl⟩ := init_inv h
  have hi := init_ok ha
  refine ⟨rfl, hi.pconfig, fun hc => ?_, fun hc => ?_, fun i f hf => by cases hf⟩
  · change storedSettings a.host.config = a.pi.toSettings
    rw [hi.settings, hi.config, if_pos hc, if_pos hc]
    rfl
  · change a.pi.toSettings.geometry = _
    rw [hi.settings, if_neg (by simp [hc])]
    rfl

end

/-- Nothing drifts. However often the plug-in is started, stopped and toggled,
and whatever frames are shown, cut off and closed meanwhile, as long as the user neither
moves nor resizes a frame nor touches the check-box nor ends the dialog with OK, all eight
settings stay what the first `Init` has loaded, every frame has their geometry, and the
store still reads the same. -/
theorem nothing_drifts {env : Env} {config : FileConfig} {dilg1 : Colour} {answer : Bool}
    {es : List Event} {u w : World}
    (h : (machine env).Run (World.construct env config dilg1) [.init answer] u)
    (h' : (machine env).Run u es w) (hedit : ∀ e ∈ es, e.edits = false) :
    w.pi.toSettings = u.pi.toSettings ∧
      (env.configObject = true → storedSettings w.host.config = storedSettings config) ∧
      ∀ i f, w.frames i = some f →
        f.pViewState.map Owned.value = .live u.pi.toSettings.geometry := by
  obtain ⟨-, hs⟩ := System.Run.single_iff.mp h
  have hu := first_init_rests hs
  have hrun := h'.to_restrict (C := fun _ e => e.edits = false) fun _ e he => hedit e he
  have hw : w.Rests env u.pi.toSettings := by
    apply hrun.invariant (World.Rests env u.pi.toSettings) hu
    rintro v e v' hv ⟨ha, he⟩ hstep
    exact step_rests he hv ha hstep
  refine ⟨hw.settings, fun hc => ?_, hw.views⟩
  obtain ⟨a, ha, rfl⟩ := init_inv hs
  rw [hw.stored hc]
  change a.pi.toSettings = _
  rw [(init_ok ha).settings, if_pos hc]
  rfl

theorem nothing_drifts_over_sessions :
    ∃ u w, (machine .desktop).Run (World.blank .desktop) [.init true] u ∧
      (machine .desktop).Run u [.toolbar 1, .frame 0 (.mouseScroll 120), .init false, .toolbar 1,
        .toolbar 1, .frame 0 .close, .deInit, .init true] w ∧
      w.pi.toSettings = u.pi.toSettings := by
  let fs : List Event := [.toolbar 1, .frame 0 (.mouseScroll 120), .init false, .toolbar 1,
    .toolbar 1, .frame 0 .close, .deInit, .init true]
  obtain ⟨u, hu, hp⟩ := System.exists_run_of_exec (machine .desktop) (World.blank .desktop)
    [.init true] (fun u => ((machine .desktop).exec fs u).isSome) (by decide +kernel)
  obtain ⟨w, hw⟩ := Option.isSome_iff_exists.mp hp
  have hrun := System.run_of_exec hw
  refine ⟨u, w, hu, hrun, (nothing_drifts hu hrun ?_).1⟩
  simp [fs, Event.edits]

end SonarPlugin
