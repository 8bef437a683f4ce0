import SonarPlugin.Matching
import SonarPlugin.Requests

namespace SonarPlugin

open Library Relation

def Event.settles : Event → Bool
  | .aisSentence _ | .positionFix _ | .colorScheme .. | .getSonarTargets _ => true
  | .deleteFrame _ | .destroy => true
  | .frame _ (.key ..) => false
  | .frame _ e => e.settles
  | _ => false

/-- A toggle would open a frame with geometry `v`. -/
def World.ReopensAt (env : Env) (w : World) (v : ViewState) : Prop :=
  ∃ w' calls, w.toggleSonarFrame env = .ok w' ∧ w'.log = calls ++ w.log ∧
    .create w.nextFrame v.pos v.size ∈ calls

section

variable {env : Env} {w w' : World} {x : Expected}

theorem World.Orderly.evenKeys {e : Event} (h : w.Orderly e) : w.EvenKeys e := by
  rintro hs rfl
  have hs' : w.host.initialised = true := h
  simp [hs] at hs'

theorem onSonarFrame_settled {g : Scene → Scene} (hg : ∀ s, Kept s (g s))
    (hview : ∀ s, (g s).frame.pViewState = s.frame.pViewState)
    (hpi : ∀ s, (g s).app.pi = s.app.pi)
    (h : w.onSonarFrame (fun s => .ok (g s)) = .ok w') : Settled w w' := by
  obtain ⟨-, rfl⟩ | ⟨i, f, s, -, hf, hs, rfl⟩ := onSonarFrame_eq_ok.mp h
  · exact .refl _
  · cases hs
    refine .of_put hf (hg _) (hview _) ?_
    rw [hpi]

theorem onFrame_settled {i : FrameId} {e : FrameEvent} (he : (Event.frame i e).settles = true)
    (h : w.onFrame i (e.handle env.build) = .ok w') : Settled w w' := by
  obtain ⟨f, s, hf, hs, rfl⟩ := onFrame_eq_ok.mp h
  have he' : e.settles = true := by
    cases e with
    | key k ctrl => cases he
    | _ => exact he
  obtain ⟨hview, hpi⟩ := handle_settles he' hs
  refine .of_put hf (handle_kept hs ?_ ?_) hview (by rw [hpi])
  · rintro rfl
    cases he
  · rintro cs dilg1 rfl
    cases he

theorem step_settled {e : Event} (he : e.settles = true) (ha : w.allows e = true)
    (h : World.step env e w = .ok w') : Settled w w' := by
  have hrefresh (u : World) (h : u.onSonarFrame (fun s => .ok s.refresh) = .ok w') :
      Settled u w' :=
    onSonarFrame_settled (fun s => (Steered.refresh s).kept) (fun _ => rfl) (fun _ => rfl) h
  cases e with
  | init | deInit | toolbar | preferences | chartKey => cases he
  | aisSentence answer =>
    obtain ⟨v, hv, h⟩ := aisSentence_inv h
    refine .trans ?_ (hrefresh v h)
    obtain rfl | ⟨a, ha, rfl⟩ := hv
    · exact .refl _
    · exact .of_app (getSonarTargets_kept ha)
  | positionFix fix =>
    obtain rfl | h := positionFix_inv h
    · exact .refl _
    · exact .trans (.of_app (storeFix_kept fix _)) (hrefresh _ h)
  | colorScheme cs dilg1 =>
    refine .trans (.of_app (dilg1_kept dilg1 _)) ?_
    exact onSonarFrame_settled (setColourScheme_kept cs) (fun _ => rfl) (fun _ => rfl) h
  | getSonarTargets answer =>
    obtain ⟨a, ha, rfl⟩ := withApp_eq_ok.mp h
    exact .of_app (getSonarTargets_kept ha)
  | frame i e =>
    cases e with
    | key k ctrl => cases he
    | _ => exact onFrame_settled he h
  | deleteFrame i =>
    cases h
    simp only [World.allows, Bool.and_eq_true] at ha
    refine ⟨rfl, rfl, rfl, rfl, rfl, rfl, rfl, fun j f hf hlife => ⟨f, ?_, rfl, rfl⟩⟩
    have hij : j ≠ i := by
      rintro rfl
      simp [hf, hlife] at ha
    simpa [hij] using hf
  | destroy =>
    obtain ⟨a, ha, rfl⟩ := withApp_eq_ok.mp h
    exact .of_app (destroy_kept ha)

theorem Matches.stored_eq (h : Matches w x) (hx : x.opened = none) :
    storedSettings w.host.config = x.settings := by
  obtain ⟨b, hb, hnone⟩ := h.stored
  rw [hb, hnone hx]

theorem Matches.inited {a : App} (h : Matches w x) (hx : x.opened = none)
    (hconf : env.configObject = true) (hi : Inited env w.toApp a) :
    Matches { w with toApp := { a with host.initialised := true } }
      { x with inits := x.inits + 1 } where
  handlers := hi.handlers.trans (congrArg (· + 1) h.handlers)
  nextFrame := h.nextFrame
  session _ := Nat.succ_pos _
  pointer := by
    rw [hx]
    exact hi.pSonarFrame
  view o ho := by cases hx.symm.trans ho
  memory _ := by
    refine ⟨hi.pconfig.trans hconf, ?_⟩
    have hs := hi.settings
    rw [if_pos hconf] at hs
    exact hs.trans (h.stored_eq hx)
  stored := by
    refine ⟨x.settings.sonarNorthUp, ?_, fun _ => rfl⟩
    have hc := hi.config
    rw [if_pos hconf] at hc
    change storedSettings a.host.config = _
    rw [hc, storedSettings_setPath, h.stored_eq hx]

theorem Matches.deInited (h : Matches w x) (hinit : 0 < x.inits) (hd : w.deInit = .ok w') :
    Matches { w' with host.initialised := false } x.close := by
  have hclose : Matches w' x.close := by
    obtain ⟨hp, rfl⟩ | ⟨i, f, s, hp, hf, hs, rfl⟩ := onSonarFrame_eq_ok.mp hd
    · rw [Expected.close_of_none (h.opened_none hp)]
      exact h
    · exact h.closed hp hinit hf (onClose_ok hs)
  exact ⟨hclose.handlers, hclose.nextFrame, nofun, hclose.pointer, hclose.view, hclose.memory,
    hclose.stored⟩

theorem Matches.dialog {r : Option (Bool × Bool)} {a : App} (h : Matches w x)
    (hinit : 0 < x.inits) (hd : Dialog r w.toApp a) :
    Matches { w with toApp := a } (x.next env.build (.preferences r)) := by
  obtain ⟨hconf, hmem⟩ := h.memory hinit
  have hconf' : w.toApp.pi.pconfig = true := hconf
  have hs := hd.settings
  have hc := hd.config
  cases r with
  | none =>
    refine ⟨hd.handlers.trans h.handlers, h.nextFrame, fun hi => ?_,
      hd.pSonarFrame.trans h.pointer, h.view, fun _ => ?_, ?_⟩
    · exact h.session (hd.initialised.symm.trans hi)
    · exact ⟨hd.pconfig.trans hconf, hs.trans hmem⟩
    · change ∃ b, storedSettings a.host.config = _ ∧ _
      rw [hc]
      exact h.stored
  | some r =>
    have hsettings : a.pi.toSettings =
        { x.settings with sonarShowIcon := r.1, sonarUseSonar := r.2 } := by
      rw [hs, ← hmem]
      rfl
    refine ⟨hd.handlers.trans h.handlers, h.nextFrame, fun hi => ?_,
      hd.pSonarFrame.trans h.pointer, h.view, fun _ => ?_, x.settings.sonarNorthUp, ?_,
      fun _ => rfl⟩
    · exact h.session (hd.initialised.symm.trans hi)
    · exact ⟨hd.pconfig.trans hconf, hsettings⟩
    · change storedSettings a.host.config = _
      rw [hc, Option.elim_some, if_pos hconf', storedSettings_writeSettings, hsettings]
      rfl

theorem Matches.toggledOnKey {k : Key} {ctrl : Bool} (h : Matches w x) (hw : w.WellFormed)
    (hinit : 0 < x.inits) (ht : w.toggleOnKey env k ctrl = .ok w') :
    Matches w' (if k = .one && ctrl then x.toggle else x) := by
  obtain ⟨hkey, ht⟩ | ⟨hkey, rfl⟩ := toggleOnKey_inv ht
  · rw [if_pos hkey]
    exact h.toggle hw hinit ht
  · rw [if_neg (by simp [hkey])]
    exact h

theorem Matches.chartKey {k : Key} {ctrl : Bool} (h : Matches w x) (hw : w.WellFormed)
    (hinit : (decide (k = .one) && ctrl) = true → 0 < x.inits)
    (hs : World.step env (.chartKey k ctrl) w = .ok w') :
    Matches w' (x.next env.build (.chartKey k ctrl)) := by
  dsimp only [Expected.next]
  split
  next hkey =>
    rw [← h.handlers]
    have hall : w'.WellFormed ∧ 0 < (Expected.toggle^[w.host.handlers] x).inits ∧
        Matches w' (Expected.toggle^[w.host.handlers] x) := by
      refine repeatStep_refines (fun u y => u.WellFormed ∧ 0 < y.inits ∧ Matches u y)
        Expected.toggle ?_ ⟨hw, hinit hkey, h⟩ hs
      rintro u v y ⟨hu, hy, hm⟩ ht
      dsimp only [World.onKeyPress, World.toggleOnKey] at ht
      rw [if_pos hkey] at ht
      exact ⟨(toggle_effects ht).wellFormed hu, (toggle_inits y).symm ▸ hy, hm.toggle hu hy ht⟩
    exact hall.2.2
  next hkey =>
    refine repeatStep_invariant (fun u => Matches u x) ?_ h hs
    intro u v hu ht
    dsimp only [World.onKeyPress, World.toggleOnKey] at ht
    rw [if_neg hkey] at ht
    cases ht
    exact hu

theorem Matches.moved {i : FrameId} {p : Point Int32} (h : Matches w x)
    (hs : w.onFrame i (FrameEvent.handle env.build (.move p)) = .ok w') :
    Matches w' (x.move i p) := by
  obtain ⟨f, s, hf, hs', rfl⟩ := onFrame_eq_ok.mp hs
  have hk : Kept ⟨f, w.toApp⟩ s := handle_kept hs' (by simp) (by simp)
  obtain ⟨v, hv, rfl⟩ := onMove_ok hs'
  refine h.adjusted (fun o => { o with moved := some p }) (fun _ => rfl) hf hk rfl ?_
  intro o u _ _ hu hval
  obtain rfl : v = u := Ptr.live_unique hv hu
  exact ⟨_, rfl, congrArg (ViewState.mk p) (congrArg ViewState.size hval)⟩

theorem Matches.sized {i : FrameId} {client window : Size Int32} {disk : String → Bitmap}
    (h : Matches w x) (hw : w.WellFormed) (hraw : ∀ f, w.frames i = some f → f.life ≠ .raw)
    (hs : w.onFrame i (Scene.onSize env.build client window disk) = .ok w') :
    Matches w' (x.size i (ViewState.sizeOf client window env.build.platform)) := by
  obtain ⟨f, s, hf, hs', rfl⟩ := onFrame_eq_ok.mp hs
  have hk : Kept ⟨f, w.toApp⟩ s :=
    handle_kept (e := .size client window disk) hs' (by simp) (by simp)
  have hnorth : s.app.pi.sonarNorthUp = w.pi.sonarNorthUp := by
    obtain ⟨-, rfl⟩ | ⟨v, -, -, hr⟩ := onSize_ok hs'
    · rfl
    · rw [hr.app]
  let size := ViewState.sizeOf client window env.build.platform
  refine h.adjusted (fun o => { o with sized := some size }) (fun _ => rfl) hf hk hnorth ?_
  intro o u ho hid hu hval
  obtain ⟨hnull, -⟩ | ⟨v, hv, -, hr⟩ := onSize_ok hs'
  · exfalso
    obtain ⟨g, hg, hlife⟩ := hw.pointer i (by rw [h.pointer, ho, ← hid]; rfl)
    obtain rfl : f = g := Option.some.inj (hf.symm.trans hg)
    have hcreated : f.life = .created := by
      cases hl : f.life with
      | raw => exact absurd hl (hraw f hf)
      | created => rfl
      | closed => exact absurd hl hlife
    have hlive := ((hw.sound i f hf).created hcreated).2.1
    have hnull' : f.pCanvas = .null := hnull
    simp [hnull'] at hlive
  · obtain rfl : v = u := Ptr.live_unique hv hu
    refine ⟨_, by rw [hr.frame], ?_⟩
    rw [ViewState.record_eq]
    exact congrArg (ViewState.mk · _) (congrArg ViewState.pos hval)

theorem Matches.frame {i : FrameId} {e : FrameEvent} (h : Matches w x) (hw : w.Tracked)
    (he : w.allows (.frame i e) = true) (hs : World.step env (.frame i e) w = .ok w') :
    Matches w' (x.next env.build (.frame i e)) := by
  obtain ⟨f, hf, hacc⟩ := allows_frame he
  have hsettle (hset : (Event.frame i e).settles = true) : Matches w' x :=
    h.settled hw.wellFormed (step_settled hset he hs)
  have hpointer (hlife : f.life = .created) : w.pi.pSonarFrame = some i :=
    (hw.isOpen i).mp ⟨f, hf, by simp [hlife]⟩
  have hinit (hlife : f.life = .created) : 0 < x.inits := by
    apply h.session
    by_contra hs
    have hp := hw.session (by simpa using hs)
    simp [hpointer hlife] at hp
  cases e with
  | paint | timer | restoration | mouseDown | mouseMoved | mouseReleased | mouseScroll =>
    exact hsettle rfl
  | colours => simp [SonarFrame.accepts] at hacc
  | move p => exact h.moved hs
  | size client window disk =>
    refine h.sized hw.wellFormed (fun g hg hraw => ?_) hs
    obtain rfl : f = g := Option.some.inj (hf.symm.trans hg)
    simp [SonarFrame.accepts, hraw] at hacc
  | northUp value =>
    have hlife : f.life = .created := by simpa [SonarFrame.accepts] using hacc
    obtain ⟨g, s, hg, hs', rfl⟩ := onFrame_eq_ok.mp hs
    exact h.northUp (hpointer hlife) hg hs'
  | key k ctrl =>
    have hlife : f.life = .created := by simpa [SonarFrame.accepts] using hacc
    obtain ⟨v, g, hv, hg, rfl⟩ := key_inv hs
    have hm := h.toggledOnKey hw.wellFormed (hinit hlife) hv
    have hwv := (toggleOnKey_effects hv).wellFormed hw.wellFormed
    have hz : FrameEvent.handle env.build (.key k ctrl) ⟨g, v.toApp⟩ =
        .ok (Scene.zoomKey env.build k ⟨g, v.toApp⟩) := rfl
    have hset := handle_settles rfl hz
    exact hm.settled hwv (.of_put hg (Steered.zoomKey env.build _ k).kept hset.1 (by rw [hset.2]))
  | close =>
    have hlife : f.life = .created := by simpa [SonarFrame.accepts] using hacc
    obtain ⟨g, s, hg, hs', rfl⟩ := onFrame_eq_ok.mp hs
    exact h.closed (hpointer hlife) (hinit hlife) hg (onClose_ok hs')

theorem step_matches {e : Event} (h : Matches w x) (hw : w.Tracked)
    (hconf : env.configObject = true) (he : (orderly env).allowed w e)
    (hs : World.step env e w = .ok w') : Matches w' (x.next env.build e) := by
  have hsession (hin : w.host.initialised = true) : 0 < x.inits := h.session hin
  cases e with
  | init answer =>
    obtain ⟨a, ha, rfl⟩ := init_inv hs
    have hout : w.host.initialised = false := by simpa [World.inOrder] using he.1.2
    exact h.inited (h.opened_none (hw.session hout)) hconf (init_ok ha)
  | deInit =>
    obtain ⟨v, hv, rfl⟩ := deInit_inv hs
    exact h.deInited (hsession he.1.2) hv
  | toolbar id => exact h.toggle hw.wellFormed (hsession he.1.2) hs
  | chartKey k ctrl =>
    refine h.chartKey hw.wellFormed (fun hkey => hsession ?_) hs
    simp only [Bool.and_eq_true, decide_eq_true_eq] at hkey
    obtain ⟨rfl, rfl⟩ := hkey
    exact he.2
  | frame i e => exact h.frame hw he.1.1 hs
  | preferences r =>
    obtain rfl := preferences_inv hs
    have hinit : 0 < w.host.handlers := he.2
    exact h.dialog (h.handlers ▸ hinit) (dialog_spec r w.toApp)
  | aisSentence | positionFix | colorScheme | getSonarTargets | deleteFrame | destroy =>
    exact h.settled hw.wellFormed (step_settled rfl he.1.1 hs)

theorem construct_matches (env : Env) (config : FileConfig) (dilg1 : Colour) :
    Matches (World.construct env config dilg1) (.start (storedSettings config)) where
  handlers := rfl
  nextFrame := rfl
  session := nofun
  pointer := rfl
  view := nofun
  memory := nofun
  stored := ⟨(storedSettings config).sonarNorthUp, rfl, fun _ => rfl⟩

theorem run_matches {config : FileConfig} {dilg1 : Colour} {es : List Event}
    (hconf : env.configObject = true)
    (h : (orderly env).Run (World.construct env config dilg1) es w) :
    w.Tracked ∧ Matches w (.after env.build (storedSettings config) es) := by
  refine h.refines (Expected.next env.build) (fun u y => u.Tracked ∧ Matches u y)
    ⟨construct_tracked env config dilg1, construct_matches env config dilg1⟩ ?_
  rintro u y e v ⟨hu, hm⟩ he hs
  exact ⟨step_tracked hu he.1 he.2.evenKeys hs, step_matches hm hu hconf he hs⟩

theorem Matches.reopens (h : Matches w x) (hx : x.opened = none) (hinit : 0 < x.inits) :
    w.ReopensAt env x.settings.geometry := by
  have hp : w.pi.pSonarFrame = none := by rw [h.pointer, hx]; rfl
  obtain ⟨s, hnew, hs⟩ := toggle_opens env hp
  obtain ⟨calls, hlog, -, hmem⟩ := hnew.log
  refine ⟨_, calls ++ [.toggleSonarFrame], hs, ?_, ?_⟩
  · change s.app.log = _
    rw [hlog, List.append_assoc]
    rfl
  · rw [← (h.memory hinit).2]
    exact List.mem_append_left _ hmem

end

/-- Whenever no frame is open after the first `Init`, memory and store agree on
all eight settings and hold what a user expects. The next frame is created with
that geometry, whatever comes before it in this process or in a later one that
finds what this one wrote. -/
theorem settings_kept {env : Env} {config : FileConfig} {dilg1 : Colour} {es : List Event}
    {w : World} (hconf : env.configObject = true)
    (h : (orderly env).Run (World.construct env config dilg1) es w)
    (hinit : 0 < es.countP Event.isInit) (hclosed : ∀ i, ¬ w.IsOpen i) :
    w.toApp.loadConfig.1 = true ∧ w.toApp.loadConfig.2.pi.toSettings = w.pi.toSettings ∧
      w.pi.toSettings = (Expected.after env.build (storedSettings config) es).settings ∧
      w.pi.toSettings.choices =
        ((lastOf Event.northUp? es).getD (storedSettings config).sonarNorthUp,
          ((lastOf Event.flags? es).map Prod.fst).getD (storedSettings config).sonarShowIcon,
          ((lastOf Event.flags? es).map Prod.snd).getD (storedSettings config).sonarUseSonar) ∧
      (∀ fs v, (orderly env).Run w fs v → (∀ e ∈ fs, e.mayToggle = false) →
        v.ReopensAt env w.pi.toSettings.geometry) ∧
      ∀ env' dilg1' fs v, env'.configObject = true →
        (orderly env').Run (World.construct env' w.host.config dilg1') fs v →
        (∀ e ∈ fs, e.mayToggle = false) → 0 < fs.countP Event.isInit →
        v.ReopensAt env' w.pi.toSettings.geometry := by
  obtain ⟨hw, hm⟩ := run_matches hconf h
  have hinit' : 0 < (Expected.after env.build (storedSettings config) es).inits := by
    rw [← hm.handlers, run_handlers h.of_restrict.of_restrict]
    exact hinit
  have hx := hm.opened_none (hw.wellFormed.pointer_none hclosed)
  obtain ⟨hpconf, hmem⟩ := hm.memory hinit'
  have hstored := (hm.stored_eq hx).trans hmem.symm
  have hpconf' : w.toApp.pi.pconfig = true := hpconf
  refine ⟨?_, ?_, hmem, ?_, ?_, ?_⟩
  · rw [App.loadConfig, if_pos hpconf']
  · rw [App.loadConfig, if_pos hpconf']
    exact hstored
  · rw [hmem]
    exact Expected.after_choices es
  · intro fs v hv hfs
    obtain ⟨hnone, hgeom⟩ := Expected.foldl_closed env.build hx hfs
    rw [← Expected.after_append] at hnone hgeom
    have hrun := h.append hv
    obtain ⟨-, hmv⟩ := run_matches hconf hrun
    rw [hmem, ← hgeom]
    refine hmv.reopens hnone ?_
    rw [← hmv.handlers, run_handlers hrun.of_restrict.of_restrict, List.countP_append]
    omega
  · intro env' dilg1' fs v hconf' hv hfs hinits
    obtain ⟨-, hmv⟩ := run_matches hconf' hv
    obtain ⟨hnone, hgeom⟩ := Expected.foldl_closed (x := .start (storedSettings w.host.config))
      env'.build rfl hfs
    have hgeom' : (storedSettings w.host.config).geometry = w.pi.toSettings.geometry := by
      rw [hstored]
    rw [← hgeom', show (storedSettings w.host.config).geometry = _ from hgeom.symm]
    refine hmv.reopens hnone ?_
    rw [← hmv.handlers, run_handlers hv.of_restrict.of_restrict]
    exact hinits

theorem settings_kept_after_first_frame :
    ∃ w : World, w.toApp.loadConfig.2.pi.toSettings = w.pi.toSettings ∧
      w.pi.toSettings.geometry.pos = ⟨7, 9⟩ ∧ w.pi.toSettings.choices = (true, true, true) := by
  let es : List Event :=
    [.init true, .toolbar 1, .frame 0 (.move ⟨7, 9⟩), .frame 0 (.northUp true), .frame 0 .close]
  obtain ⟨w, hrun, hp⟩ := System.exists_run_of_exec (hosted .desktop) (World.blank .desktop) es
    (fun w => w.pi.pSonarFrame.isNone) (by decide +kernel)
  have horderly : (orderly .desktop).Run (World.blank .desktop) es w := by
    apply hrun.to_restrict
    intro u e he
    simp only [es, List.mem_cons, List.not_mem_nil, or_false] at he
    obtain rfl | rfl | rfl | rfl | rfl := he <;> exact trivial
  have hclosed (i : FrameId) : ¬ w.IsOpen i := by
    rw [(run_matches rfl horderly).1.isOpen, Option.isNone_iff_eq_none.mp hp]
    nofun
  obtain ⟨-, hload, hsettings, hchoices, -⟩ := settings_kept rfl horderly (by decide) hclosed
  refine ⟨w, hload, ?_, ?_⟩
  · rw [hsettings]
    rfl
  · rw [hchoices]
    rfl

end SonarPlugin
