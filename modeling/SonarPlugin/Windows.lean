import SonarPlugin.LifecycleLaws
import SonarPlugin.Targets
import SonarPlugin.Requests
import SonarPlugin.Rescale

namespace SonarPlugin

open Library Relation

def World.lifecycle (w : World) : Lifecycle where
  initialised := w.host.initialised
  alive := w.host.alive
  handlers := w.host.handlers
  current := w.pi.pSonarFrame
  lives i := (w.frames i).map SonarFrame.life
  next := w.nextFrame

/-- Every frame object knows its number and has a canvas once its window exists. -/
def World.Numbered (w : World) : Prop :=
  ∀ i f, w.frames i = some f → f.this = i ∧ (f.life ≠ .raw → f.pCanvas.isLive = true)

/-- What the lifecycle is a true picture of. -/
structure World.Coherent (w : World) : Prop where
  wellFormed : w.WellFormed
  keeps : w.Keeps
  numbered : w.Numbered

section

variable {env : Env} {b : Bool} {w w' : World} {i : FrameId} {f : SonarFrame} {s : Scene}

theorem put_numbered (hw : w.Numbered) (hthis : s.frame.this = i)
    (hcanvas : s.frame.life ≠ .raw → s.frame.pCanvas.isLive = true) : (w.put i s).Numbered := by
  intro j g hg
  by_cases hj : j = i
  · subst hj
    rw [put_frames_self] at hg
    cases hg
    exact ⟨hthis, hcanvas⟩
  · rw [put_frames_of_ne w s hj] at hg
    exact hw j g hg

theorem Effect.numbered (h : Effect env b w w') (hw : w.WellFormed) (hn : w.Numbered) :
    w'.Numbered := by
  cases h with
  | app h => exact hn
  | @handled _ _ j f s hf h =>
    obtain ⟨hthis, hcanvas⟩ := hn j f hf
    refine put_numbered hn (h.this.trans hthis) ?_
    rw [h.life, Ptr.isLive_iff_misuse?]
    intro hraw
    exact (h.members .canvas (by simp)).trans (Ptr.isLive_iff_misuse?.mp (hcanvas hraw))
  | @closed _ _ j f s hf h =>
    obtain ⟨hthis, hcanvas⟩ := hn j f hf
    have hlife := (hw.sound j f hf).life_of_timer h.timer
    refine put_numbered hn (by rw [h.frame]; exact hthis) fun _ => ?_
    rw [h.frame]
    exact hcanvas (by simp [hlife])
  | @opened _ s hp h =>
    refine put_numbered hn h.this fun hraw => ?_
    cases hok : env.dialogOk w.nextFrame with
    | true => rw [(h.built hok).2.1]; rfl
    | false =>
      have hlife := h.life
      simp only [hok, Bool.false_eq_true, if_false] at hlife
      exact absurd hlife hraw
  | @deleted _ _ j f hf hlife =>
    intro k g hg
    by_cases hk : k = j
    · simp [hk] at hg
    · exact hn k g (by simpa [hk] using hg)

theorem Effects.numbered (h : Effects env b w w') (hw : w.WellFormed) (hn : w.Numbered) :
    w'.Numbered := by
  induction h with
  | refl => exact hn
  | tail hv h ih => exact h.numbered (Effects.wellFormed hv hw) ih

theorem step_numbered {e : Event} (hw : w.WellFormed) (hn : w.Numbered)
    (he : w.allows e = true) (h : World.step env e w = .ok w') : w'.Numbered := by
  obtain ⟨answer, a, -, ha, rfl⟩ | ⟨v, -, hv, rfl⟩ | ⟨r, a, -, hd, rfl⟩ | ⟨-, h⟩ :=
    step_cases he h
  · exact hn
  · have hd : Effects env false w v := deInit_effects hv
    exact hd.numbered hw hn
  · exact hn
  · exact h.numbered hw hn

theorem step_coherent {e : Event} (hw : w.Coherent) (he : w.allows e = true)
    (h : World.step env e w = .ok w') : w'.Coherent :=
  ⟨step_wellFormed hw.wellFormed he h, step_keeps hw.keeps he h,
    step_numbered hw.wellFormed hw.numbered he h⟩

theorem toggle_coherent (hw : w.Coherent) (h : w.toggleSonarFrame env = .ok w') : w'.Coherent where
  wellFormed := (toggle_effects h).wellFormed hw.wellFormed
  keeps := (toggle_feedsKept h).keeps hw.keeps
  numbered := (toggle_effects h).numbered hw.wellFormed hw.numbered

theorem construct_coherent (env : Env) (config : FileConfig) (dilg1 : Colour) :
    (World.construct env config dilg1).Coherent where
  wellFormed := construct_wellFormed env config dilg1
  keeps := construct_keeps env config dilg1
  numbered i f hf := by
    change none = some f at hf
    cases hf

theorem lifecycle_lives (hf : w.frames i = some f) : w.lifecycle.lives i = some f.life := by
  simp [World.lifecycle, hf]

theorem frame_of_lives {life : Life} (h : w.lifecycle.lives i = some life) :
    ∃ f, w.frames i = some f ∧ f.life = life :=
  Option.map_eq_some_iff.mp h

theorem lives_put (w : World) (i : FrameId) (s : Scene) :
    (w.put i s).lifecycle.lives = Function.update w.lifecycle.lives i (some s.frame.life) := by
  funext j
  by_cases hj : j = i
  · subst hj
    simp [World.lifecycle, put_frames_self]
  · simp [World.lifecycle, put_frames_of_ne w s hj, hj]

theorem lifecycle_handled (hf : w.frames i = some f) (h : Kept ⟨f, w.toApp⟩ s) :
    (w.put i s).lifecycle = w.lifecycle := by
  have hlives : (w.put i s).lifecycle.lives = w.lifecycle.lives := by
    rw [lives_put, h.life]
    exact Function.update_eq_self_iff.mpr (lifecycle_lives hf).symm
  have hhost : s.app.host = w.host := h.host
  have hp : s.app.pi.pSonarFrame = w.pi.pSonarFrame := by rw [h.pi]
  calc (w.put i s).lifecycle
      = ⟨s.app.host.initialised, s.app.host.alive, s.app.host.handlers, s.app.pi.pSonarFrame,
          (w.put i s).lifecycle.lives, w.nextFrame⟩ := rfl
    _ = w.lifecycle := by rw [hlives, hhost, hp]; rfl

theorem lifecycle_closed (h : Closed ⟨f, w.toApp⟩ s) : (w.put i s).lifecycle =
    { w.lifecycle.setLife i (some .closed) with current := none } := by
  obtain ⟨v, -, hpi⟩ := h.pi
  have hlife : s.frame.life = .closed := by rw [h.frame]
  have hp : s.app.pi.pSonarFrame = none := by rw [hpi]
  calc (w.put i s).lifecycle
      = ⟨s.app.host.initialised, s.app.host.alive, s.app.host.handlers, s.app.pi.pSonarFrame,
          (w.put i s).lifecycle.lives, w.nextFrame⟩ := rfl
    _ = _ := by rw [lives_put, hlife, h.host, hp]; rfl

theorem lifecycle_opened (h : NewFrame env w s) :
    World.lifecycle { w.put w.nextFrame s with nextFrame := w.nextFrame + 1 } =
      w.lifecycle.openNext env.dialogOk := by
  have hlives := lives_put w w.nextFrame s
  have hp : s.app.pi.pSonarFrame = some w.nextFrame := by rw [h.pi]
  calc World.lifecycle { w.put w.nextFrame s with nextFrame := w.nextFrame + 1 }
      = ⟨s.app.host.initialised, s.app.host.alive, s.app.host.handlers, s.app.pi.pSonarFrame,
          (w.put w.nextFrame s).lifecycle.lives, w.nextFrame + 1⟩ := rfl
    _ = _ := by rw [hlives, h.life, h.host, hp]; rfl

theorem onFrame_ok {h : Scene → Except Fault Scene} (hf : w.frames i = some f)
    (hs : h ⟨f, w.toApp⟩ = .ok s) : w.onFrame i h = .ok (w.put i s) :=
  onFrame_eq_ok.mpr ⟨f, s, hf, hs, rfl⟩

theorem onFrame_error {h : Scene → Except Fault Scene} {x : Fault} (hf : w.frames i = some f)
    (hs : h ⟨f, w.toApp⟩ = .error x) : w.onFrame i h = .error x := by
  rw [World.onFrame, hf]
  change h ⟨f, w.toApp⟩ >>= _ = _
  rw [hs]
  rfl

theorem onClose_shown (i : FrameId) (hsound : ∀ i f, w.frames i = some f → f.Sound)
    (hn : w.Numbered) :
    w.lifecycle.close i = (w.onFrame i Scene.onClose).map World.lifecycle := by
  cases hf : w.frames i with
  | none =>
    have hlife : w.lifecycle.lives i = none := by simp [World.lifecycle, hf]
    rw [World.onFrame, hf, Lifecycle.close, Lifecycle.useTimer, hlife]
    rfl
  | some f =>
    have hs := hsound i f hf
    have hthis := (hn i f hf).1
    have hlives := lifecycle_lives hf
    cases hlife : f.life with
    | raw =>
      rw [hlife] at hlives
      have hfault := onClose_fault (s := ⟨f, w.toApp⟩) (hs.raw hlife)
      rw [Lifecycle.close_raw hlives, onFrame_error hf hfault, hthis]
      rfl
    | created =>
      rw [hlife] at hlives
      obtain ⟨t, ht⟩ := onClose_total (s := ⟨f, w.toApp⟩) (hs.created hlife).1 hs.viewState
      rw [Lifecycle.close_created hlives, onFrame_ok hf ht]
      exact congrArg Except.ok (lifecycle_closed (onClose_ok ht)).symm
    | closed =>
      rw [hlife] at hlives
      have hfault := onClose_fault (s := ⟨f, w.toApp⟩) (hs.closed hlife)
      rw [Lifecycle.close, Lifecycle.useTimer, hlives, onFrame_error hf hfault, hthis]
      rfl

theorem toggle_shown (env : Env) (hw : w.Coherent) :
    w.lifecycle.toggle env.dialogOk = (w.toggleSonarFrame env).map World.lifecycle := by
  let v : World := { w with toApp := w.toApp.note .toggleSonarFrame }
  cases hp : w.pi.pSonarFrame with
  | none =>
    obtain ⟨s, hnew, hs⟩ := toggle_opens env hp
    have hc : w.lifecycle.current = none := hp
    rw [hs, Lifecycle.toggle_none hc]
    exact congrArg Except.ok (lifecycle_opened (w := v) hnew).symm
  | some i =>
    have hc : w.lifecycle.current = some i := hp
    have htoggle : w.toggleSonarFrame env = v.onFrame i Scene.onClose := by
      simp only [World.toggleSonarFrame, App.note, hp]
      rfl
    rw [htoggle, Lifecycle.toggle_some hc]
    exact onClose_shown (w := v) i hw.wellFormed.sound hw.numbered

theorem toggleOnKey_shown (env : Env) (k : Key) (ctrl : Bool) (hw : w.Coherent) :
    w.lifecycle.toggleOnKey env.dialogOk k ctrl =
      (w.toggleOnKey env k ctrl).map World.lifecycle := by
  unfold Lifecycle.toggleOnKey World.toggleOnKey
  split
  · exact toggle_shown env hw
  · rfl

theorem toggleOnKey_coherent {k : Key} {ctrl : Bool} (hw : w.Coherent)
    (h : w.toggleOnKey env k ctrl = .ok w') : w'.Coherent := by
  obtain ⟨-, h⟩ | ⟨-, rfl⟩ := toggleOnKey_inv h
  · exact toggle_coherent hw h
  · exact hw

theorem deInit_shown (hw : w.Coherent) :
    w.lifecycle.closeCurrent = w.deInit.map World.lifecycle := by
  cases hp : w.pi.pSonarFrame with
  | none =>
    have hc : w.lifecycle.current = none := hp
    rw [Lifecycle.closeCurrent, hc, World.deInit, World.onSonarFrame, hp]
    rfl
  | some i =>
    have hc : w.lifecycle.current = some i := hp
    rw [Lifecycle.closeCurrent, hc, World.deInit, World.onSonarFrame, hp]
    exact onClose_shown i hw.wellFormed.sound hw.numbered

theorem onSonarFrame_shown {g : Scene → Scene} (hw : w.WellFormed) (hg : ∀ s, Kept s (g s)) :
    (w.onSonarFrame fun s => .ok (g s)).map World.lifecycle = .ok w.lifecycle := by
  unfold World.onSonarFrame
  cases hp : w.pi.pSonarFrame with
  | none => rfl
  | some i =>
    obtain ⟨f, hf, -⟩ := hw.pointer i hp
    have hok := onFrame_ok (h := fun s => .ok (g s)) hf rfl
    dsimp only
    rw [hok]
    exact congrArg Except.ok (lifecycle_handled hf (hg _))

theorem lifecycle_app {a : App} (h : AppKept w.toApp a) (halive : a.host.alive = w.host.alive) :
    World.lifecycle { w with toApp := a } = w.lifecycle := by
  calc World.lifecycle { w with toApp := a }
      = ⟨a.host.initialised, a.host.alive, a.host.handlers, a.pi.pSonarFrame, w.lifecycle.lives,
          w.nextFrame⟩ := rfl
    _ = w.lifecycle := by rw [h.initialised, halive, h.handlers, h.pSonarFrame]; rfl

theorem wellFormed_app {a : App} (hw : w.WellFormed) (h : AppKept w.toApp a) :
    World.WellFormed { w with toApp := a } :=
  ⟨hw.fresh, fun i hi => hw.pointer i (h.pSonarFrame ▸ hi), hw.sound⟩

abbrev FaultsOnTargets {α : Type} (r : Except Fault α) : Prop :=
  FaultsIn (fun x => ∃ m, x = .sonarTargets m) r

theorem FaultsOnTargets.total {α : Type} {r : Except Fault α} (h : FaultsOnTargets r)
    (hspares : SparesTargets r) : ∃ a, r = .ok a := by
  cases hr : r with
  | ok a => exact ⟨a, rfl⟩
  | error x =>
    obtain ⟨m, rfl⟩ := h x hr
    exact absurd rfl (hspares _ hr m)

theorem deleteSonarTargets_faults (a : App) : FaultsOnTargets a.deleteSonarTargets := by
  unfold App.deleteSonarTargets
  split
  · exact .ok _
  · exact .ok _
  · exact .error ⟨_, rfl⟩

theorem init_total (env : Env) (answer : Bool) {a : App} (ha : a.pi.sonarTargets ≠ .dangling) :
    ∃ c, a.init env answer = .ok c := by
  refine FaultsOnTargets.total ?_ (init_spares env answer ha)
  exact FaultsIn.bind (deleteSonarTargets_faults _) fun _ => .ok _

theorem getSonarTargets_total (answer : Bool) {a : App} (ha : a.pi.sonarTargets ≠ .dangling) :
    ∃ c, a.getSonarTargets answer = .ok c := by
  refine FaultsOnTargets.total (FaultsIn.bind (deleteSonarTargets_faults a) fun _ => .ok _) ?_
  exact FaultsIn.bind (deleteSonarTargets_spares ha) fun _ => .ok _

theorem destroy_total {a : App} (ha : a.pi.sonarTargets ≠ .dangling) : ∃ c, a.destroy = .ok c := by
  refine FaultsOnTargets.total (FaultsIn.bind (deleteSonarTargets_faults a) fun _ => .ok _) ?_
  exact FaultsIn.bind (deleteSonarTargets_spares ha) fun _ => .ok _

theorem withApp_ok {g : App → Except Fault App} {a : App} (h : g w.toApp = .ok a) :
    w.withApp g = .ok { w with toApp := a } :=
  withApp_eq_ok.mpr ⟨a, h, rfl⟩

theorem init_shown (answer : Bool) (hw : w.Coherent) :
    Lifecycle.step env (.init answer) w.lifecycle =
      (World.step env (.init answer) w).map World.lifecycle := by
  obtain ⟨c, hc⟩ := init_total env answer hw.keeps.valid
  have hi := init_ok hc
  obtain ⟨u, t, v, hu, ht, hv, -, rfl⟩ := init_cases hc
  have halive : (v.getAISTargetArray answer).host.alive = w.host.alive :=
    (getAISTargetArray_data answer v).2.trans
      (hv.alive.trans ((deleteSonarTargets_data ht).2.trans hu.alive))
  have hstep : World.step env (.init answer) w = .ok
      { w with toApp := { v.getAISTargetArray answer with host.initialised := true } } := by
    change (w.withApp (App.init env answer) >>= _) = _
    rw [withApp_ok hc]
    rfl
  rw [hstep]
  change Except.ok (Lifecycle.mk true w.host.alive (w.host.handlers + 1) none w.lifecycle.lives
    w.nextFrame) = Except.ok (Lifecycle.mk true (v.getAISTargetArray answer).host.alive
    (v.getAISTargetArray answer).host.handlers (v.getAISTargetArray answer).pi.pSonarFrame
    w.lifecycle.lives w.nextFrame)
  rw [halive, hi.handlers, hi.pSonarFrame]

theorem getSonarTargets_shown (answer : Bool) (hw : w.Coherent) :
    ∃ v, w.withApp (App.getSonarTargets answer) = .ok v ∧ v.lifecycle = w.lifecycle ∧
      v.WellFormed := by
  obtain ⟨c, hc⟩ := getSonarTargets_total answer hw.keeps.valid
  have hkept := getSonarTargets_kept hc
  have halive : c.host.alive = w.host.alive := by
    obtain ⟨u, hu, h⟩ := bind_eq_ok.mp hc
    cases h
    exact (getAISTargetArray_data answer u).2.trans (deleteSonarTargets_data hu).2
  exact ⟨_, withApp_ok hc, lifecycle_app hkept halive, wellFormed_app hw.wellFormed hkept⟩

theorem refresh_shown (hw : w.WellFormed) :
    (w.onSonarFrame fun s => .ok s.refresh).map World.lifecycle = .ok w.lifecycle :=
  onSonarFrame_shown hw fun s => (Steered.refresh s).kept

theorem aisSentence_shown (answer : Bool) (hw : w.Coherent) :
    (World.step env (.aisSentence answer) w).map World.lifecycle = .ok w.lifecycle := by
  change (w.updateTargets answer >>= _).map World.lifecycle = _
  unfold World.updateTargets
  split
  · obtain ⟨v, hv, hlife, hwv⟩ := getSonarTargets_shown answer hw
    rw [hv, ← hlife]
    exact refresh_shown hwv
  · exact refresh_shown hw.wellFormed

theorem positionFix_shown (x : PositionFix) (hw : w.Coherent) :
    (World.step env (.positionFix x) w).map World.lifecycle = .ok w.lifecycle := by
  change (w.setPositionFix x).map World.lifecycle = _
  unfold World.setPositionFix
  split
  · exact refresh_shown (wellFormed_app hw.wellFormed (storeFix_kept x w.toApp))
  · rfl

/-- A handler completes on every frame that can get its event, unless the
frame is to be rendered or closed without a timer. -/
theorem accepted_total (build : Build) {e : FrameEvent} {a : App} (hs : f.Sound)
    (hacc : f.accepts e = true)
    (hrender : e.renders = true → f.life = .created) : ∃ t, e.handle build ⟨f, a⟩ = .ok t := by
  obtain ⟨v, hv⟩ := Ptr.isLive_iff.mp hs.viewState
  cases e with
  | move p => exact ⟨_, by rw [FrameEvent.handle, Scene.onMove, hv]; rfl⟩
  | size client window disk =>
    obtain ⟨ht, hc, -⟩ := hs.created (hrender rfl)
    obtain ⟨c, hc'⟩ := Ptr.isLive_iff.mp hc
    obtain ⟨t, ht⟩ := render_total build disk (s := ⟨{ f with
      pViewState := .live ⟨v.handle, v.value.record build.platform client window⟩ }, a⟩)
      ht hc hs.imgData
    refine ⟨t, ?_⟩
    rw [FrameEvent.handle, Scene.onSize, hc', hv]
    exact ht
  | paint disk =>
    obtain ⟨ht, hc, -⟩ := hs.created (hrender rfl)
    obtain ⟨c, hc'⟩ := Ptr.isLive_iff.mp hc
    obtain ⟨t, ht⟩ := render_total build disk (s := ⟨{ f with repaintDue := false }, a⟩) ht hc hs.imgData
    refine ⟨t, ?_⟩
    rw [FrameEvent.handle, Scene.paintEvent, hc']
    exact ht
  | northUp value =>
    have hlife : f.life = .created := by simpa [SonarFrame.accepts] using hacc
    obtain ⟨x, hx⟩ := Ptr.isLive_iff.mp (hs.created hlife).2.2
    exact ⟨_, by rw [FrameEvent.handle, Scene.checkNorthUp, hx]; rfl⟩
  | colours cs dilg1 => simp [SonarFrame.accepts] at hacc
  | close =>
    have hlife : f.life = .created := by simpa [SonarFrame.accepts] using hacc
    exact onClose_total (hs.created hlife).1 hs.viewState
  | _ => exact ⟨_, rfl⟩

theorem closed_render_fault (build : Build) {e : FrameEvent} {a : App} (hs : f.Sound)
    (hcanvas : f.life ≠ .raw → f.pCanvas.isLive = true) (hlife : f.life = .closed)
    (hrender : e.renders = true) :
    e.handle build ⟨f, a⟩ = .error (.member f.this .render .timer .dangling) := by
  obtain ⟨v, hv⟩ := Ptr.isLive_iff.mp hs.viewState
  obtain ⟨c, hc⟩ := Ptr.isLive_iff.mp (hcanvas (by simp [hlife]))
  cases e with
  | size client window disk =>
    rw [FrameEvent.handle, Scene.onSize, hc, hv]
    exact render_fault (hs.closed hlife)
  | paint disk =>
    rw [FrameEvent.handle, Scene.paintEvent, hc]
    exact render_fault (hs.closed hlife)
  | _ => cases hrender

theorem render_shown {e : FrameEvent} (hw : w.Coherent) (hf : w.frames i = some f)
    (hacc : f.accepts e = true) (hrender : e.renders = true) :
    w.lifecycle.useTimer .render i = (w.onFrame i (e.handle env.build)).map World.lifecycle := by
  have hs := hw.wellFormed.sound i f hf
  obtain ⟨hthis, hcanvas⟩ := hw.numbered i f hf
  have hlives := lifecycle_lives hf
  have hne : e ≠ .close ∧ ∀ cs dilg1, e ≠ .colours cs dilg1 := by
    cases e with
    | size | paint => simp
    | _ => cases hrender
  cases hlife : f.life with
  | raw =>
    cases e with
    | size | paint => simp [SonarFrame.accepts, hlife] at hacc
    | _ => cases hrender
  | created =>
    rw [hlife] at hlives
    obtain ⟨t, ht⟩ := accepted_total env.build (a := w.toApp) hs hacc fun _ => hlife
    rw [Lifecycle.useTimer, hlives, onFrame_ok hf ht]
    exact congrArg Except.ok (lifecycle_handled hf (handle_kept ht hne.1 hne.2)).symm
  | closed =>
    rw [hlife] at hlives
    rw [Lifecycle.useTimer, hlives,
      onFrame_error hf (closed_render_fault env.build hs hcanvas hlife hrender), hthis]
    rfl

theorem frame_shown {e : FrameEvent} (hw : w.Coherent) (he : w.allows (.frame i e) = true) :
    w.lifecycle.onFrame env.dialogOk i e =
      (World.step env (.frame i e) w).map World.lifecycle := by
  obtain ⟨f, hf, hacc⟩ := allows_frame he
  have hs := hw.wellFormed.sound i f hf
  obtain ⟨hthis, hcanvas⟩ := hw.numbered i f hf
  cases e with
  | size | paint => exact render_shown hw hf hacc rfl
  | close => exact onClose_shown i hw.wellFormed.sound hw.numbered
  | key k ctrl =>
    change w.lifecycle.toggleOnKey env.dialogOk k ctrl =
      (w.toggleOnKey env k ctrl >>= _).map World.lifecycle
    rw [toggleOnKey_shown env k ctrl hw, map_bind]
    cases hr : w.toggleOnKey env k ctrl with
    | error x => rfl
    | ok v =>
      obtain ⟨g, hg⟩ : ∃ g, v.frames i = some g := by
        obtain ⟨-, ht⟩ | ⟨-, rfl⟩ := toggleOnKey_inv hr
        · exact toggle_frames ht hf
        · exact ⟨f, hf⟩
      have hzoom := onFrame_ok (h := fun s => .ok (s.zoomKey env.build k)) hg rfl
      change Except.ok v.lifecycle = (v.onFrame i _).map World.lifecycle
      rw [hzoom]
      exact congrArg Except.ok (lifecycle_handled hg (Steered.zoomKey env.build _ k).kept).symm
  | colours cs dilg1 => simp [SonarFrame.accepts] at hacc
  | _ =>
    obtain ⟨t, ht⟩ := accepted_total env.build (a := w.toApp) hs hacc (by simp [FrameEvent.renders])
    change Except.ok w.lifecycle = (w.onFrame i _).map World.lifecycle
    rw [onFrame_ok hf ht]
    exact congrArg Except.ok (lifecycle_handled hf (handle_kept ht (by simp) (by simp))).symm

theorem accepts_shown (e : FrameEvent) (hcanvas : f.life ≠ .raw → f.pCanvas.isLive = true) :
    f.life.accepts e = f.accepts e := by
  cases e with
  | paint disk =>
    by_cases hraw : f.life = .raw
    · simp [Life.accepts, SonarFrame.accepts, hraw]
    · simp [Life.accepts, SonarFrame.accepts, hcanvas hraw]
  | _ => rfl

theorem allows_shown (hn : w.Numbered) (e : Event) : w.lifecycle.allows e = w.allows e := by
  cases e with
  | frame i e =>
    unfold Lifecycle.allows World.allows
    cases hf : w.frames i with
    | none => simp [World.lifecycle, hf]
    | some f => simp [World.lifecycle, hf, accepts_shown e (hn i f hf).2]
  | deleteFrame i =>
    unfold Lifecycle.allows World.allows
    cases hf : w.frames i with
    | none => simp [World.lifecycle, hf]
    | some f => simp [World.lifecycle, hf]
  | _ => rfl

theorem step_shown {e : Event} (hw : w.Coherent) (he : w.allows e = true) :
    Lifecycle.step env e w.lifecycle = (World.step env e w).map World.lifecycle := by
  cases e with
  | init answer => exact init_shown answer hw
  | deInit =>
    change (w.lifecycle.closeCurrent >>= _) = (w.deInit >>= _).map World.lifecycle
    rw [deInit_shown hw, map_bind]
    cases w.deInit <;> rfl
  | toolbar id => exact toggle_shown env hw
  | aisSentence answer => exact (aisSentence_shown answer hw).symm
  | positionFix x => exact (positionFix_shown x hw).symm
  | colorScheme cs dilg1 =>
    have hcol := wellFormed_app hw.wellFormed (dilg1_kept dilg1 w.toApp)
    exact (onSonarFrame_shown hcol (setColourScheme_kept cs)).symm
  | getSonarTargets answer =>
    obtain ⟨v, hv, hlife, -⟩ := getSonarTargets_shown answer hw
    change Except.ok w.lifecycle = (w.withApp _).map World.lifecycle
    rw [hv, ← hlife]
    rfl
  | preferences r =>
    have hd := dialog_spec r w.toApp
    have halive := (dialog_feedsKept r w.toApp).alive
    have hshow : World.lifecycle { w with toApp := w.toApp.showPreferencesDialog r } = w.lifecycle := by
      calc World.lifecycle { w with toApp := w.toApp.showPreferencesDialog r }
          = ⟨(w.toApp.showPreferencesDialog r).host.initialised,
              (w.toApp.showPreferencesDialog r).host.alive,
              (w.toApp.showPreferencesDialog r).host.handlers,
              (w.toApp.showPreferencesDialog r).pi.pSonarFrame, w.lifecycle.lives, w.nextFrame⟩ := rfl
        _ = w.lifecycle := by rw [hd.initialised, halive, hd.handlers, hd.pSonarFrame]; rfl
    exact congrArg Except.ok hshow.symm
  | chartKey k ctrl =>
    exact repeatStep_map (fun u v hu h => toggleOnKey_coherent hu h)
      (fun u hu => toggleOnKey_shown env k ctrl hu) _ hw
  | frame i e => exact frame_shown hw he
  | deleteFrame i =>
    have hlives : (fun j => (Function.update w.frames i none j).map SonarFrame.life) =
        Function.update w.lifecycle.lives i none := by
      funext j
      by_cases hj : j = i
      · subst hj
        simp
      · simp [World.lifecycle, hj]
    exact congrArg (fun lives => Except.ok { w.lifecycle with lives }) hlives.symm
  | destroy =>
    obtain ⟨c, hc⟩ := destroy_total hw.keeps.valid
    have hkept := destroy_kept hc
    have halive : c.host.alive = false := by
      obtain ⟨u, -, h⟩ := bind_eq_ok.mp hc
      cases h
      rfl
    change Except.ok { w.lifecycle with alive := false } = (w.withApp App.destroy).map World.lifecycle
    rw [withApp_ok hc]
    change _ = Except.ok (Lifecycle.mk c.host.initialised c.host.alive c.host.handlers
      c.pi.pSonarFrame w.lifecycle.lives w.nextFrame)
    rw [hkept.initialised, halive, hkept.handlers, hkept.pSonarFrame]
    rfl

/-- The lifecycle is a true picture of the plug-in, faults included. -/
theorem machine_shows (env : Env) :
    (machine env).Shows (lifecycles env) World.Coherent World.lifecycle where
  allowed w e hw := by
    change w.lifecycle.allows e = true ↔ w.allows e = true
    rw [allows_shown hw.numbered]
  step _ _ hw he := step_shown hw he
  keeps _ _ _ hw he h := step_coherent hw he h

theorem run_coherent {config : FileConfig} {dilg1 : Colour} {es : List Event}
    (h : (machine env).Run (World.construct env config dilg1) es w) : w.Coherent :=
  ((machine_shows env).run (construct_coherent env config dilg1) h).1

theorem run_shown {config : FileConfig} {dilg1 : Colour} {es : List Event}
    (h : (machine env).Run (World.construct env config dilg1) es w) :
    (lifecycles env).Run .start es w.lifecycle :=
  ((machine_shows env).run (construct_coherent env config dilg1) h).2

end

end SonarPlugin
