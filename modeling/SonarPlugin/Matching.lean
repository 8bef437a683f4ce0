import SonarPlugin.Expected
import SonarPlugin.SingleFrame

namespace SonarPlugin

open Library Relation

/-- Ctrl+1 reaches the chart window in sessions only, and a dialog is shown
after the first `Init` only. -/
def World.Orderly (w : World) : Event → Prop
  | .chartKey .one true => w.host.initialised = true
  | .preferences _ => 0 < w.host.handlers
  | _ => True

def orderly (env : Env) : System World Event Fault := (hosted env).restrict World.Orderly

/-- The world is as a user may expect it. While a frame is open, only the
North-Up flag in the store may be out of date. -/
structure Matches (w : World) (x : Expected) : Prop where
  handlers : w.host.handlers = x.inits
  nextFrame : w.nextFrame = x.created
  session : w.host.initialised = true → 0 < x.inits
  pointer : w.pi.pSonarFrame = x.opened.map OpenFrame.id
  view : ∀ o, x.opened = some o →
    ∃ f v, w.frames o.id = some f ∧ f.pViewState = .live v ∧ v.value = o.geometry
  memory : 0 < x.inits → w.pi.pconfig = true ∧ w.pi.toSettings = x.settings
  stored : ∃ b, storedSettings w.host.config = { x.settings with sonarNorthUp := b } ∧
    (x.opened = none → b = x.settings.sonarNorthUp)

structure Settled (w w' : World) : Prop where
  settings : w'.pi.toSettings = w.pi.toSettings
  pconfig : w'.pi.pconfig = w.pi.pconfig
  pSonarFrame : w'.pi.pSonarFrame = w.pi.pSonarFrame
  config : w'.host.config = w.host.config
  handlers : w'.host.handlers = w.host.handlers
  initialised : w'.host.initialised = w.host.initialised
  nextFrame : w'.nextFrame = w.nextFrame
  view : ∀ i f, w.frames i = some f → f.life ≠ .closed →
    ∃ g, w'.frames i = some g ∧ g.life = f.life ∧ g.pViewState = f.pViewState

section

variable {env : Env} {w w' : World} {x : Expected}

theorem Settled.refl (w : World) : Settled w w :=
  ⟨rfl, rfl, rfl, rfl, rfl, rfl, rfl, fun _ f hf _ => ⟨f, hf, rfl, rfl⟩⟩

theorem Settled.trans {u : World} (h : Settled w w') (h' : Settled w' u) : Settled w u where
  settings := h'.settings.trans h.settings
  pconfig := h'.pconfig.trans h.pconfig
  pSonarFrame := h'.pSonarFrame.trans h.pSonarFrame
  config := h'.config.trans h.config
  handlers := h'.handlers.trans h.handlers
  initialised := h'.initialised.trans h.initialised
  nextFrame := h'.nextFrame.trans h.nextFrame
  view i f hf hlife := by
    obtain ⟨g, hg, hgl, hgv⟩ := h.view i f hf hlife
    obtain ⟨k, hk, hkl, hkv⟩ := h'.view i g hg (hgl ▸ hlife)
    exact ⟨k, hk, hkl.trans hgl, hkv.trans hgv⟩

theorem Settled.of_app {a : App} (h : AppKept w.toApp a) : Settled w { w with toApp := a } :=
  ⟨h.settings, h.pconfig, h.pSonarFrame, h.config, h.handlers, h.initialised, rfl,
    fun _ f hf _ => ⟨f, hf, rfl, rfl⟩⟩

theorem Settled.of_put {i : FrameId} {f : SonarFrame} {s : Scene} (hf : w.frames i = some f)
    (h : Kept ⟨f, w.toApp⟩ s) (hview : s.frame.pViewState = f.pViewState)
    (hnorth : s.app.pi.sonarNorthUp = w.pi.sonarNorthUp) : Settled w (w.put i s) := by
  have hpi : s.app.pi = w.pi := by rw [h.pi, hnorth]
  have hhost : s.app.host = w.host := h.host
  refine ⟨congrArg _ hpi, congrArg _ hpi, congrArg _ hpi, congrArg _ hhost, congrArg _ hhost,
    congrArg _ hhost, rfl, fun j g hg hlife => ?_⟩
  by_cases hij : j = i
  · subst hij
    obtain rfl : f = g := Option.some.inj (hf.symm.trans hg)
    exact ⟨s.frame, put_frames_self w j s, h.life, hview⟩
  · exact ⟨g, (put_frames_of_ne w s hij).trans hg, rfl, rfl⟩

theorem Matches.settled (h : Matches w x) (hw : w.WellFormed) (hs : Settled w w') :
    Matches w' x where
  handlers := hs.handlers.trans h.handlers
  nextFrame := hs.nextFrame.trans h.nextFrame
  session hi := h.session (hs.initialised.symm.trans hi)
  pointer := hs.pSonarFrame.trans h.pointer
  view o hx := by
    obtain ⟨f, v, hf, hv, hval⟩ := h.view o hx
    have hp : w.pi.pSonarFrame = some o.id := by rw [h.pointer, hx]; rfl
    obtain ⟨f', hf', hlife⟩ := hw.pointer o.id hp
    obtain rfl : f = f' := Option.some.inj (hf.symm.trans hf')
    obtain ⟨g, hg, -, hgv⟩ := hs.view o.id f hf hlife
    exact ⟨g, v, hg, hgv.trans hv, hval⟩
  memory hi := by
    rw [hs.pconfig, hs.settings]
    exact h.memory hi
  stored := by
    rw [hs.config]
    exact h.stored

theorem Matches.opened_none (h : Matches w x) (hp : w.pi.pSonarFrame = none) :
    x.opened = none :=
  Option.map_eq_none_iff.mp (h.pointer.symm.trans hp)

theorem Matches.exists_opened {i : FrameId} (h : Matches w x) (hp : w.pi.pSonarFrame = some i) :
    ∃ o, x.opened = some o ∧ o.id = i :=
  Option.map_eq_some_iff.mp (h.pointer.symm.trans hp)

theorem Matches.closed {i : FrameId} {f : SonarFrame} {s : Scene} (h : Matches w x)
    (hp : w.pi.pSonarFrame = some i) (hinit : 0 < x.inits) (hf : w.frames i = some f)
    (hs : Closed ⟨f, w.toApp⟩ s) : Matches (w.put i s) x.close := by
  obtain ⟨o, hx, rfl⟩ := h.exists_opened hp
  obtain ⟨f', v, hf', hv, hval⟩ := h.view o hx
  obtain rfl : f = f' := Option.some.inj (hf.symm.trans hf')
  obtain ⟨v', hv', hpi⟩ := hs.pi
  obtain rfl : v = v' := Ptr.live_unique hv hv'
  obtain ⟨hconf, hmem⟩ := h.memory hinit
  have hclose : x.close =
      { x with settings := x.settings.withGeometry o.geometry, opened := none } := by
    rw [Expected.close, hx]
  have hsettings : s.app.pi.toSettings = x.settings.withGeometry o.geometry := by
    rw [hpi, ← hmem, ← hval]
    rfl
  have hconfig : s.app.host.config =
      writeSettings s.app.pi.toSettings (w.host.config.setPath configPath) := by
    have hc : w.pi.pconfig = true := hconf
    rw [hs.host, hc]
    rfl
  rw [hclose]
  exact
    { handlers := by
        rw [World.put_toApp, hs.host]
        exact h.handlers
      nextFrame := h.nextFrame
      session := by
        rw [World.put_toApp, hs.host]
        exact h.session
      pointer := by
        rw [World.put_toApp, hpi]
        rfl
      view := fun o ho => by cases ho
      memory := fun _ => by
        refine ⟨?_, hsettings⟩
        rw [World.put_toApp, hpi]
        exact hconf
      stored := by
        refine ⟨_, ?_, fun _ => rfl⟩
        rw [World.put_toApp, hconfig, storedSettings_writeSettings, hsettings] }

theorem Matches.opened {s : Scene} (h : Matches w x) (hp : w.pi.pSonarFrame = none)
    (hinit : 0 < x.inits) (hs : NewFrame env w s) :
    Matches { w.put w.nextFrame s with nextFrame := w.nextFrame + 1 } x.toggle := by
  have hx := h.opened_none hp
  have htoggle : x.toggle = { x with
      opened := some ⟨x.created, x.settings.geometry, none, none⟩, created := x.created + 1 } := by
    rw [Expected.toggle, hx]
  obtain ⟨hconf, hmem⟩ := h.memory hinit
  have hhost : s.app.host = w.host := hs.host
  have hsettings : s.app.pi.toSettings = w.pi.toSettings := by rw [hs.pi]
  rw [htoggle]
  exact
    { handlers := (congrArg Host.handlers hhost).trans h.handlers
      nextFrame := congrArg (· + 1) h.nextFrame
      session := fun hi => h.session ((congrArg Host.initialised hhost).symm.trans hi)
      pointer := by
        change s.app.pi.pSonarFrame = some x.created
        rw [hs.pi, ← h.nextFrame]
      view := by
        intro o ho
        obtain rfl : ⟨x.created, x.settings.geometry, none, none⟩ = o := Option.some.inj ho
        refine ⟨s.frame, _, ?_, hs.viewState, ?_⟩
        · rw [← h.nextFrame]
          exact put_frames_self w w.nextFrame s
        · rw [← hmem]
          rfl
      memory := fun _ => by
        change s.app.pi.pconfig = true ∧ s.app.pi.toSettings = x.settings
        rw [hsettings, hs.pi]
        exact ⟨hconf, hmem⟩
      stored := by
        obtain ⟨b, hb, -⟩ := h.stored
        refine ⟨b, ?_, nofun⟩
        change storedSettings s.app.host.config = _
        rw [hhost]
        exact hb }

theorem Matches.toggle (h : Matches w x) (hw : w.WellFormed) (hinit : 0 < x.inits)
    (ht : w.toggleSonarFrame env = .ok w') : Matches w' x.toggle := by
  have hnote := h.settled hw (.of_app (note_kept (c := .toggleSonarFrame) rfl _))
  obtain ⟨hp, s, hnew, rfl⟩ | ⟨i, f, s, hp, hf, hclosed, rfl⟩ := toggle_cases ht
  · exact hnote.opened hp hinit hnew
  · obtain ⟨o, hx, -⟩ := h.exists_opened hp
    have htoggle : x.toggle = x.close := by rw [Expected.toggle, hx]
    rw [htoggle]
    exact hnote.closed hp hinit hf hclosed

theorem toggle_inits (x : Expected) : x.toggle.inits = x.inits := by
  unfold Expected.toggle Expected.close
  split
  · rfl
  · split <;> rfl

def FrameEvent.settles : FrameEvent → Bool
  | .move _ | .size .. | .northUp _ | .colours .. | .close => false
  | _ => true

theorem handle_settles {build : Build} {e : FrameEvent} {s t : Scene} (he : e.settles = true)
    (h : e.handle build s = .ok t) :
    t.frame.pViewState = s.frame.pViewState ∧ t.app.pi = s.app.pi := by
  cases e with
  | move | size | northUp | colours | close => cases he
  | paint disk =>
    have hr := (paintEvent_ok h).2
    rw [hr.frame, hr.app]
    exact ⟨rfl, rfl⟩
  | timer | restoration | mouseDown | mouseMoved | mouseReleased | mouseScroll | key =>
    have hst := handle_steered rfl h
    rw [hst.frame, hst.app]
    exact ⟨rfl, rfl⟩

theorem Matches.adjusted {i : FrameId} {f : SonarFrame} {s : Scene} (g : OpenFrame → OpenFrame)
    (hid : ∀ o, (g o).id = o.id) (h : Matches w x) (hf : w.frames i = some f)
    (hk : Kept ⟨f, w.toApp⟩ s) (hnorth : s.app.pi.sonarNorthUp = w.pi.sonarNorthUp)
    (hview : ∀ o v, x.opened = some o → o.id = i → f.pViewState = .live v →
      v.value = o.geometry →
        ∃ v', s.frame.pViewState = .live v' ∧ v'.value = (g o).geometry) :
    Matches (w.put i s)
      { x with opened := x.opened.map fun o => if o.id = i then g o else o } := by
  have hpi : s.app.pi = w.pi := by rw [hk.pi, hnorth]
  have hhost : s.app.host = w.host := hk.host
  exact
    { handlers := (congrArg Host.handlers hhost).trans h.handlers
      nextFrame := h.nextFrame
      session := fun hi => h.session ((congrArg Host.initialised hhost).symm.trans hi)
      pointer := by
        rw [World.put_toApp, hpi, h.pointer, Option.map_map]
        congr 1
        funext o
        by_cases ho : o.id = i
        · simp [ho, hid]
        · simp [ho]
      view := by
        intro o' ho'
        obtain ⟨o, hx, rfl⟩ := Option.map_eq_some_iff.mp ho'
        obtain ⟨f', v, hf', hv, hval⟩ := h.view o hx
        by_cases ho : o.id = i
        · subst ho
          obtain rfl : f = f' := Option.some.inj (hf.symm.trans hf')
          obtain ⟨v', hv', hval'⟩ := hview o v hx rfl hv hval
          rw [if_pos rfl, hid]
          exact ⟨s.frame, v', put_frames_self w o.id s, hv', hval'⟩
        · rw [if_neg ho]
          exact ⟨f', v, (put_frames_of_ne w s ho).trans hf', hv, hval⟩
      memory := fun hi => by
        rw [World.put_toApp, hpi]
        exact h.memory hi
      stored := by
        obtain ⟨b, hb, hnone⟩ := h.stored
        rw [World.put_toApp, hhost]
        exact ⟨b, hb, fun hx => hnone (Option.map_eq_none_iff.mp hx)⟩ }

theorem Matches.northUp {i : FrameId} {f : SonarFrame} {s : Scene} {value : Bool}
    (h : Matches w x) (hp : w.pi.pSonarFrame = some i) (hf : w.frames i = some f)
    (hs : Scene.checkNorthUp value ⟨f, w.toApp⟩ = .ok s) :
    Matches (w.put i s) { x with settings.sonarNorthUp := value } := by
  obtain ⟨-, ebl, rfl⟩ := checkNorthUp_ok hs
  exact
    { handlers := h.handlers
      nextFrame := h.nextFrame
      session := h.session
      pointer := h.pointer
      view := by
        intro o hx
        obtain ⟨f', v, hf', hv, hval⟩ := h.view o hx
        by_cases ho : o.id = i
        · subst ho
          obtain rfl : f = f' := Option.some.inj (hf.symm.trans hf')
          exact ⟨_, v, put_frames_self w o.id _, hv, hval⟩
        · exact ⟨f', v, (put_frames_of_ne w _ ho).trans hf', hv, hval⟩
      memory := fun hi => by
        obtain ⟨hconf, hmem⟩ := h.memory hi
        refine ⟨hconf, ?_⟩
        change { w.pi.toSettings with sonarNorthUp := value } = _
        rw [hmem]
      stored := by
        obtain ⟨b, hb, -⟩ := h.stored
        refine ⟨b, hb, fun hx => ?_⟩
        obtain ⟨o, ho, -⟩ := h.exists_opened hp
        cases ho.symm.trans hx }

end

end SonarPlugin
