import SonarPlugin.Transitions

namespace SonarPlugin

open Library Relation

/-- What a frame's members point to at each stage of its window. -/
structure SonarFrame.Sound (f : SonarFrame) : Prop where
  viewState : f.pViewState.isLive = true
  imgData : f.imgData.isLive = true
  raw : f.life = .raw → f.timer.misuse? = some .null
  created : f.life = .created →
    f.timer.isLive = true ∧ f.pCanvas.isLive = true ∧ f.pNorthUp.isLive = true
  closed : f.life = .closed → f.timer.misuse? = some .dangling

theorem Kept.sound {s t : Scene} (h : Kept s t) (hs : s.frame.Sound) : t.frame.Sound where
  viewState := by
    have hm := h.members .viewState (by simp)
    rw [Ptr.isLive_iff_misuse?] at *
    exact hm.trans (Ptr.isLive_iff_misuse?.mp hs.viewState)
  imgData := h.imgData hs.imgData
  raw hl := (h.members .timer (by simp)).trans (hs.raw (h.life.symm.trans hl))
  created hl := by
    obtain ⟨ht, hc, hn⟩ := hs.created (h.life.symm.trans hl)
    simp only [Ptr.isLive_iff_misuse?] at ht hc hn ⊢
    exact ⟨(h.members .timer (by simp)).trans ht, (h.members .canvas (by simp)).trans hc,
      (h.members .northUp (by simp)).trans hn⟩
  closed hl := (h.members .timer (by simp)).trans (hs.closed (h.life.symm.trans hl))

theorem Closed.sound {s t : Scene} (h : Closed s t) (hs : s.frame.Sound) : t.frame.Sound := by
  rw [h.frame]
  exact ⟨hs.viewState, hs.imgData, nofun, nofun, fun _ => rfl⟩

theorem NewFrame.sound {env : Env} {w : World} {s : Scene} (h : NewFrame env w s) :
    s.frame.Sound where
  viewState := by rw [h.viewState]; rfl
  imgData := by rw [h.imgData]; rfl
  raw hl := by
    have hlife := h.life
    cases hok : env.dialogOk w.nextFrame with
    | true => simp [hok, hl] at hlife
    | false => rw [(h.halfBuilt hok).1]; rfl
  created hl := by
    have hlife := h.life
    cases hok : env.dialogOk w.nextFrame with
    | true =>
      obtain ⟨ht, hc, hn⟩ := h.built hok
      simp [ht, hc, hn]
    | false => simp [hok, hl] at hlife
  closed hl := by
    have hlife := h.life
    rw [hl] at hlife
    split at hlife <;> cases hlife

/-- A frame is open from its construction until `OnClose` has run. -/
def World.IsOpen (w : World) (i : FrameId) : Prop :=
  ∃ f, w.frames i = some f ∧ f.life ≠ .closed

/-- What holds in every reachable world: frame objects are numbered in
order, `m_pSonarFrame` refers to an open frame or is null, and every frame's
members are as its window requires. -/
structure World.WellFormed (w : World) : Prop where
  fresh : ∀ i, w.nextFrame ≤ i → w.frames i = none
  pointer : ∀ i, w.pi.pSonarFrame = some i → w.IsOpen i
  sound : ∀ i f, w.frames i = some f → f.Sound

section

variable {env : Env} {b : Bool} {w w' : World}

theorem put_frames_self (w : World) (i : FrameId) (s : Scene) :
    (w.put i s).frames i = some s.frame := by
  simp [World.put]

theorem put_frames_of_ne {i j : FrameId} (w : World) (s : Scene) (h : j ≠ i) :
    (w.put i s).frames j = w.frames j := by
  simp [World.put, h]

theorem isOpen_put_of_ne {i j : FrameId} {s : Scene} (h : j ≠ i) :
    (w.put i s).IsOpen j ↔ w.IsOpen j := by
  unfold World.IsOpen
  rw [put_frames_of_ne w s h]

theorem isOpen_put_self {i : FrameId} {s : Scene} :
    (w.put i s).IsOpen i ↔ s.frame.life ≠ .closed := by
  unfold World.IsOpen
  rw [put_frames_self]
  simp

theorem isOpen_congr {i : FrameId} (h : w'.frames = w.frames) : w'.IsOpen i ↔ w.IsOpen i := by
  unfold World.IsOpen
  rw [h]

theorem Effect.isOpen_cases (h : Effect env b w w') :
    (w'.pi.pSonarFrame = w.pi.pSonarFrame ∧ ∀ i, w'.IsOpen i ↔ w.IsOpen i) ∨
      (w'.pi.pSonarFrame = none ∧ ∃ j f, w.frames j = some f ∧ f.timer.isLive = true ∧
        ∀ i, w'.IsOpen i ↔ w.IsOpen i ∧ i ≠ j) ∨
      (b = true ∧ w.pi.pSonarFrame = none ∧ w'.pi.pSonarFrame = some w.nextFrame ∧
        ∀ i, w'.IsOpen i ↔ w.IsOpen i ∨ i = w.nextFrame) := by
  cases h with
  | app h => exact .inl ⟨h.pSonarFrame, fun i => isOpen_congr rfl⟩
  | @handled _ _ j f s hf h =>
    have hp : s.app.pi.pSonarFrame = w.pi.pSonarFrame := by rw [h.pi]
    refine .inl ⟨hp, fun i => ?_⟩
    by_cases hij : i = j
    · subst hij
      rw [isOpen_put_self, h.life]
      simp [World.IsOpen, hf]
    · exact isOpen_put_of_ne hij
  | @closed _ _ j f s hf h =>
    obtain ⟨v, -, hpi⟩ := h.pi
    have hp : s.app.pi.pSonarFrame = none := by rw [hpi]
    refine .inr (.inl ⟨hp, j, f, hf, h.timer, fun i => ?_⟩)
    by_cases hij : i = j
    · subst hij
      rw [isOpen_put_self, h.frame]
      simp
    · rw [isOpen_put_of_ne hij]
      simp [hij]
  | @opened _ s hp h =>
    have hp' : s.app.pi.pSonarFrame = some w.nextFrame := by rw [h.pi]
    refine .inr (.inr ⟨rfl, hp, hp', fun i => ?_⟩)
    have hlife : s.frame.life ≠ .closed := by
      rw [h.life]
      split <;> simp
    refine Iff.trans (isOpen_congr (w := w.put w.nextFrame s) rfl) ?_
    by_cases hij : i = w.nextFrame
    · subst hij
      simp [isOpen_put_self, hlife]
    · rw [isOpen_put_of_ne hij]
      simp [hij]
  | @deleted _ _ j f hf hlife =>
    refine .inl ⟨rfl, fun i => ?_⟩
    by_cases hij : i = j
    · subst hij
      simp [World.IsOpen, hf, hlife]
    · simp [World.IsOpen, hij]

theorem Effect.fresh (h : Effect env b w w') (hw : ∀ i, w.nextFrame ≤ i → w.frames i = none) :
    ∀ i, w'.nextFrame ≤ i → w'.frames i = none := by
  have hput (j : FrameId) (f : SonarFrame) (s : Scene) (hf : w.frames j = some f) (i : FrameId)
      (hi : w.nextFrame ≤ i) : (w.put j s).frames i = none := by
    have hij : i ≠ j := by
      rintro rfl
      simp [hw i hi] at hf
    rw [put_frames_of_ne w s hij]
    exact hw i hi
  cases h with
  | app h => exact hw
  | @handled _ _ j f s hf h => exact hput j f s hf
  | @closed _ _ j f s hf h => exact hput j f s hf
  | @opened _ s hp h =>
    intro i hi
    have hi' : w.nextFrame + 1 ≤ i := hi
    have hij : i ≠ w.nextFrame := Nat.ne_of_gt hi'
    exact (put_frames_of_ne w s hij).trans (hw i (Nat.le_of_succ_le hi))
  | @deleted _ _ j f hf hlife =>
    intro i hi
    by_cases hij : i = j
    · simp [hij]
    · simpa [hij] using hw i hi

theorem Effect.sound (h : Effect env b w w') (hw : ∀ i f, w.frames i = some f → f.Sound) :
    ∀ i f, w'.frames i = some f → f.Sound := by
  have hput (j : FrameId) (s : Scene) (hs : s.frame.Sound) (i : FrameId) (f : SonarFrame)
      (hf : (w.put j s).frames i = some f) : f.Sound := by
    by_cases hij : i = j
    · subst hij
      rw [put_frames_self] at hf
      cases hf
      exact hs
    · rw [put_frames_of_ne w s hij] at hf
      exact hw i f hf
  cases h with
  | app h => exact hw
  | @handled _ _ j f s hf h => exact hput j s (h.sound (hw j f hf))
  | @closed _ _ j f s hf h => exact hput j s (h.sound (hw j f hf))
  | @opened _ s hp h => exact hput w.nextFrame s h.sound
  | @deleted _ _ j f hf hlife =>
    intro i g hg
    by_cases hij : i = j
    · simp [hij] at hg
    · exact hw i g (by simpa [hij] using hg)

theorem SonarFrame.Sound.life_of_timer {f : SonarFrame} (h : f.Sound)
    (ht : f.timer.isLive = true) : f.life = .created := by
  rw [Ptr.isLive_iff_misuse?] at ht
  cases hl : f.life with
  | raw => simp [h.raw hl] at ht
  | created => rfl
  | closed => simp [h.closed hl] at ht

theorem Effect.wellFormed (h : Effect env b w w') (hw : w.WellFormed) : w'.WellFormed where
  fresh := h.fresh hw.fresh
  sound := h.sound hw.sound
  pointer i hi := by
    obtain ⟨hp, ho⟩ | ⟨hp, -⟩ | ⟨-, -, hp, ho⟩ := h.isOpen_cases
    · exact (ho i).mpr (hw.pointer i (hp ▸ hi))
    · simp [hp] at hi
    · exact (ho i).mpr (.inr (by simpa [hp, eq_comm] using hi))

theorem Effects.wellFormed (h : Effects env b w w') (hw : w.WellFormed) : w'.WellFormed := by
  induction h with
  | refl => exact hw
  | tail _ h ih => exact h.wellFormed ih

theorem World.WellFormed.pointer_none (hw : w.WellFormed) (ho : ∀ i, ¬ w.IsOpen i) :
    w.pi.pSonarFrame = none := by
  cases hp : w.pi.pSonarFrame with
  | none => rfl
  | some i => exact absurd (hw.pointer i hp) (ho i)

theorem Effect.host_kept (h : Effect env b w w') :
    w'.host.initialised = w.host.initialised ∧ w'.host.handlers = w.host.handlers := by
  cases h with
  | app h => exact ⟨h.initialised, h.handlers⟩
  | @handled _ _ j f s hf h =>
    have hs : s.app.host = w.host := h.host
    exact ⟨congrArg Host.initialised hs, congrArg Host.handlers hs⟩
  | @closed _ _ j f s hf h =>
    change s.app.host.initialised = _ ∧ s.app.host.handlers = _
    rw [h.host]
    exact ⟨rfl, rfl⟩
  | @opened _ s hp h =>
    have hs : s.app.host = w.host := h.host
    exact ⟨congrArg Host.initialised hs, congrArg Host.handlers hs⟩
  | deleted hf hlife => exact ⟨rfl, rfl⟩

theorem Effects.host_kept (h : Effects env b w w') :
    w'.host.initialised = w.host.initialised ∧ w'.host.handlers = w.host.handlers := by
  induction h with
  | refl => exact ⟨rfl, rfl⟩
  | tail _ h ih => exact ⟨h.host_kept.1.trans ih.1, h.host_kept.2.trans ih.2⟩

/-- All that `Init` does outside the position data and the targets. -/
structure Inited (env : Env) (a c : App) : Prop where
  settings : c.pi.toSettings =
    if env.configObject then storedSettings a.host.config
    else { a.pi.toSettings with
      sonarFrameX := 0, sonarFrameY := 0, sonarFrameSx := 200, sonarFrameSy := 200 }
  pconfig : c.pi.pconfig = env.configObject
  pSonarFrame : c.pi.pSonarFrame = none
  config : c.host.config =
    if env.configObject then a.host.config.setPath configPath else a.host.config
  handlers : c.host.handlers = a.host.handlers + 1
  tools : c.host.tools =
    if c.pi.sonarShowIcon then a.host.tools ++ [⟨a.host.nextTool, initIcons a.statics.svg⟩]
    else a.host.tools
  nextTool : c.host.nextTool =
    if c.pi.sonarShowIcon then a.host.nextTool + 1 else a.host.nextTool
  leftclickToolId : c.pi.sonarShowIcon = true → c.pi.leftclickToolId = a.host.nextTool
  heap : c.heap = a.heap
  statics : c.statics = a.statics
  log : ∃ calls, c.log = calls ++ a.log ∧ ∀ x ∈ calls, x.image? = none

theorem deleteSonarTargets_ok {a c : App} (h : a.deleteSonarTargets = .ok c) :
    ∃ p L calls, c = { a with
      pi.sonarTargets := p, host.arrays := L, log := calls ++ a.log } ∧
        ∀ x ∈ calls, x.image? = none := by
  unfold App.deleteSonarTargets at h
  split at h
  · cases h
    exact ⟨_, _, [], rfl, by simp⟩
  · cases h
    exact ⟨_, _, [_], rfl, by simp [Call.image?]⟩
  · cases h

theorem getAISTargetArray_ok (answer : Bool) (a : App) :
    ∃ p L x, a.getAISTargetArray answer = { a with
      pi.sonarTargets := p, host.arrays := L, log := x :: a.log } ∧ x.image? = none := by
  unfold App.getAISTargetArray
  split
  · exact ⟨_, _, _, rfl, rfl⟩
  · exact ⟨_, _, _, rfl, rfl⟩

theorem init_ok {answer : Bool} {a c : App} (h : a.init env answer = .ok c) : Inited env a c := by
  unfold App.init at h
  obtain ⟨b, hb, h⟩ := bind_eq_ok.mp h
  obtain ⟨p, L, calls, rfl, hcalls⟩ := deleteSonarTargets_ok hb
  cases h
  clear hb
  obtain ⟨q, M, x, he, hx⟩ := getAISTargetArray_ok answer _
  rw [he]
  have hlog : ∃ cs, x :: (calls ++ a.log) = cs ++ a.log ∧ ∀ y ∈ cs, y.image? = none :=
    ⟨x :: calls, rfl, by simpa [hx] using hcalls⟩
  unfold App.loadConfig
  cases hc : env.configObject with
  | true =>
    simp only [if_true]
    cases hshow : (readSettings (a.host.config.setPath configPath)).sonarShowIcon with
    | true =>
      constructor
      case log => exact hlog
      all_goals simp [App.insertTool, storedSettings, hc, hshow]
    | false =>
      constructor
      case log => exact hlog
      all_goals simp [storedSettings, hc, hshow]
  | false =>
    simp only [Bool.false_eq_true, if_false]
    cases hshow : a.pi.sonarShowIcon with
    | true =>
      constructor
      case log => simpa [App.insertTool, hshow] using hlog
      all_goals simp [App.insertTool, hc, hshow]
    | false =>
      constructor
      case log => simpa [hshow] using hlog
      all_goals simp [hc, hshow]

theorem construct_wellFormed (env : Env) (config : FileConfig) (dilg1 : Colour) :
    (World.construct env config dilg1).WellFormed where
  fresh _ _ := rfl
  pointer i h := by
    change none = some i at h
    cases h
  sound i f h := by
    change none = some f at h
    cases h

theorem deInit_effects (h : w.deInit = .ok w') : Effects env b w w' := by
  obtain ⟨-, rfl⟩ | ⟨i, f, s, -, hf, hs, rfl⟩ := onSonarFrame_eq_ok.mp h
  · exact .refl
  · exact .single (.closed hf (onClose_ok hs))

theorem step_wellFormed {e : Event} (hw : w.WellFormed) (he : w.allows e = true)
    (h : World.step env e w = .ok w') : w'.WellFormed := by
  obtain ⟨answer, a, -, ha, rfl⟩ | ⟨v, -, hv, rfl⟩ | ⟨r, a, -, hd, rfl⟩ | ⟨-, h⟩ :=
    step_cases he h
  · have hp := (init_ok ha).pSonarFrame
    exact ⟨hw.fresh, fun i hi => by simp [hp] at hi, hw.sound⟩
  · have hd : Effects env false w v := deInit_effects hv
    have hv := hd.wellFormed hw
    exact ⟨hv.fresh, hv.pointer, hv.sound⟩
  · exact ⟨hw.fresh, fun i hi => hw.pointer i (hd.pSonarFrame ▸ hi), hw.sound⟩
  · exact h.wellFormed hw

theorem run_wellFormed {config : FileConfig} {dilg1 : Colour} {es : List Event}
    (h : (machine env).Run (World.construct env config dilg1) es w) : w.WellFormed :=
  h.invariant World.WellFormed (construct_wellFormed env config dilg1)
    fun _ _ _ hw he hs => step_wellFormed hw he hs

/-- The rule by which a property of well-formed worlds is carried along a run:
the effects keep it, and so does any change outside frames, heap and statics that
makes no call of `Rescale`. -/
theorem World.WellFormed.run_rule {es : List Event} (hw : w.WellFormed) (P : World → Prop)
    (hP : P w)
    (happ : ∀ (u : World) (a : App), a.heap = u.heap → a.statics = u.statics →
      (∃ calls, a.log = calls ++ u.log ∧ ∀ c ∈ calls, c.image? = none) → P u →
      P { u with toApp := a })
    (heffect : ∀ (b : Bool) (u v : World), u.WellFormed → Effect env b u v → P u → P v)
    (h : (machine env).Run w es w') : P w' := by
  have hchain {b : Bool} {u v : World} (h : Effects env b u v) (hu : u.WellFormed) (hPu : P u) :
      P v := by
    induction h with
    | refl => exact hPu
    | tail hv h ih => exact heffect b _ _ (Effects.wellFormed hv hu) h ih
  have hboth : w'.WellFormed ∧ P w' := by
    refine h.invariant (fun u => u.WellFormed ∧ P u) ⟨hw, hP⟩ ?_
    rintro u e v ⟨hu, hPu⟩ he hs
    refine ⟨step_wellFormed hu he hs, ?_⟩
    obtain ⟨answer, a, rfl, ha, rfl⟩ | ⟨v, rfl, hv, rfl⟩ | ⟨r, a, rfl, hd, rfl⟩ | ⟨-, h⟩ :=
      step_cases he hs
    · have hi := init_ok ha
      exact happ u _ hi.heap hi.statics hi.log hPu
    · have hv' : Effects env false u v := deInit_effects hv
      exact happ v _ rfl rfl ⟨[], rfl, by simp⟩ (hchain hv' hu hPu)
    · obtain ⟨calls, hlog, hcalls⟩ := hd.calls
      exact happ u _ hd.heap hd.statics ⟨calls, hlog, fun c hc => by rw [hcalls c hc]; rfl⟩ hPu
    · exact hchain h hu hPu
  exact hboth.2

end

end SonarPlugin
