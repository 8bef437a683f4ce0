import SonarPlugin.WellFormed

namespace SonarPlugin

open Library Relation

/-- At most one frame is open, `m_pSonarFrame` is non-null exactly when one is
and then refers to it, and none is open outside a session. -/
structure World.SingleFrame (w : World) : Prop where
  atMostOne : ∀ i j, w.IsOpen i → w.IsOpen j → i = j
  pointer : w.pi.pSonarFrame.isSome = true ↔ ∃ i, w.IsOpen i
  refers : ∀ i, w.pi.pSonarFrame = some i → w.IsOpen i
  session : w.host.initialised = false → ∀ i, ¬ w.IsOpen i

/-- Outside a session, Ctrl+1 on the chart window comes only while an even
number of handlers is bound to it. -/
def World.EvenKeys (w : World) (e : Event) : Prop :=
  w.host.initialised = false → e = .chartKey .one true → Even w.host.handlers

/-- The inductive form of `SingleFrame`. -/
structure World.Tracked (w : World) : Prop where
  wellFormed : w.WellFormed
  isOpen : ∀ i, w.IsOpen i ↔ w.pi.pSonarFrame = some i
  session : w.host.initialised = false → w.pi.pSonarFrame = none

section

variable {env : Env} {b : Bool} {w w' : World}

theorem World.Tracked.singleFrame (h : w.Tracked) : w.SingleFrame where
  atMostOne i j hi hj := by
    have hij : some i = some j := ((h.isOpen i).mp hi).symm.trans ((h.isOpen j).mp hj)
    exact Option.some.inj hij
  pointer := by simp only [h.isOpen, Option.isSome_iff_exists]
  refers i := (h.isOpen i).mpr
  session hs i hi := by
    rw [h.isOpen, h.session hs] at hi
    cases hi

theorem Effect.isOpen_iff (h : Effect env b w w') (hw : w.WellFormed)
    (ho : ∀ i, w.IsOpen i ↔ w.pi.pSonarFrame = some i) :
    ∀ i, w'.IsOpen i ↔ w'.pi.pSonarFrame = some i := by
  intro i
  obtain ⟨hp, ho'⟩ | ⟨hp, j, f, hf, ht, ho'⟩ | ⟨-, hp, hp', ho'⟩ := h.isOpen_cases
  · rw [ho', ho, hp]
  · have hj : w.IsOpen j := ⟨f, hf, by simp [(hw.sound j f hf).life_of_timer ht]⟩
    rw [ho', hp, ho, (ho j).mp hj]
    simp [eq_comm]
  · rw [ho', ho, hp, hp']
    simp [eq_comm]

theorem Effects.isOpen_iff (h : Effects env b w w') (hw : w.WellFormed)
    (ho : ∀ i, w.IsOpen i ↔ w.pi.pSonarFrame = some i) :
    ∀ i, w'.IsOpen i ↔ w'.pi.pSonarFrame = some i := by
  induction h with
  | refl => exact ho
  | tail hv h ih => exact h.isOpen_iff (Effects.wellFormed hv hw) ih

theorem Effects.pointer_none (h : Effects env false w w') (hp : w.pi.pSonarFrame = none) :
    w'.pi.pSonarFrame = none := by
  induction h with
  | refl => exact hp
  | tail _ h ih =>
    obtain ⟨hp', -⟩ | ⟨hp', -⟩ | ⟨hb, -⟩ := h.isOpen_cases
    · exact hp'.trans ih
    · exact hp'
    · cases hb

theorem toggle_pointer (h : w.toggleSonarFrame env = .ok w') :
    w'.pi.pSonarFrame = none ↔ ¬ w.pi.pSonarFrame = none := by
  obtain ⟨hp, s, hnew, rfl⟩ | ⟨i, f, s, hp, hf, hclosed, rfl⟩ := toggle_cases h
  · have hs : s.app.pi.pSonarFrame = some w.nextFrame := by
      rw [hnew.pi]
    have hne : s.app.pi.pSonarFrame ≠ none := by simp [hs]
    simpa [hp] using hne
  · obtain ⟨v, -, hpi⟩ := hclosed.pi
    have hs : s.app.pi.pSonarFrame = none := by rw [hpi]
    simpa [hp] using hs

theorem chartKey_pointer (h : World.step env (.chartKey .one true) w = .ok w') :
    (w'.pi.pSonarFrame = none ↔ w.pi.pSonarFrame = none) ↔ Even w.host.handlers :=
  repeatStep_flip (fun _ => True) (fun v => v.pi.pSonarFrame = none)
    (fun _ _ _ h => ⟨trivial, toggle_pointer h⟩) trivial h

theorem deInit_pointer (h : w.deInit = .ok w') : w'.pi.pSonarFrame = none := by
  obtain ⟨hp, rfl⟩ | ⟨i, f, s, -, hf, hs, rfl⟩ := onSonarFrame_eq_ok.mp h
  · exact hp
  · obtain ⟨v, -, hpi⟩ := (onClose_ok hs).pi
    change s.app.pi.pSonarFrame = none
    rw [hpi]

theorem construct_tracked (env : Env) (config : FileConfig) (dilg1 : Colour) :
    (World.construct env config dilg1).Tracked where
  wellFormed := construct_wellFormed env config dilg1
  isOpen i := by
    constructor
    · rintro ⟨f, hf, -⟩
      cases hf
    · intro h
      cases h
  session _ := rfl

theorem World.Tracked.mayToggle {e : Event} (hw : w.Tracked) (hs : w.host.initialised = false)
    (he : (hosted env).allowed w e) (ht : e.mayToggle = true) : e = .chartKey .one true := by
  cases e with
  | toolbar id =>
    have hin : w.host.initialised = true := he.2
    simp [hs] at hin
  | chartKey k ctrl =>
    simp only [Event.mayToggle, Bool.and_eq_true, decide_eq_true_eq] at ht
    rw [ht.1, ht.2]
  | frame i e =>
    exfalso
    obtain ⟨f, hf, hacc⟩ := allows_frame he.1
    have hlife : f.life = .created := by
      cases e <;> first | cases ht | simpa [SonarFrame.accepts] using hacc
    have ho : w.IsOpen i := ⟨f, hf, by simp [hlife]⟩
    rw [hw.isOpen, hw.session hs] at ho
    cases ho
  | _ => cases ht

theorem step_tracked {e : Event} (hw : w.Tracked) (he : (hosted env).allowed w e)
    (hc : w.EvenKeys e) (h : World.step env e w = .ok w') : w'.Tracked := by
  refine ⟨step_wellFormed hw.wellFormed he.1 h, ?_, ?_⟩
  · obtain ⟨answer, a, rfl, ha, rfl⟩ | ⟨v, rfl, hv, rfl⟩ | ⟨r, a, rfl, hd, rfl⟩ | ⟨-, h⟩ :=
      step_cases he.1 h
    · have hs : w.host.initialised = false := by simpa [World.inOrder] using he.2
      have hp := (init_ok ha).pSonarFrame
      intro i
      refine Iff.trans (isOpen_congr (w := w) rfl) ?_
      rw [hw.isOpen, hw.session hs]
      simp [hp]
    · have hv' : Effects env false w v := deInit_effects hv
      intro i
      exact Iff.trans (isOpen_congr (w := v) rfl) (hv'.isOpen_iff hw.wellFormed hw.isOpen i)
    · intro i
      refine Iff.trans (isOpen_congr (w := w) rfl) ?_
      rw [hw.isOpen, ← hd.pSonarFrame]
    · exact h.isOpen_iff hw.wellFormed hw.isOpen
  · intro hs
    obtain ⟨answer, a, rfl, ha, rfl⟩ | ⟨v, rfl, hv, rfl⟩ | ⟨r, a, rfl, hd, rfl⟩ | ⟨-, h'⟩ :=
      step_cases he.1 h
    · cases hs
    · have hp := deInit_pointer hv
      exact hp
    · exact hd.pSonarFrame.trans (hw.session (hd.initialised.symm.trans hs))
    · have hs' : w.host.initialised = false := h'.host_kept.1.symm.trans hs
      cases ht : e.mayToggle with
      | false => exact Effects.pointer_none (ht ▸ h') (hw.session hs')
      | true =>
        obtain rfl := hw.mayToggle hs' he ht
        exact ((chartKey_pointer h).mpr (hc hs' rfl)).mpr (hw.session hs')

theorem run_tracked {config : FileConfig} {dilg1 : Colour} {es : List Event}
    (h : ((hosted env).restrict World.EvenKeys).Run (World.construct env config dilg1) es w) :
    w.Tracked := by
  refine h.invariant World.Tracked (construct_tracked env config dilg1) ?_
  intro v e u hv he hs
  exact step_tracked hv he.1 he.2 hs

end

/-- The invariant holds along every run in which the chart window gets no
Ctrl+1 between sessions while an odd number of handlers is bound, and the first
such key press breaks it. -/
theorem singleFrame_until_odd_key (env : Env) (config : FileConfig) (dilg1 : Colour) :
    (∀ es w, ((hosted env).restrict World.EvenKeys).Run (World.construct env config dilg1) es w →
        w.SingleFrame) ∧
      ∀ es w e w',
        ((hosted env).restrict World.EvenKeys).Run (World.construct env config dilg1) es w →
        (hosted env).allowed w e → ¬ w.EvenKeys e → World.step env e w = .ok w' →
        ¬ w'.SingleFrame := by
  refine ⟨fun es w h => (run_tracked h).singleFrame, ?_⟩
  intro es w e w' h he hodd hstep hsingle
  have hw := run_tracked h
  unfold World.EvenKeys at hodd
  push Not at hodd
  obtain ⟨hs, rfl, hodd⟩ := hodd
  have hs' : w'.host.initialised = false := by
    obtain ⟨_, _, hk, _⟩ | ⟨_, hk, _⟩ | ⟨_, _, hk, _⟩ | ⟨-, h'⟩ := step_cases he.1 hstep
    · cases hk
    · cases hk
    · cases hk
    · exact h'.host_kept.1.trans hs
  have hp : w'.pi.pSonarFrame ≠ none := by
    intro hp
    exact hodd ((chartKey_pointer hstep).mp (iff_of_true hp (hw.session hs)))
  obtain ⟨i, hi⟩ := hsingle.pointer.mp (Option.isSome_iff_ne_none.mpr hp)
  exact hsingle.session hs' i hi

theorem frame_open_after_deInit :
    ∃ w, (hosted .desktop).Run (World.blank .desktop)
        [.init true, .deInit, .chartKey .one true] w ∧ ¬ w.SingleFrame := by
  let p (w : World) : Bool :=
    !w.host.initialised && (w.frames 0).any fun f => f.life ≠ .closed
  obtain ⟨w, hrun, hp⟩ := System.exists_run_of_exec (hosted .desktop) (World.blank .desktop)
    [.init true, .deInit, .chartKey .one true] p (by decide +kernel)
  refine ⟨w, hrun, fun h => ?_⟩
  simp only [p, Bool.and_eq_true, Bool.not_eq_true'] at hp
  cases hf : w.frames 0 with
  | none => simp [hf] at hp
  | some f => exact h.session hp.1 0 ⟨f, hf, by simpa [hf] using hp.2⟩

end SonarPlugin
