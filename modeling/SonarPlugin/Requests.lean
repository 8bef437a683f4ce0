import SonarPlugin.SingleFrame

namespace SonarPlugin

open Library Relation

inductive Request
  | chart
  | canvas (i : FrameId)
  | toolbar (id : Nat)

def Request.event : Request → Event
  | .chart => .chartKey .one true
  | .canvas i => .frame i (.key .one true)
  | .toolbar id => .toolbar id

def World.toggles (w : World) : Nat := w.log.count .toggleSonarFrame

/-- The request runs one toggle, and a frame is open afterwards if and only
if none was open before. -/
def World.TogglesOnce (env : Env) (w : World) (r : Request) : Prop :=
  ∃ w', World.step env r.event w = .ok w' ∧ w'.toggles = w.toggles + 1 ∧
    ((∃ i, w'.IsOpen i) ↔ ¬ ∃ i, w.IsOpen i)

def World.TogglesNever (env : Env) (w : World) (r : Request) : Prop :=
  ∃ w', World.step env r.event w = .ok w' ∧ w'.toggles = w.toggles

/-- Every open frame is the one `m_pSonarFrame` refers to, and its window
exists. -/
def World.Complete (w : World) : Prop :=
  ∀ i f, w.frames i = some f → f.life ≠ .closed → w.pi.pSonarFrame = some i ∧ f.life = .created

section

variable {env : Env} {b : Bool} {w w' : World}

theorem run_handlers {config : FileConfig} {dilg1 : Colour} {es : List Event}
    (h : (machine env).Run (World.construct env config dilg1) es w) :
    w.host.handlers = es.countP Event.isInit := by
  induction h with
  | nil => rfl
  | @snoc es e v u _ ha hs ih =>
    rw [List.countP_append, ← ih]
    obtain ⟨answer, a, rfl, ha', rfl⟩ | ⟨v', rfl, hv, rfl⟩ | ⟨r, a, rfl, hd, rfl⟩ |
      ⟨hplain, h'⟩ := step_cases ha hs
    · exact (init_ok ha').handlers
    · have hd : Effects env false v v' := deInit_effects hv
      have hk := hd.host_kept.2
      simpa [Event.isInit] using hk
    · exact hd.handlers
    · have he : e.isInit = false := by
        cases e with
        | init answer => cases hplain
        | _ => rfl
      rw [h'.host_kept.2]
      simp [he]

theorem toggle_toggles (h : w.toggleSonarFrame env = .ok w') : w'.toggles = w.toggles + 1 := by
  have hnote : (w.toApp.note .toggleSonarFrame).log.count .toggleSonarFrame = w.toggles + 1 :=
    List.count_cons_self
  obtain ⟨-, s, hnew, rfl⟩ | ⟨i, f, s, -, -, hclosed, rfl⟩ := toggle_cases h
  · obtain ⟨calls, hlog, hcalls, -⟩ := hnew.log
    have hnot : Call.toggleSonarFrame ∉ calls := fun hmem => by cases hcalls _ hmem
    change s.app.log.count _ = _
    rw [hlog, List.count_append, List.count_eq_zero.mpr hnot, ← hnote]
    exact Nat.zero_add _
  · change s.app.log.count _ = _
    obtain ⟨calls, hlog, hcalls⟩ := hclosed.calls
    have hnot : Call.toggleSonarFrame ∉ calls := by
      intro hmem
      obtain h | h | h | h := hcalls _ hmem <;> cases h
    rw [hlog, List.count_append, ← hnote, List.count_eq_zero.mpr hnot]
    exact Nat.zero_add _

theorem chartKey_toggles (h : World.step env (.chartKey .one true) w = .ok w') :
    w'.toggles = w.toggles + w.host.handlers :=
  repeatStep_count World.toggles (fun _ _ h => toggle_toggles h) h

theorem onFrame_idle {i : FrameId} {f : SonarFrame} (hf : w.frames i = some f) :
    w.onFrame i (fun s => .ok s) = .ok w := by
  have hput : w.put i ⟨f, w.toApp⟩ = w := by
    simp only [World.put, ← hf, Function.update_eq_self]
  exact onFrame_eq_ok.mpr ⟨f, ⟨f, w.toApp⟩, hf, rfl, hput.symm⟩

theorem toggle_frames {i : FrameId} {f : SonarFrame} (h : w.toggleSonarFrame env = .ok w')
    (hf : w.frames i = some f) : ∃ g, w'.frames i = some g := by
  have hput (v : World) (j : FrameId) (s : Scene) (hv : v.frames i = some f) :
      ∃ g, (v.put j s).frames i = some g := by
    by_cases hij : i = j
    · subst hij
      exact ⟨s.frame, put_frames_self v i s⟩
    · exact ⟨f, (put_frames_of_ne v s hij).trans hv⟩
  obtain ⟨-, s, -, rfl⟩ | ⟨j, g, s, -, -, -, rfl⟩ := toggle_cases h
  · exact hput _ w.nextFrame s hf
  · exact hput _ j s hf

theorem request_eq_toggle {r : Request} (he : w.allows r.event = true)
    (hr : r = .chart → w.host.handlers = 1) :
    World.step env r.event w = w.toggleSonarFrame env := by
  cases r with
  | toolbar id => rfl
  | chart =>
    change repeatStep _ w.host.handlers w = _
    rw [hr rfl, repeatStep_one]
    rfl
  | canvas i =>
    obtain ⟨f, hf, -⟩ := allows_frame he
    change (w.toggleSonarFrame env >>= fun v => v.onFrame i fun s => .ok s) = _
    cases ht : w.toggleSonarFrame env with
    | error x => rfl
    | ok v =>
      obtain ⟨g, hg⟩ := toggle_frames ht hf
      exact onFrame_idle hg

theorem toggle_total (hw : w.WellFormed) (hc : w.Complete) :
    ∃ w', w.toggleSonarFrame env = .ok w' := by
  cases hp : w.pi.pSonarFrame with
  | none =>
    obtain ⟨s, -, hs⟩ := toggle_opens env hp
    exact ⟨_, hs⟩
  | some i =>
    obtain ⟨f, hf, hlife⟩ := hw.pointer i hp
    have hs := hw.sound i f hf
    obtain ⟨t, ht⟩ := onClose_total (s := ⟨f, w.toApp.note .toggleSonarFrame⟩)
      (hs.created (hc i f hf hlife).2).1 hs.viewState
    refine ⟨World.put { w with toApp := w.toApp.note .toggleSonarFrame } i t, ?_⟩
    simp only [World.toggleSonarFrame, App.note, hp]
    exact onFrame_eq_ok.mpr ⟨f, t, hf, ht, rfl⟩

theorem toggle_flips_iff (hw : w.WellFormed) (h : w.toggleSonarFrame env = .ok w') :
    ((∃ i, w'.IsOpen i) ↔ ¬ ∃ i, w.IsOpen i) ↔ w.Complete := by
  obtain ⟨hp, s, hnew, rfl⟩ | ⟨i, f, s, hp, hf, hclosed, rfl⟩ := toggle_cases h
  · have hopen : ∃ i, World.IsOpen { w.put w.nextFrame s with nextFrame := w.nextFrame + 1 } i := by
      refine ⟨w.nextFrame, s.frame, put_frames_self w w.nextFrame s, ?_⟩
      rw [hnew.life]
      split <;> simp
    constructor
    · intro hflip i f hf hlife
      exact absurd ⟨i, f, hf, hlife⟩ (hflip.mp hopen)
    · rintro hc
      refine iff_of_true hopen ?_
      rintro ⟨i, f, hf, hlife⟩
      have hi := (hc i f hf hlife).1
      simp [hp] at hi
  · have hlife := (hw.sound i f hf).life_of_timer hclosed.timer
    have hclosed' : s.frame.life = .closed := by rw [hclosed.frame]
    have hopen : ∃ i, w.IsOpen i := ⟨i, f, hf, by simp [hlife]⟩
    have hother (j : FrameId) :
        (World.put { w with toApp := w.toApp.note .toggleSonarFrame } i s).IsOpen j ↔
          j ≠ i ∧ w.IsOpen j := by
      by_cases hij : j = i
      · subst hij
        simp [isOpen_put_self, hclosed']
      · rw [isOpen_put_of_ne hij]
        simp [hij, World.IsOpen]
    simp only [hother, hopen, not_true_eq_false, iff_false, not_exists, not_and]
    constructor
    · intro hnone j g hg hg'
      have hij : j = i := by
        by_contra hij
        exact hnone j hij ⟨g, hg, hg'⟩
      subst hij
      obtain rfl : f = g := Option.some.inj (hf.symm.trans hg)
      exact ⟨hp, hlife⟩
    · rintro hc j hij ⟨g, hg, hg'⟩
      have hj := (hc j g hg hg').1
      exact hij (Option.some.inj (hj.symm.trans hp))

theorem togglesOnce_iff {r : Request} (hw : w.WellFormed) (he : w.allows r.event = true) :
    w.TogglesOnce env r ↔ (r = .chart → w.host.handlers = 1) ∧ w.Complete := by
  constructor
  · rintro ⟨w', hs, ht, hflip⟩
    have hr : r = .chart → w.host.handlers = 1 := by
      rintro rfl
      have ht' := chartKey_toggles hs
      omega
    rw [request_eq_toggle he hr] at hs
    exact ⟨hr, (toggle_flips_iff hw hs).mp hflip⟩
  · rintro ⟨hr, hc⟩
    obtain ⟨w', hs⟩ : ∃ w', w.toggleSonarFrame env = .ok w' := toggle_total hw hc
    refine ⟨w', (request_eq_toggle he hr).trans hs, toggle_toggles hs, ?_⟩
    exact (toggle_flips_iff hw hs).mpr hc

theorem togglesNever_iff : w.TogglesNever env .chart ↔ w.host.handlers = 0 := by
  constructor
  · rintro ⟨w', hs, ht⟩
    have ht' := chartKey_toggles hs
    omega
  · intro hh
    refine ⟨w, ?_, rfl⟩
    change repeatStep _ w.host.handlers w = _
    rw [hh]
    rfl

end

/-- In every session a request is served if and only if a key press on the
chart window comes after one `Init` only and the frame is complete. After a
`DeInit` a key press is never ignored. -/
theorem requests_served_iff {env : Env} {config : FileConfig} {dilg1 : Colour} {es : List Event}
    {w : World} (h : (hosted env).Run (World.construct env config dilg1) es w) :
    (w.host.initialised = true → ∀ r : Request, (hosted env).allowed w r.event →
        (w.TogglesOnce env r ↔ (r = .chart → es.countP Event.isInit = 1) ∧ w.Complete)) ∧
      (w.host.initialised = false →
        (w.TogglesNever env .chart ↔ es.countP Event.isInit = 0)) := by
  have hw := run_wellFormed h.of_restrict
  have hh := run_handlers h.of_restrict
  constructor
  · intro _ r he
    rw [← hh]
    exact togglesOnce_iff hw he.1
  · intro _
    rw [← hh]
    exact togglesNever_iff

theorem requests_served_first_session :
    ∃ w : World, w.TogglesOnce .desktop .chart ∧ w.TogglesOnce .desktop (.toolbar 1) := by
  let p (w : World) : Bool :=
    w.host.initialised && w.host.alive && (w.frames 0).isNone && w.nextFrame = 0
  obtain ⟨w, hrun, hp⟩ := System.exists_run_of_exec (hosted .desktop)
    (World.blank .desktop) [.init true] p (by decide +kernel)
  simp only [p, Bool.and_eq_true, decide_eq_true_eq, Option.isNone_iff_eq_none] at hp
  obtain ⟨⟨⟨hs, halive⟩, hf⟩, hn⟩ := hp
  have hc : w.Complete := by
    intro i f hi
    rw [(run_wellFormed hrun.of_restrict).fresh i (by simp [hn])] at hi
    cases hi
  have hserved := (requests_served_iff hrun).1 hs
  refine ⟨w, ?_, ?_⟩
  · exact (hserved .chart ⟨by simp [machine, World.allows, Request.event, halive], rfl⟩).mpr ⟨fun _ => rfl, hc⟩
  · exact (hserved (.toolbar 1) ⟨by simp [machine, World.allows, Request.event, halive], hs⟩).mpr
      ⟨fun h => (by cases h), hc⟩

theorem key_toggles_twice_in_second_session :
    ∃ w, (hosted .desktop).Run (World.blank .desktop) [.init true, .deInit, .init true] w ∧
      w.host.initialised = true ∧ (hosted .desktop).allowed w (Request.chart).event ∧
      ¬ w.TogglesOnce .desktop .chart := by
  let p (w : World) : Bool :=
    w.host.initialised && w.host.alive && decide (w.host.handlers = 2)
  obtain ⟨w, hrun, hp⟩ := System.exists_run_of_exec (hosted .desktop)
    (World.blank .desktop) [.init true, .deInit, .init true] p (by decide +kernel)
  simp only [p, Bool.and_eq_true, decide_eq_true_eq] at hp
  obtain ⟨⟨hs, halive⟩, hh⟩ := hp
  refine ⟨w, hrun, hs, ⟨by simp [machine, World.allows, Request.event, halive], rfl⟩, ?_⟩
  rintro ⟨w', hstep, ht, -⟩
  have ht' := chartKey_toggles hstep
  omega

end SonarPlugin
