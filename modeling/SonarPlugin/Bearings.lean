import SonarPlugin.OwnEvents
import SonarPlugin.PositionFixes

namespace SonarPlugin

open Library

/-- What an event of frame `i` adds to its bearing: a check of its box the course
stored at that time, an uncheck the same course negated. -/
def Event.turn (i : FrameId) (d : FixData) (e : Event) : List Double :=
  match e.own? i with
  | some (.northUp true) => [d.cog]
  | some (.northUp false) => [d.cog.neg]
  | _ => []

def turns (i : FrameId) (d : FixData) : List Event → List Double
  | [] => []
  | e :: es => e.turn i d ++ turns i (e.fixAfter d) es

/-- Sum up in the order of the list, with a rounding after each addition. -/
def Double.sum (xs : List Double) : Double := xs.foldl Double.add .zero

def fixesAfter (d : FixData) (es : List Event) : FixData := es.foldl Event.fixAfter d

theorem turns_append_singleton (i : FrameId) (d : FixData) (es : List Event) (e : Event) :
    turns i d (es ++ [e]) = turns i d es ++ e.turn i (fixesAfter d es) := by
  induction es generalizing d with
  | nil => simp [turns, fixesAfter]
  | cons e' es ih =>
    rw [List.cons_append, turns, turns, ih, List.append_assoc]
    rfl

namespace Double

def IsNum (x : Double) : Prop := ∃ q, x = .num q

theorem sum_append_singleton (xs : List Double) (x : Double) : sum (xs ++ [x]) = (sum xs).add x :=
  List.foldl_append

theorem IsNum.neg {x : Double} (hx : x.IsNum) : x.neg.IsNum := by
  obtain ⟨q, rfl⟩ := hx
  exact ⟨-q, rfl⟩

theorem add_ne_nan {x y : Double} (hx : x ≠ .nan) (hy : y.IsNum) : x.add y ≠ .nan := by
  obtain ⟨q, rfl⟩ := hy
  cases x with
  | num p =>
    change rounded (p + q) ≠ .nan
    unfold rounded
    split <;> simp
  | inf s => simp [add]
  | nan => exact absurd rfl hx

theorem sum_ne_nan {xs : List Double} (h : ∀ x ∈ xs, x.IsNum) : sum xs ≠ .nan := by
  induction xs using List.reverseRecOn with
  | nil => exact fun hnan => by cases hnan
  | append_singleton xs x ih =>
    rw [sum_append_singleton]
    exact add_ne_nan (ih fun y hy => h y (List.mem_append_left _ hy)) (h x (by simp))

theorem sum_exact {qs : List ℚ} (h : ∀ ps, ps <+: qs → Format.double.Represents ps.sum) :
    sum (qs.map .num) = .num qs.sum := by
  induction qs using List.reverseRecOn with
  | nil => rfl
  | append_singleton qs q ih =>
    have hqs := ih fun ps hps => h ps (hps.trans (List.prefix_append ..))
    have hlast := h (qs ++ [q]) List.prefix_rfl
    rw [List.sum_append, List.sum_singleton] at hlast ⊢
    rw [List.map_append, List.map_singleton, sum_append_singleton, hqs, add, rounded,
      if_neg (by simp [Format.not_overflows hlast]), Format.round_of_represents hlast]

end Double

section

variable {env : Env} {build : Build} {w w' : World} {i : FrameId} {f f' : SonarFrame}
  {s t : Scene} {d : FixData}

theorem fixAfter_cog {e : Event} (he : ∀ x, e = .positionFix x → x.cog ≠ .inf false)
    (hd : d.cog.IsNum) : (e.fixAfter d).cog.IsNum := by
  cases e with
  | init answer => exact ⟨0, rfl⟩
  | positionFix x =>
    change (d.receive x).cog.IsNum
    unfold FixData.receive
    split
    · change (if x.cog.nonneg then x.cog else d.cog).IsNum
      split
      next hx =>
        cases hcog : x.cog with
        | num q => exact ⟨q, rfl⟩
        | inf negative =>
          cases negative with
          | true => simp [hcog, Double.nonneg] at hx
          | false => exact absurd hcog (he x rfl)
        | nan => simp [hcog, Double.nonneg] at hx
      next => exact hd
    · exact hd
  | _ => exact hd

theorem turns_isNum {es : List Event} (hes : ∀ x, .positionFix x ∈ es → x.cog ≠ .inf false)
    (hd : d.cog.IsNum) : ∀ t ∈ turns i d es, t.IsNum := by
  induction es generalizing d with
  | nil => simp [turns]
  | cons e es ih =>
    intro t ht
    obtain ht | ht := List.mem_append.mp ht
    · unfold Event.turn at ht
      split at ht
      · rw [List.mem_singleton.mp ht]
        exact hd
      · rw [List.mem_singleton.mp ht]
        exact hd.neg
      · cases ht
    · refine ih (fun x hx => hes x (List.mem_cons_of_mem _ hx)) (fixAfter_cog ?_ hd) t ht
      rintro x rfl
      exact hes x (List.mem_cons_self ..)

theorem checkNorthUp_ebl {value : Bool} (h : s.checkNorthUp value = .ok t) :
    t.frame.ebl = if value then s.frame.ebl.add s.app.pi.cog else s.frame.ebl.sub s.app.pi.cog := by
  obtain ⟨hlive, -⟩ := checkNorthUp_ok h
  obtain ⟨b, hb⟩ := Ptr.isLive_iff.mp hlive
  unfold Scene.checkNorthUp at h
  rw [hb] at h
  cases h
  rfl

theorem handle_ebl {e : FrameEvent} (hnorth : ∀ value, e ≠ .northUp value)
    (h : e.handle build s = .ok t) : t.frame.ebl = s.frame.ebl := by
  cases e with
  | move p =>
    obtain ⟨v, -, rfl⟩ := onMove_ok h
    rfl
  | size client window disk =>
    obtain ⟨-, rfl⟩ | ⟨v, -, -, hr⟩ := onSize_ok h
    · rfl
    · rw [hr.frame]
  | paint disk => rw [(paintEvent_ok h).2.frame]
  | northUp value => exact absurd rfl (hnorth value)
  | close => rw [(onClose_ok h).frame]
  | colours cs dilg1 =>
    cases h
    rfl
  | _ => rw [(handle_steered rfl h).frame]

theorem opened_ebl (w : World) : (Scene.opened env w).frame.ebl = .zero := by
  unfold Scene.opened
  dsimp only
  split <;> rfl

structure World.Bears (w : World) (i : FrameId) (es : List Event) : Prop where
  fix : w.pi.fixData = fixesAfter .zero es
  ebl : ∀ f, w.frames i = some f → f.ebl = Double.sum (turns i .zero es)
  fresh : w.nextFrame ≤ i → turns i .zero es = []

theorem turn_eq_nil {e : Event} (he : ∀ value, e.own? i ≠ some (.northUp value)) :
    e.turn i d = [] := by
  unfold Event.turn
  split
  next h => exact absurd h (he true)
  next h => exact absurd h (he false)
  next => rfl

theorem step_ebl {e : Event} (he : ∀ value, e.own? i ≠ some (.northUp value))
    (h : World.step env e w = .ok w') (hf' : w'.frames i = some f') :
    (w.nextFrame ≤ i ∧ f'.ebl = .zero) ∨ ∃ f, w.frames i = some f ∧ f'.ebl = f.ebl := by
  have hpassed {v : World} (hv : FramesPassed env w v) {g : SonarFrame} (hg : v.frames i = some g) :
      (w.nextFrame ≤ i ∧ g.ebl = .zero) ∨ ∃ f, w.frames i = some f ∧ g.ebl = f.ebl := by
    obtain ⟨hnext, u, hp⟩ | ⟨f, hf, hp, -⟩ := hv.frames i g hg
    · refine .inl ⟨hnext, ?_⟩
      rw [hp.frame]
      exact opened_ebl u
    · refine .inr ⟨f, hf, ?_⟩
      rw [hp.frame]
  cases e with
  | frame j e =>
    obtain ⟨v, g, s, hv, -, hg, hs, rfl⟩ := frame_handled h
    by_cases hij : i = j
    · subst hij
      rw [put_frames_self] at hf'
      cases hf'
      have hnorth (value : Bool) : e ≠ .northUp value := by
        rintro rfl
        exact he value (by simp [Event.own?])
      rw [handle_ebl hnorth hs]
      exact hpassed hv hg
    · exact hpassed hv ((put_frames_of_ne v s hij).symm.trans hf')
  | _ => exact hpassed (step_framesPassed (fun j => rfl) h) hf'

theorem step_bears {es : List Event} {e : Event} (hw : w.WellFormed) (hb : w.Bears i es)
    (he : w.allows e = true) (h : World.step env e w = .ok w') : w'.Bears i (es ++ [e]) := by
  have hfix : w'.pi.fixData = fixesAfter .zero (es ++ [e]) := by
    rw [step_fixData he h, hb.fix, fixesAfter, fixesAfter, List.foldl_append]
    rfl
  by_cases hnorth : ∃ value, e.own? i = some (.northUp value)
  · obtain ⟨value, hown⟩ := hnorth
    obtain rfl := own?_eq_some hown
    obtain ⟨f, s, hf, hs, rfl⟩ := onFrame_eq_ok.mp h
    have hcog : w.pi.cog = (fixesAfter .zero es).cog := congrArg FixData.cog hb.fix
    refine ⟨hfix, fun g hg => ?_, fun hnext => ?_⟩
    · rw [put_frames_self] at hg
      cases hg
      rw [checkNorthUp_ebl hs, turns_append_singleton, Event.turn, hown, hb.ebl f hf, hcog]
      cases value with
      | true => exact (Double.sum_append_singleton _ _).symm
      | false => exact (Double.sum_append_singleton _ _).symm
    · have hnone := hw.fresh i hnext
      simp [hf] at hnone
  · simp only [not_exists] at hnorth
    have hturns : turns i .zero (es ++ [e]) = turns i .zero es := by
      rw [turns_append_singleton, turn_eq_nil hnorth, List.append_nil]
    refine ⟨hfix, fun g hg => ?_, fun hnext => ?_⟩
    · rw [hturns]
      obtain ⟨hnext, hzero⟩ | ⟨f, hf, hebl⟩ := step_ebl hnorth h hg
      · rw [hzero, hb.fresh hnext]
        rfl
      · rw [hebl, hb.ebl f hf]
    · rw [hturns]
      exact hb.fresh ((step_nextFrame h).trans hnext)

end

/-- The electronic bearing line of a frame is what the courses stored at its checks
and, negated, at its unchecks add up to in the arithmetic of doubles, whatever else
happens in between. It is not a NaN unless an infinite course has been received, and
exact as long as no partial sum needs rounding. -/
theorem bearing_is_sum_of_turns {env : Env} {config : FileConfig} {dilg1 : Colour}
    {es : List Event} {w : World} {i : FrameId} {f : SonarFrame}
    (h : (machine env).Run (World.construct env config dilg1) es w) (hf : w.frames i = some f) :
    f.ebl = Double.sum (turns i .zero es) ∧
      ((∀ x, .positionFix x ∈ es → x.cog ≠ .inf false) → f.ebl ≠ .nan) ∧
      ∀ qs : List ℚ, turns i .zero es = qs.map .num →
        (∀ ps, ps <+: qs → Format.double.Represents ps.sum) → f.ebl = .num qs.sum := by
  have hboth : w.WellFormed ∧ w.Bears i es := by
    clear hf
    induction h with
    | nil =>
      refine ⟨construct_wellFormed env config dilg1, rfl, fun g hg => ?_, fun _ => rfl⟩
      cases hg
    | snoc _ ha hs ih => exact ⟨step_wellFormed ih.1 ha hs, step_bears ih.1 ih.2 ha hs⟩
  have hebl := hboth.2.ebl f hf
  refine ⟨hebl, fun hes => ?_, fun qs hqs hexact => ?_⟩
  · rw [hebl]
    exact Double.sum_ne_nan (turns_isNum hes ⟨0, rfl⟩)
  · rw [hebl, hqs, Double.sum_exact hexact]

theorem bearing_drifts :
    ∃ w f, (machine .desktop).Run (World.blank .desktop)
        [.init true, .toolbar 1, .positionFix ⟨.num 5, .num 6, .num 90, .num 8, 9⟩,
          .frame 0 (.northUp true), .positionFix ⟨.num 5, .num 6, .num 60, .nan, 9⟩,
          .frame 0 (.northUp false)] w ∧
      w.frames 0 = some f ∧ f.ebl = .num 30 := by
  obtain ⟨w, hrun, hp⟩ := System.exists_run_of_exec (machine .desktop) (World.blank .desktop)
    [.init true, .toolbar 1, .positionFix ⟨.num 5, .num 6, .num 90, .num 8, 9⟩,
      .frame 0 (.northUp true), .positionFix ⟨.num 5, .num 6, .num 60, .nan, 9⟩,
      .frame 0 (.northUp false)] (fun w => (w.frames 0).isSome) (by decide +kernel)
  obtain ⟨f, hf⟩ := Option.isSome_iff_exists.mp hp
  refine ⟨w, f, hrun, hf, ?_⟩
  rw [(bearing_is_sum_of_turns hrun hf).1]
  decide +kernel

end SonarPlugin
