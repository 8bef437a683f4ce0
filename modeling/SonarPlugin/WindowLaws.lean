import SonarPlugin.Windows

namespace SonarPlugin

open Library

namespace Lifecycle

variable {ok : FrameId → Bool} {L : Lifecycle}

theorem toggled_next (n : Nat) : (L.toggled ok n).next = L.next + (n + 1) / 2 := by
  unfold toggled
  split
  next hn =>
    change L.next + n / 2 = _
    omega
  next hn =>
    change L.next + n / 2 + 1 = _
    omega

theorem toggled_closed {n i : Nat} (hi : L.next ≤ i) (hn : i < (L.toggled ok n).next)
    (hc : (L.toggled ok n).current ≠ some i) : (L.toggled ok n).lives i = some .closed := by
  unfold toggled at hn hc ⊢
  split at hn
  next heven =>
    rw [if_pos heven]
    exact if_pos ⟨hi, hn⟩
  next hodd =>
    rw [if_neg hodd] at hc ⊢
    have hne : i ≠ (L.cycles (n / 2)).next := fun h => hc (h ▸ rfl)
    have hlt : i < (L.cycles (n / 2)).next := Nat.lt_of_le_of_ne (Nat.le_of_lt_succ hn) hne
    exact (setLife_of_ne hne).trans (if_pos ⟨hi, hlt⟩)

theorem afterToggles_next (n : Nat) : (L.afterToggles ok n).next =
    L.next + (n + if L.current = none then 1 else 0) / 2 := by
  unfold afterToggles
  cases hc : L.current with
  | none => exact toggled_next n
  | some i =>
    cases n with
    | zero => simp
    | succ n => exact toggled_next n

theorem afterToggles_closed {n i : Nat} (hi : L.next ≤ i) (hn : i < (L.afterToggles ok n).next)
    (hc : (L.afterToggles ok n).current ≠ some i) :
    (L.afterToggles ok n).lives i = some .closed := by
  unfold afterToggles at hn hc ⊢
  cases hcur : L.current with
  | none =>
    simp only [hcur] at hn hc ⊢
    exact toggled_closed hi hn hc
  | some j =>
    cases n with
    | zero =>
      simp only [hcur] at hn
      exact absurd hn (Nat.not_lt.mpr hi)
    | succ n =>
      simp only [hcur] at hn hc ⊢
      exact toggled_closed hi hn hc

theorem run_valid {env : Env} {es : List Event} (h : (lifecycles env).Run .start es L) :
    L.Valid env :=
  h.invariant (Valid env) (start_valid env) fun _ _ _ hM he hs => step_valid hM he hs

theorem run_bounded {env : Env} {es : List Event} (h : (lifecycles env).Run .start es L) :
    L.Bounded (es.countP Event.isInit) := by
  induction h with
  | nil => simp [Bounded, opens, start]
  | @snoc es e L M hrun ha hs ih =>
    rw [List.countP_append]
    simpa using step_bounded (run_valid hrun) ha hs ih

end Lifecycle

/-- The lifecycle model and the plug-in have the same runs, and in every
reachable state each event has the same outcome in both, the fault included. -/
theorem windows_shown (env : Env) (config : FileConfig) (dilg1 : Colour) :
    (∀ es w, (machine env).Run (World.construct env config dilg1) es w →
        (lifecycles env).Run .start es w.lifecycle ∧
          ∀ e, (machine env).allowed w e →
            Lifecycle.step env e w.lifecycle = (World.step env e w).map World.lifecycle) ∧
      ∀ es L, (lifecycles env).Run .start es L →
        ∃ w, (machine env).Run (World.construct env config dilg1) es w ∧ w.lifecycle = L := by
  refine ⟨fun es w h => ⟨run_shown h, fun e he => ?_⟩, fun es L h => ?_⟩
  · exact step_shown (run_coherent h) he
  · exact (machine_shows env).lift (construct_coherent env config dilg1) h

/-- After `n` calls of `Init`, Ctrl+1 on the chart window toggles `n` times:
it opens a new window every other time, and shuts all of them again but the one
that is current in the end. -/
theorem chart_key_opens_half {env : Env} {config : FileConfig} {dilg1 : Colour}
    {es : List Event} {w : World}
    (h : (machine env).Run (World.construct env config dilg1) es w)
    (he : (machine env).allowed w (.chartKey .one true))
    (hsafe : ¬ w.lifecycle.ToggleHazard env.dialogOk (es.countP Event.isInit)) :
    ∃ w', World.step env (.chartKey .one true) w = .ok w' ∧
      w'.lifecycle = w.lifecycle.afterToggles env.dialogOk (es.countP Event.isInit) ∧
      w'.toggles = w.toggles + es.countP Event.isInit ∧
      w'.nextFrame = w.nextFrame +
        (es.countP Event.isInit + if w.pi.pSonarFrame = none then 1 else 0) / 2 ∧
      ∀ i, w.nextFrame ≤ i → i < w'.nextFrame → w'.pi.pSonarFrame ≠ some i →
        ∃ f, w'.frames i = some f ∧ f.life = .closed := by
  have hhandlers := run_handlers h
  rw [← hhandlers] at hsafe ⊢
  have hshown : Lifecycle.step env (.chartKey .one true) w.lifecycle = _ :=
    step_shown (run_coherent h) he
  have hall := Lifecycle.toggles_safe (Lifecycle.run_valid (run_shown h)) w.host.handlers hsafe
  have hstep : Lifecycle.step env (.chartKey .one true) w.lifecycle =
      repeatStep (Lifecycle.toggle env.dialogOk) w.host.handlers w.lifecycle := by
    have htoggle : Lifecycle.toggleOnKey env.dialogOk .one true = Lifecycle.toggle env.dialogOk := rfl
    rw [← htoggle]
    rfl
  rw [hstep, hall] at hshown
  obtain ⟨w', hw', hlife⟩ := map_eq_ok.mp hshown.symm
  have hnext := (congrArg Lifecycle.next hlife).trans (Lifecycle.afterToggles_next _)
  refine ⟨w', hw', hlife, chartKey_toggles hw', hnext, fun i hi hlt hc => ?_⟩
  have hclosed : w'.lifecycle.lives i = some .closed := by
    rw [hlife]
    refine Lifecycle.afterToggles_closed hi ?_ ?_
    · rw [← hlife]
      exact hlt
    · rw [← hlife]
      exact hc
  exact Option.map_eq_some_iff.mp hclosed

theorem chart_key_in_third_session :
    ∃ w w', (machine .desktop).Run (World.blank .desktop)
        [.init true, .deInit, .init true, .deInit, .init true] w ∧
      World.step .desktop (.chartKey .one true) w = .ok w' ∧ w'.nextFrame = 2 := by
  obtain ⟨w, hrun, hp⟩ := System.exists_run_of_exec (machine .desktop) (World.blank .desktop)
    [.init true, .deInit, .init true, .deInit, .init true]
    (fun w => w.host.alive && decide (w.pi.pSonarFrame = none) && decide (w.nextFrame = 0))
    (by decide +kernel)
  simp only [Bool.and_eq_true, decide_eq_true_eq] at hp
  obtain ⟨⟨halive, hnone⟩, hnext⟩ := hp
  have hsafe : ¬ w.lifecycle.ToggleHazard Env.desktop.dialogOk 3 := by
    rintro (⟨-, i, hi, -⟩ | ⟨j, -, hj⟩)
    · cases hnone.symm.trans hi
    · cases hj
  have hallowed : (machine .desktop).allowed w (.chartKey .one true) := by
    simp [machine, World.allows, halive]
  obtain ⟨w', hw', -, -, hnext', -⟩ := chart_key_opens_half hrun hallowed hsafe
  refine ⟨w, w', hrun, hw', ?_⟩
  rw [hnext', hnext, if_pos hnone]
  rfl

/-- Open windows pile up by one for every `Init` at most, in any order of events. -/
theorem open_windows_bounded {env : Env} {config : FileConfig} {dilg1 : Colour}
    {es : List Event} {w : World} (h : (machine env).Run (World.construct env config dilg1) es w)
    (s : Finset FrameId) (hs : ∀ i ∈ s, w.IsOpen i) :
    s.card ≤ es.countP Event.isInit + if w.pi.pSonarFrame.isSome then 1 else 0 := by
  have hvalid := Lifecycle.run_valid (run_shown h)
  refine (Finset.card_le_card fun i hi => ?_).trans (Lifecycle.run_bounded (run_shown h))
  obtain ⟨f, hf, hopen⟩ := hs i hi
  exact (Lifecycle.mem_opens hvalid).mpr ⟨f.life, lifecycle_lives hf, hopen⟩

theorem open_windows_bound_reached :
    ∃ w, (machine .desktop).Run (World.blank .desktop) [.toolbar 1, .init true, .toolbar 1] w ∧
      (∀ i ∈ ({0, 1} : Finset FrameId), w.IsOpen i) ∧
      ({0, 1} : Finset FrameId).card ≤ 1 + if w.pi.pSonarFrame.isSome then 1 else 0 := by
  obtain ⟨w, hrun, hp⟩ := System.exists_run_of_exec (machine .desktop) (World.blank .desktop)
    [.toolbar 1, .init true, .toolbar 1]
    (fun w => decide ((w.frames 0).map SonarFrame.life = some .created) &&
      decide ((w.frames 1).map SonarFrame.life = some .created)) (by decide +kernel)
  simp only [Bool.and_eq_true, decide_eq_true_eq, Option.map_eq_some_iff] at hp
  obtain ⟨⟨f, hf, hflife⟩, g, hg, hglife⟩ := hp
  have hopen (i : FrameId) (hi : i ∈ ({0, 1} : Finset FrameId)) : w.IsOpen i := by
    obtain rfl | rfl : i = 0 ∨ i = 1 := by simpa using hi
    · exact ⟨f, hf, by simp [hflife]⟩
    · exact ⟨g, hg, by simp [hglife]⟩
  exact ⟨w, hrun, hopen, open_windows_bounded hrun {0, 1} hopen⟩

end SonarPlugin
