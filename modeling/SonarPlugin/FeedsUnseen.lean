import SonarPlugin.ViewSteps

namespace SonarPlugin

open Library

/-- The plug-in without what the host's data reaches: the stored fix, the target
array, the bearing that the course is added to, and the requests to repaint. -/
def withoutFeeds : View where
  feeds := false
  picture := true
  call := Option.guard fun c => !c.isFeedTrace
  call_twice c := by cases h : c.isFeedTrace <;> simp [Option.guard, h]
  without_feeds _ c hc := by simp [hc]
  without_picture := by simp

namespace withoutFeeds

open View

section

variable {env : Env} {w w' : World} {a b : App}

theorem hides_eq : withoutFeeds.hides = Event.isData := by
  funext e
  simp [View.hides, withoutFeeds]

theorem getSonarTargets_unseen {answer : Bool} (ha : a.pi.sonarTargets ≠ .dangling)
    (h : a.getSonarTargets answer = .ok b) : withoutFeeds.app b = withoutFeeds.app a := by
  obtain ⟨c, hc, hb⟩ := bind_eq_ok.mp h
  cases hb
  have hget (c : App) : withoutFeeds.app (c.getAISTargetArray answer) = withoutFeeds.app c := by
    unfold App.getAISTargetArray
    split <;> exact app_eq rfl rfl rfl rfl (log_forgotten rfl _)
  refine (hget c).trans ?_
  unfold App.deleteSonarTargets at hc
  split at hc
  next => cases hc; rfl
  next =>
    cases hc
    exact app_eq rfl rfl rfl rfl (log_forgotten rfl _)
  next ht => exact absurd ht ha

theorem refresh_unseen (h : w.onSonarFrame (fun s => .ok s.refresh) = .ok w') :
    withoutFeeds.world w' = withoutFeeds.world w := by
  obtain ⟨-, rfl⟩ | ⟨i, f, s, -, hf, hs, rfl⟩ := onSonarFrame_eq_ok.mp h
  · rfl
  · cases hs
    exact put_kept hf (scene_eq rfl (app_eq rfl rfl rfl rfl (log_forgotten rfl _)))

theorem data_unseen {e : Event} (hw : w.pi.sonarTargets ≠ .dangling) (he : e.isData = true)
    (h : World.step env e w = .ok w') : withoutFeeds.world w' = withoutFeeds.world w := by
  cases e with
  | aisSentence answer =>
    obtain ⟨t, ht, h⟩ := aisSentence_inv h
    refine (refresh_unseen h).trans ?_
    obtain rfl | ⟨a, ha, rfl⟩ := ht
    · rfl
    · exact app_congr rfl (getSonarTargets_unseen hw ha)
  | positionFix x =>
    obtain rfl | h := positionFix_inv h
    · rfl
    · refine (refresh_unseen h).trans (app_congr rfl ?_)
      exact app_eq rfl rfl rfl rfl rfl
  | getSonarTargets answer =>
    obtain ⟨a, ha, rfl⟩ := withApp_eq_ok.mp h
    exact app_congr rfl (getSonarTargets_unseen hw ha)
  | _ => cases he

end

end withoutFeeds

/-- The host's data reaches no window, no setting, no tool and no image: every
run goes through without its AIS sentences, fixes and target updates and ends in
the same world but for the stored fix, the target array, the bearings and the
requests to repaint. So do all runs that differ in nothing but the data. -/
theorem feeds_unseen {env : Env} {config : FileConfig} {dilg1 : Colour} {es : List Event}
    {w : World} (h : (machine env).Run (World.construct env config dilg1) es w) :
    (∃ v, (machine env).Run (World.construct env config dilg1) (es.filter fun e => !e.isData) v ∧
        withoutFeeds.world w = withoutFeeds.world v) ∧
      ∀ es' w', (machine env).Run (World.construct env config dilg1) es' w' →
        ((es.filter fun e => !e.isData) = es'.filter fun e => !e.isData) →
        withoutFeeds.world w = withoutFeeds.world w' := by
  have hunseen : (machine env).Unseen (fun u => u.Keeps) Event.isData withoutFeeds.world :=
    View.unseen withoutFeeds.hides_eq (fun _ _ _ hu he hs => step_keeps hu he hs)
      (fun _ hu => hu.valid) fun _ _ _ hu he hs => withoutFeeds.data_unseen hu.valid he hs
  have hstart := construct_keeps env config dilg1
  exact ⟨hunseen.purge hstart hstart rfl h,
    fun es' w' h' hes => hunseen.same_view hstart hstart rfl h h' hes⟩

theorem session_without_feeds :
    ∃ w v, (machine .desktop).Run (World.blank .desktop)
        [.init true, .toolbar 1, .positionFix ⟨.num 5, .num 6, .num 7, .num 8, 9⟩,
          .aisSentence true, .frame 0 .close] w ∧
      (machine .desktop).Run (World.blank .desktop) [.init true, .toolbar 1, .frame 0 .close] v ∧
      withoutFeeds.world w = withoutFeeds.world v := by
  obtain ⟨w, hrun, -⟩ := System.exists_run_of_exec (machine .desktop) (World.blank .desktop)
    [.init true, .toolbar 1, .positionFix ⟨.num 5, .num 6, .num 7, .num 8, 9⟩, .aisSentence true,
      .frame 0 .close] (fun _ => true) (by decide +kernel)
  obtain ⟨v, hv, hview⟩ := (feeds_unseen hrun).1
  exact ⟨w, v, hrun, hv, hview⟩

end SonarPlugin
