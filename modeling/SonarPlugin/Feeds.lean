import SonarPlugin.WellFormed

namespace SonarPlugin

open Library Relation

/-- The members that `SetPositionFix` stores. -/
@[ext] structure FixData where
  lat : Double
  lon : Double
  cog : Double
  sog : Double
  sats : Int
deriving DecidableEq

def FixData.zero : FixData := ⟨.zero, .zero, .zero, .zero, 0⟩

def SonarPi.fixData (p : SonarPi) : FixData := ⟨p.lat, p.lon, p.cog, p.sog, p.sats⟩

def Call.isHandover : Call → Bool
  | .getAISTargetArray _ | .deleteSonarTargets _ => true
  | _ => false

/-- The events in which the host feeds data to the plug-in, and the first and
the last event of its life. -/
def Event.isFeed : Event → Bool
  | .init _ | .aisSentence _ | .positionFix _ | .getSonarTargets _ | .destroy => true
  | _ => false

/-- A change that does not concern the target arrays. -/
structure TargetsKept (a b : App) : Prop where
  sonarTargets : b.pi.sonarTargets = a.pi.sonarTargets
  arrays : b.host.arrays = a.host.arrays
  alive : b.host.alive = a.host.alive
  log : ∃ calls, b.log = calls ++ a.log ∧ ∀ c ∈ calls, c.isHandover = false

structure FeedsKept (a b : App) : Prop extends TargetsKept a b where
  fixData : b.pi.fixData = a.pi.fixData

variable {a b c : App}

theorem TargetsKept.trans (h : TargetsKept a b) (h' : TargetsKept b c) : TargetsKept a c where
  sonarTargets := h'.sonarTargets.trans h.sonarTargets
  arrays := h'.arrays.trans h.arrays
  alive := h'.alive.trans h.alive
  log := prepended_trans h.log h'.log

namespace FeedsKept

protected theorem refl (a : App) : FeedsKept a a := ⟨⟨rfl, rfl, rfl, [], rfl, by simp⟩, rfl⟩

theorem trans (h : FeedsKept a b) (h' : FeedsKept b c) : FeedsKept a c :=
  ⟨h.toTargetsKept.trans h'.toTargetsKept, h'.fixData.trans h.fixData⟩

theorem note {x : Call} (hx : x.isHandover = false) (a : App) : FeedsKept a (a.note x) :=
  ⟨⟨rfl, rfl, rfl, [x], rfl, by simpa using hx⟩, rfl⟩

end FeedsKept

section

variable {env : Env} {w w' : World} {s t : Scene}

theorem Kept.feedsKept (h : Kept s t) : FeedsKept s.app t.app where
  fixData := by rw [h.pi]; rfl
  sonarTargets := by rw [h.pi]
  arrays := by rw [h.host]
  alive := by rw [h.host]
  log := by
    obtain ⟨calls, hlog, hcalls⟩ := h.log
    refine ⟨calls, hlog, fun c hc => ?_⟩
    have hroutine := hcalls c hc
    cases c with
    | getAISTargetArray | deleteSonarTargets => cases hroutine
    | _ => rfl

theorem Closed.feedsKept (h : Closed s t) : FeedsKept s.app t.app := by
  obtain ⟨v, -, hpi⟩ := h.pi
  obtain ⟨calls, hlog, hcalls⟩ := h.calls
  exact
    { fixData := by rw [hpi]; rfl
      sonarTargets := by rw [hpi]
      arrays := by rw [h.host]
      alive := by rw [h.host]
      log := ⟨calls, hlog, fun c hc => by obtain rfl | rfl | rfl | rfl := hcalls c hc <;> rfl⟩ }

theorem NewFrame.feedsKept (h : NewFrame env w s) : FeedsKept w.toApp s.app where
  fixData := by rw [h.pi]; rfl
  sonarTargets := by rw [h.pi]
  arrays := by rw [h.host]
  alive := by rw [h.host]
  log := by
    obtain ⟨calls, hlog, hcalls, -⟩ := h.log
    refine ⟨calls, hlog, fun c hc => ?_⟩
    have hopening := hcalls c hc
    cases c with
    | getAISTargetArray | deleteSonarTargets => cases hopening
    | _ => rfl

theorem dialog_feedsKept (result : Option (Bool × Bool)) (a : App) :
    FeedsKept a (a.showPreferencesDialog result) := by
  cases result with
  | none => exact .refl a
  | some r =>
    obtain ⟨icon, use⟩ := r
    have hsave (pi : SonarPi) (c : Call) (hc : c ∈ App.saves pi) : c.isHandover = false := by
      rw [App.eq_of_mem_saves hc]
      rfl
    simp only [App.showPreferencesDialog, App.saveConfig_eq]
    split
    · cases icon <;> exact ⟨⟨rfl, rfl, rfl, _, rfl, hsave _⟩, rfl⟩
    · exact ⟨⟨rfl, rfl, rfl, _, rfl, hsave _⟩, rfl⟩

theorem toggle_feedsKept (h : w.toggleSonarFrame env = .ok w') :
    FeedsKept w.toApp w'.toApp := by
  refine (FeedsKept.note (x := .toggleSonarFrame) rfl w.toApp).trans ?_
  obtain ⟨-, s, hnew, rfl⟩ | ⟨i, f, s, -, -, hclosed, rfl⟩ := toggle_cases h
  · exact hnew.feedsKept
  · exact hclosed.feedsKept

theorem toggleOnKey_feedsKept {k : Key} {ctrl : Bool} (h : w.toggleOnKey env k ctrl = .ok w') :
    FeedsKept w.toApp w'.toApp := by
  obtain ⟨-, h⟩ | ⟨-, rfl⟩ := toggleOnKey_inv h
  · exact toggle_feedsKept h
  · exact .refl _

theorem onSonarFrame_feedsKept {g : Scene → Scene} (hg : ∀ s, Kept s (g s))
    (h : w.onSonarFrame (fun s => .ok (g s)) = .ok w') : FeedsKept w.toApp w'.toApp := by
  obtain ⟨-, rfl⟩ | ⟨i, f, s, -, -, hs, rfl⟩ := onSonarFrame_eq_ok.mp h
  · exact .refl _
  · cases hs
    have hkept := (hg ⟨f, w.toApp⟩).feedsKept
    exact hkept

theorem refresh_feedsKept (h : w.onSonarFrame (fun s => .ok s.refresh) = .ok w') :
    FeedsKept w.toApp w'.toApp :=
  onSonarFrame_feedsKept (fun s => (Steered.refresh s).kept) h

theorem frame_feedsKept {i : FrameId} {e : FrameEvent} (he : w.allows (.frame i e) = true)
    (h : w.onFrame i (e.handle env.build) = .ok w') : FeedsKept w.toApp w'.toApp := by
  obtain ⟨f, s, hf, hs, rfl⟩ := onFrame_eq_ok.mp h
  by_cases hc : e = .close
  · subst hc
    exact (onClose_ok hs).feedsKept
  · refine Kept.feedsKept (handle_kept hs hc ?_)
    rintro cs dilg1 rfl
    obtain ⟨g, -, hacc⟩ := allows_frame he
    simp [SonarFrame.accepts] at hacc

theorem deleteSonarTargets_data (h : a.deleteSonarTargets = .ok c) :
    c.pi.fixData = a.pi.fixData ∧ c.host.alive = a.host.alive := by
  obtain ⟨p, L, calls, rfl, -⟩ := deleteSonarTargets_ok h
  exact ⟨rfl, rfl⟩

theorem getAISTargetArray_data (answer : Bool) (a : App) :
    (a.getAISTargetArray answer).pi.fixData = a.pi.fixData ∧
      (a.getAISTargetArray answer).host.alive = a.host.alive := by
  obtain ⟨p, L, x, h, -⟩ := getAISTargetArray_ok answer a
  rw [h]
  exact ⟨rfl, rfl⟩

theorem init_cases {answer : Bool} (h : a.init env answer = .ok c) :
    ∃ u b v, TargetsKept a u ∧ u.deleteSonarTargets = .ok b ∧ TargetsKept b v ∧
      v.pi.fixData = .zero ∧ c = v.getAISTargetArray answer := by
  unfold App.init at h
  obtain ⟨b, hb, h⟩ := bind_eq_ok.mp h
  cases h
  refine ⟨_, b, _, ?_, hb, ?_, ?_, rfl⟩
  · unfold App.loadConfig
    split <;> exact ⟨rfl, rfl, rfl, [], rfl, by simp⟩
  · split <;> exact ⟨rfl, rfl, rfl, [], rfl, by simp⟩
  · have hins (q : Bool) (icons : ToolIcons) (u : App) :
        (if q then u.insertTool icons else u).pi.fixData = u.pi.fixData := by
      cases q <;> rfl
    refine (hins _ _ _).trans ?_
    refine (deleteSonarTargets_data hb).1.trans ?_
    unfold App.loadConfig
    split <;> rfl

theorem step_feedsKept {e : Event} (hfeed : e.isFeed = false) (he : w.allows e = true)
    (h : World.step env e w = .ok w') : FeedsKept w.toApp w'.toApp := by
  cases e with
  | init | aisSentence | positionFix | getSonarTargets | destroy => cases hfeed
  | deInit =>
    obtain ⟨v, hv, rfl⟩ := deInit_inv h
    have hclose : FeedsKept w.toApp v.toApp := by
      obtain ⟨-, rfl⟩ | ⟨i, f, s, -, -, hs, rfl⟩ := onSonarFrame_eq_ok.mp hv
      · exact .refl _
      · exact (onClose_ok hs).feedsKept
    exact ⟨⟨hclose.sonarTargets, hclose.arrays, hclose.alive, hclose.log⟩, hclose.fixData⟩
  | toolbar id => exact toggle_feedsKept h
  | colorScheme cs dilg1 =>
    have hcol : FeedsKept w.toApp { w.toApp with host.dilg1 := dilg1 } :=
      ⟨⟨rfl, rfl, rfl, [], rfl, by simp⟩, rfl⟩
    exact hcol.trans (onSonarFrame_feedsKept (setColourScheme_kept cs) h)
  | preferences r =>
    obtain rfl := preferences_inv h
    exact dialog_feedsKept r w.toApp
  | chartKey k ctrl =>
    exact repeatStep_invariant (fun u : World => FeedsKept w.toApp u.toApp)
      (fun u v hu huv => hu.trans (toggleOnKey_feedsKept huv)) (.refl _) h
  | frame i e =>
    cases e with
    | key k ctrl =>
      obtain ⟨v, f, hv, -, rfl⟩ := key_inv h
      have hzoom := (Steered.zoomKey env.build ⟨f, v.toApp⟩ k).kept
      exact (toggleOnKey_feedsKept hv).trans hzoom.feedsKept
    | _ => exact frame_feedsKept he h
  | deleteFrame i =>
    cases h
    exact .refl _

end

end SonarPlugin
