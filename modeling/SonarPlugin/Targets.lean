import SonarPlugin.Feeds
import SonarPlugin.Library.Custody

namespace SonarPlugin

open Library

def Call.obtained? : Call → Option Nat
  | .getAISTargetArray array => array
  | _ => none

def Call.released? : Call → Option Nat
  | .deleteSonarTargets array => some array
  | _ => none

namespace App

def obtained (a : App) : List Nat := a.log.filterMap Call.obtained?

def released (a : App) : List Nat := a.log.filterMap Call.released?

def targets? (a : App) : Option Nat :=
  match a.pi.sonarTargets with
  | .live k => some k
  | _ => none

/-- At an event boundary the pointer is not dangling, all arrays are accounted
for, and none is left to a plug-in that has been destroyed. -/
structure Keeps (a : App) : Prop where
  valid : a.pi.sonarTargets ≠ .dangling
  custody : a.host.arrays.Custody a.obtained a.released a.targets?
  gone : a.host.alive = false → a.targets? = none

end App

/-- A run of the function does not end in the use of a deleted array. -/
abbrev SparesTargets {α : Type} (r : Except Fault α) : Prop :=
  FaultsIn (fun x => ∀ m, x ≠ .sonarTargets m) r

section

variable {a b c : App} {held : Option Nat}

theorem use_spares {α : Type} (p : Ptr α) (s : Scene) (site : Site) (x : Member) :
    SparesTargets (p.use (s.fault site x)) := by
  rintro y hy m rfl
  obtain ⟨k, -, hk⟩ := Ptr.use_eq_error.mp hy
  cases hk

theorem render_spares (build : Build) (disk : String → Bitmap) (s : Scene) :
    SparesTargets (s.render build disk) := by
  refine FaultsIn.bind (use_spares _ _ _ _) fun timer => .bind (use_spares _ _ _ _) fun c => ?_
  refine FaultsIn.bind ?_ fun t => .ok _
  unfold Scene.deleteImgData
  split
  · exact .ok _
  · exact .ok _
  · exact .error fun m h => (by cases h)

theorem onClose_spares (s : Scene) : SparesTargets s.onClose :=
  FaultsIn.bind (use_spares _ _ _ _) fun _ => .bind (use_spares _ _ _ _) fun _ => .ok _

theorem handle_spares (build : Build) (e : FrameEvent) (s : Scene) :
    SparesTargets (e.handle build s) := by
  cases e with
  | move p => exact .bind (use_spares _ _ _ _) fun _ => .ok _
  | size client window disk =>
    change SparesTargets (s.onSize build client window disk)
    unfold Scene.onSize
    split
    · exact .ok _
    · refine FaultsIn.bind (use_spares _ _ _ _) fun _ => ?_
      exact .bind (use_spares _ _ _ _) fun _ => render_spares _ _ _
  | paint disk => exact .bind (use_spares _ _ _ _) fun _ => render_spares _ _ _
  | northUp value =>
    change SparesTargets (s.checkNorthUp value)
    unfold Scene.checkNorthUp
    split <;> exact .bind (use_spares _ _ _ _) fun _ => .ok _
  | close => exact onClose_spares s
  | _ => exact .ok _

theorem onFrame_spares {h : Scene → Except Fault Scene} (hh : ∀ s, SparesTargets (h s))
    (i : FrameId) (w : World) : SparesTargets (w.onFrame i h) := by
  unfold World.onFrame
  split
  · exact .error fun m h => (by cases h)
  · exact .bind (hh _) fun _ => .ok _

theorem onSonarFrame_spares {h : Scene → Except Fault Scene} (hh : ∀ s, SparesTargets (h s))
    (w : World) : SparesTargets (w.onSonarFrame h) := by
  unfold World.onSonarFrame
  split
  · exact .ok _
  · exact onFrame_spares hh _ _

theorem toggle_spares (env : Env) (w : World) : SparesTargets (w.toggleSonarFrame env) := by
  unfold World.toggleSonarFrame
  dsimp only
  split
  · obtain ⟨s, hs, -⟩ := openFrame_spec env { w with toApp := w.toApp.note .toggleSonarFrame }
    rw [hs]
    exact .ok _
  · exact onFrame_spares onClose_spares _ _

theorem toggleOnKey_spares (env : Env) (k : Key) (ctrl : Bool) (w : World) :
    SparesTargets (w.toggleOnKey env k ctrl) := by
  unfold World.toggleOnKey
  split
  · exact toggle_spares env w
  · exact .ok _

theorem deleteSonarTargets_spares (ha : a.pi.sonarTargets ≠ .dangling) :
    SparesTargets a.deleteSonarTargets := by
  unfold App.deleteSonarTargets
  split
  · exact .ok _
  · exact .ok _
  · next h => exact absurd h ha

theorem init_spares (env : Env) (answer : Bool) (ha : a.pi.sonarTargets ≠ .dangling) :
    SparesTargets (a.init env answer) := by
  refine FaultsIn.bind (deleteSonarTargets_spares ?_) fun _ => .ok _
  unfold App.loadConfig
  split <;> exact ha

theorem step_spares {env : Env} {w : World} (e : Event) (hw : w.pi.sonarTargets ≠ .dangling) :
    SparesTargets (World.step env e w) := by
  have htargets (answer : Bool) : SparesTargets (w.withApp (App.getSonarTargets answer)) :=
    FaultsIn.bind (FaultsIn.bind (deleteSonarTargets_spares hw) fun _ => .ok _) fun _ =>
      FaultsIn.ok _
  have hrefresh (u : World) : SparesTargets (u.onSonarFrame fun s => .ok s.refresh) :=
    onSonarFrame_spares (fun s => .ok _) u
  cases e with
  | init answer =>
    refine FaultsIn.bind ?_ fun _ => .ok _
    exact .bind (init_spares env answer hw) fun _ => .ok _
  | deInit =>
    exact .bind (onSonarFrame_spares onClose_spares w) fun _ => .ok _
  | toolbar id => exact toggle_spares env w
  | aisSentence answer =>
    refine FaultsIn.bind ?_ hrefresh
    unfold World.updateTargets
    split
    · exact htargets answer
    · exact .ok _
  | positionFix x =>
    change SparesTargets (w.setPositionFix x)
    unfold World.setPositionFix
    split
    · exact hrefresh _
    · exact .ok _
  | colorScheme cs dilg1 => exact onSonarFrame_spares (fun s => .ok _) _
  | getSonarTargets answer => exact htargets answer
  | preferences r => exact .bind (FaultsIn.ok _) fun _ => .ok _
  | chartKey k ctrl => exact repeatStep_faultsIn (toggleOnKey_spares env k ctrl) _ w
  | frame i e =>
    cases e with
    | key k ctrl =>
      refine FaultsIn.bind (toggleOnKey_spares env k ctrl w) fun _ => ?_
      exact onFrame_spares (fun s => .ok _) i _
    | _ => exact onFrame_spares (handle_spares env.build _) i w
  | deleteFrame i => exact .ok _
  | destroy =>
    exact .bind (FaultsIn.bind (deleteSonarTargets_spares hw) fun _ => .ok _) fun _ =>
      FaultsIn.ok _

theorem filterMap_of_not_handover {calls : List Call} (h : ∀ c ∈ calls, c.isHandover = false) :
    calls.filterMap Call.obtained? = [] ∧ calls.filterMap Call.released? = [] := by
  constructor <;>
  · rw [List.filterMap_eq_nil_iff]
    intro c hc
    have hno := h c hc
    cases c with
    | getAISTargetArray | deleteSonarTargets => cases hno
    | _ => rfl

theorem TargetsKept.lists (h : TargetsKept a b) :
    b.obtained = a.obtained ∧ b.released = a.released := by
  obtain ⟨calls, hlog, hcalls⟩ := h.log
  obtain ⟨hobtained, hreleased⟩ := filterMap_of_not_handover hcalls
  simp [App.obtained, App.released, hlog, List.filterMap_append, hobtained, hreleased]

theorem TargetsKept.custody (h : TargetsKept a b)
    (ha : a.host.arrays.Custody a.obtained a.released held) :
    b.host.arrays.Custody b.obtained b.released held := by
  rw [h.arrays, h.lists.1, h.lists.2]
  exact ha

theorem TargetsKept.keeps (h : TargetsKept a b) (ha : a.Keeps) : b.Keeps := by
  have htargets : b.targets? = a.targets? := by
    rw [App.targets?, App.targets?, h.sonarTargets]
  refine ⟨?_, ?_, ?_⟩
  · rw [h.sonarTargets]
    exact ha.valid
  · rw [htargets]
    exact h.custody ha.custody
  · rw [htargets, h.alive]
    exact ha.gone

theorem deleteSonarTargets_custody (ha : a.Keeps) (h : a.deleteSonarTargets = .ok b) :
    b.host.arrays.Custody b.obtained b.released none := by
  have hcustody := ha.custody
  unfold App.targets? at hcustody
  unfold App.deleteSonarTargets at h
  split at h
  next hnull =>
    cases h
    simpa only [hnull] using hcustody
  next k hlive =>
    cases h
    simp only [hlive] at hcustody
    exact hcustody.release
  next => cases h

theorem getAISTargetArray_keeps (answer : Bool) (halive : a.host.alive = true)
    (ha : a.host.arrays.Custody a.obtained a.released none) :
    (a.getAISTargetArray answer).Keeps := by
  cases answer with
  | true =>
    refine ⟨by simp [App.getAISTargetArray], ha.obtain_fresh, fun hgone => ?_⟩
    have hdead : a.host.alive = false := hgone
    simp [halive] at hdead
  | false => exact ⟨by simp [App.getAISTargetArray], ha, fun _ => rfl⟩

theorem getSonarTargets_keeps {answer : Bool} (halive : a.host.alive = true) (ha : a.Keeps)
    (h : a.getSonarTargets answer = .ok b) : b.Keeps := by
  obtain ⟨u, hu, h⟩ := bind_eq_ok.mp h
  cases h
  apply getAISTargetArray_keeps
  · rw [(deleteSonarTargets_data hu).2, halive]
  · exact deleteSonarTargets_custody ha hu

theorem init_keeps {env : Env} {answer : Bool} (halive : a.host.alive = true) (ha : a.Keeps)
    (h : a.init env answer = .ok b) : b.Keeps := by
  obtain ⟨u, t, v, hu, ht, hv, -, rfl⟩ := init_cases h
  apply getAISTargetArray_keeps
  · rw [hv.alive, (deleteSonarTargets_data ht).2, hu.alive, halive]
  · exact hv.custody (deleteSonarTargets_custody (hu.keeps ha) ht)

theorem destroy_keeps (ha : a.Keeps) (h : a.destroy = .ok b) : b.Keeps := by
  obtain ⟨u, hu, h⟩ := bind_eq_ok.mp h
  cases h
  have hcustody := deleteSonarTargets_custody ha hu
  exact ⟨by simp, hcustody, fun _ => rfl⟩

theorem step_keeps {env : Env} {e : Event} {w w' : World} (hw : w.Keeps)
    (he : w.allows e = true) (h : World.step env e w = .ok w') : w'.Keeps := by
  have halive : w.host.alive = true := (Bool.and_eq_true_iff.mp he).1
  cases e with
  | init answer =>
    obtain ⟨a, ha, rfl⟩ := init_inv h
    have hkeeps := init_keeps halive hw ha
    exact ⟨hkeeps.valid, hkeeps.custody, hkeeps.gone⟩
  | aisSentence answer =>
    obtain ⟨v, hv, h⟩ := aisSentence_inv h
    refine (refresh_feedsKept h).keeps ?_
    obtain rfl | ⟨a, ha, rfl⟩ := hv
    · exact hw
    · exact getSonarTargets_keeps halive hw ha
  | positionFix x =>
    obtain rfl | h := positionFix_inv h
    · exact hw
    · have hstore : TargetsKept w.toApp (w.toApp.storeFix x) := ⟨rfl, rfl, rfl, [], rfl, by simp⟩
      exact (refresh_feedsKept h).keeps (hstore.keeps hw)
  | getSonarTargets answer =>
    obtain ⟨a, ha, rfl⟩ := withApp_eq_ok.mp h
    exact getSonarTargets_keeps halive hw ha
  | destroy =>
    obtain ⟨a, ha, rfl⟩ := withApp_eq_ok.mp h
    exact destroy_keeps hw ha
  | _ => exact (step_feedsKept rfl he h).keeps hw

theorem construct_keeps (env : Env) (config : FileConfig) (dilg1 : Colour) :
    (World.construct env config dilg1).Keeps := by
  refine ⟨?_, Ledger.Custody.empty, fun _ => rfl⟩
  intro h
  cases h

theorem run_keeps {env : Env} {config : FileConfig} {dilg1 : Colour} {es : List Event} {w : World}
    (h : (machine env).Run (World.construct env config dilg1) es w) : w.Keeps :=
  h.invariant (fun u => u.Keeps) (construct_keeps env config dilg1)
    fun _ _ _ hu he hs => step_keeps hu he hs

theorem targets?_eq_some {k : Nat} : a.targets? = some k ↔ a.pi.sonarTargets = .live k := by
  unfold App.targets?
  split
  next j hj => simp [hj]
  next hno => exact iff_of_false (by simp) (hno k)

theorem App.Keeps.null_or_newest (ha : a.Keeps) : a.pi.sonarTargets = .null ∨
    ∃ k, a.pi.sonarTargets = .live k ∧ a.obtained.head? = some k := by
  cases h : a.pi.sonarTargets with
  | null => exact .inl rfl
  | live k => exact .inr ⟨k, rfl, ha.custody.newest k (targets?_eq_some.mpr h)⟩
  | dangling => exact absurd h ha.valid

end

/-- At every event boundary `SonarTargets` is null or the newest array obtained;
every other array obtained has been deleted exactly once, and no other array ever;
the live arrays are the one pointed to; no event uses a deleted array; and after
destruction none is left. -/
theorem targets_handed_over_once {env : Env} {config : FileConfig} {dilg1 : Colour}
    {es : List Event} {w : World}
    (h : (machine env).Run (World.construct env config dilg1) es w) :
    (w.pi.sonarTargets = .null ∨
        ∃ k, w.pi.sonarTargets = .live k ∧ w.obtained.head? = some k) ∧
      w.obtained.Nodup ∧
      (∀ k, w.released.count k = if k ∈ w.obtained ∧ w.pi.sonarTargets ≠ .live k then 1 else 0) ∧
      (∀ k, k ∈ w.host.arrays.live ↔ w.pi.sonarTargets = .live k) ∧
      (∀ e, SparesTargets (World.step env e w)) ∧
      (w.host.alive = false → w.pi.sonarTargets = .null ∧ w.host.arrays.live = ∅) := by
  have hw := run_keeps h
  have hlive (k : Nat) : k ∈ w.host.arrays.live ↔ w.pi.sonarTargets = .live k := by
    rw [hw.custody.mem_live_iff, targets?_eq_some]
  refine ⟨hw.null_or_newest, hw.custody.nodup, ?_, hlive, fun e => step_spares e hw.valid, ?_⟩
  · intro k
    rw [hw.custody.count_released]
    simp only [ne_eq, targets?_eq_some]
  · intro hgone
    have hnone := hw.gone hgone
    have hno (k : Nat) : ¬ w.pi.sonarTargets = .live k := by
      rw [← targets?_eq_some, hnone]
      simp
    constructor
    · obtain hnull | ⟨k, hk, -⟩ := hw.null_or_newest
      · exact hnull
      · exact absurd hk (hno k)
    · apply Finset.eq_empty_of_forall_notMem
      intro k hk
      exact hno k ((hlive k).mp hk)

theorem targets_handed_over_after_null :
    ∃ w, (machine .desktop).Run (World.blank .desktop) [.init true, .init false, .destroy] w ∧
      w.obtained = [0] ∧ w.released.count 0 = 1 ∧ w.host.arrays.live = ∅ := by
  let p (w : World) : Bool := !w.host.alive && decide (w.obtained = [0])
  obtain ⟨w, hrun, hp⟩ := System.exists_run_of_exec (machine .desktop) (World.blank .desktop)
    [.init true, .init false, .destroy] p (by decide +kernel)
  simp only [p, Bool.and_eq_true, Bool.not_eq_true', decide_eq_true_eq] at hp
  obtain ⟨-, -, hcount, -, -, hgone⟩ := targets_handed_over_once hrun
  obtain ⟨hnull, hlive⟩ := hgone hp.1
  refine ⟨w, hrun, hp.2, ?_, hlive⟩
  simp [hcount 0, hp.2, hnull]

end SonarPlugin
