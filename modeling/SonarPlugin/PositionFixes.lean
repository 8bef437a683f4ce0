import SonarPlugin.Feeds

namespace SonarPlugin

open Library

namespace Double

variable {a b : Double}

theorem eq_of_ne_false (h : a.ne b = false) : a = b := by
  cases a <;> cases b <;> simp_all [ne]

theorem ne_iff (h : a ≠ .nan ∨ b ≠ .nan) : a.ne b = true ↔ a ≠ b := by
  cases a <;> cases b <;> simp_all [ne]

theorem ne_self (h : a ≠ .nan) : a.ne a = false := by
  cases a <;> simp_all [ne]

theorem ne_nan_of_nonneg (h : a.nonneg = true) : a ≠ .nan := by
  rintro rfl
  cases h

end Double

namespace FixData

/-- The test of `SetPositionFix`, which leaves out the satellites. -/
def movedBy (d : FixData) (x : PositionFix) : Bool :=
  d.lat.ne x.lat || d.lon.ne x.lon || d.cog.ne x.cog || d.sog.ne x.sog

def store (d : FixData) (x : PositionFix) : FixData :=
  ⟨x.lat, x.lon, if x.cog.nonneg then x.cog else d.cog, if x.sog.nonneg then x.sog else d.sog,
    x.nSats⟩

def receive (d : FixData) (x : PositionFix) : FixData := if d.movedBy x then d.store x else d

/-- The data that a stream of fixes should leave behind. -/
def followed (xs : List PositionFix) : FixData where
  lat := xs.getLast?.elim .zero PositionFix.lat
  lon := xs.getLast?.elim .zero PositionFix.lon
  cog := ((xs.map PositionFix.cog).filter Double.nonneg).getLast?.getD .zero
  sog := ((xs.map PositionFix.sog).filter Double.nonneg).getLast?.getD .zero
  sats := xs.getLast?.elim 0 PositionFix.nSats

end FixData

/-- The fixes of a stream that change position, course or speed from what the
ones before them, starting with `d`, have left. -/
def movingFixes (d : FixData) : List PositionFix → List PositionFix
  | [] => []
  | x :: xs =>
    if d.movedBy x then x :: movingFixes (d.store x) xs else movingFixes (d.store x) xs

/-- The last fix has as many satellites as the last one that changed anything else. -/
def SatsAnnounced (xs : List PositionFix) : Prop :=
  xs.getLast?.elim 0 PositionFix.nSats =
    (movingFixes .zero xs).getLast?.elim 0 PositionFix.nSats

def Event.fix? : Event → Option PositionFix
  | .positionFix x => some x
  | _ => none

def Event.fixAfter (d : FixData) : Event → FixData
  | .init _ => .zero
  | .positionFix x => d.receive x
  | _ => d

section

variable {env : Env} {w w' : World} {d : FixData} {x : PositionFix} {xs : List PositionFix}

theorem movingFixes_append_singleton (d : FixData) (xs : List PositionFix) (x : PositionFix) :
    movingFixes d (xs ++ [x]) =
      movingFixes d xs ++ if (xs.foldl FixData.store d).movedBy x then [x] else [] := by
  induction xs generalizing d with
  | nil =>
    simp only [List.nil_append, movingFixes, List.foldl_nil]
    rfl
  | cons y ys ih =>
    simp only [List.cons_append, movingFixes, ih, List.foldl_cons]
    split <;> rfl

theorem followed_append_singleton (xs : List PositionFix) (x : PositionFix) :
    FixData.followed (xs ++ [x]) = (FixData.followed xs).store x := by
  simp only [FixData.followed, FixData.store, List.getLast?_concat, Option.elim_some,
    List.map_append, List.filter_append, List.map_cons, List.map_nil, FixData.mk.injEq, true_and,
    and_true]
  constructor
  · cases hcog : x.cog.nonneg <;> simp [hcog]
  · cases hsog : x.sog.nonneg <;> simp [hsog]

theorem foldl_store (xs : List PositionFix) :
    xs.foldl FixData.store .zero = FixData.followed xs := by
  induction xs using List.reverseRecOn with
  | nil => rfl
  | append_singleton xs x ih =>
    rw [List.foldl_append, ih, followed_append_singleton]
    rfl

theorem store_of_not_movedBy (h : d.movedBy x = false) :
    d.store x = { d with sats := x.nSats } := by
  simp only [FixData.movedBy, Bool.or_eq_false_iff] at h
  obtain ⟨⟨⟨hlat, hlon⟩, hcog⟩, hsog⟩ := h
  have hlat := Double.eq_of_ne_false hlat
  have hlon := Double.eq_of_ne_false hlon
  have hcog := Double.eq_of_ne_false hcog
  have hsog := Double.eq_of_ne_false hsog
  simp [FixData.store, ← hlat, ← hlon, ← hcog, ← hsog]

theorem foldl_receive (xs : List PositionFix) :
    xs.foldl FixData.receive .zero = { FixData.followed xs with
      sats := (movingFixes .zero xs).getLast?.elim 0 PositionFix.nSats } := by
  induction xs using List.reverseRecOn with
  | nil => rfl
  | append_singleton xs x ih =>
    rw [List.foldl_append, ih, followed_append_singleton, movingFixes_append_singleton,
      foldl_store]
    simp only [List.foldl_cons, List.foldl_nil, FixData.receive]
    have hmoved (n : Int) : FixData.movedBy { FixData.followed xs with sats := n } x =
        (FixData.followed xs).movedBy x := rfl
    rw [hmoved]
    cases hm : (FixData.followed xs).movedBy x with
    | true =>
      simp only [if_true, List.getLast?_concat, Option.elim_some]
      rfl
    | false =>
      rw [store_of_not_movedBy hm]
      simp

theorem getSonarTargets_fixData {answer : Bool} {a c : App}
    (h : a.getSonarTargets answer = .ok c) : c.pi.fixData = a.pi.fixData := by
  obtain ⟨b, hb, h⟩ := bind_eq_ok.mp h
  cases h
  exact (getAISTargetArray_data answer b).1.trans (deleteSonarTargets_data hb).1

theorem init_fixData {answer : Bool} {a c : App} (h : a.init env answer = .ok c) :
    c.pi.fixData = .zero ∧ c.host.alive = a.host.alive := by
  obtain ⟨u, b, v, hu, hb, hv, hzero, rfl⟩ := init_cases h
  obtain ⟨hdata, halive⟩ := getAISTargetArray_data answer v
  refine ⟨hdata.trans hzero, ?_⟩
  rw [halive, hv.alive, (deleteSonarTargets_data hb).2, hu.alive]

theorem setPositionFix_eq (w : World) (x : PositionFix) :
    w.setPositionFix x = if w.pi.fixData.movedBy x then
      World.onSonarFrame (fun s => .ok s.refresh) { w with toApp := w.toApp.storeFix x }
    else .ok w := rfl

theorem setPositionFix_fixData (h : w.setPositionFix x = .ok w') :
    w'.pi.fixData = w.pi.fixData.receive x := by
  rw [setPositionFix_eq] at h
  unfold FixData.receive
  split at h
  next hm =>
    rw [if_pos hm]
    exact (refresh_feedsKept h).fixData
  next hm =>
    cases h
    rw [if_neg hm]

theorem step_fixData {e : Event} (he : w.allows e = true) (h : World.step env e w = .ok w') :
    w'.pi.fixData = e.fixAfter w.pi.fixData := by
  cases e with
  | init answer =>
    obtain ⟨a, ha, rfl⟩ := init_inv h
    have hzero := (init_fixData ha).1
    exact hzero
  | positionFix x => exact setPositionFix_fixData h
  | aisSentence answer =>
    obtain ⟨v, hv, h⟩ := aisSentence_inv h
    refine (refresh_feedsKept h).fixData.trans ?_
    obtain rfl | ⟨a, ha, rfl⟩ := hv
    · rfl
    · exact getSonarTargets_fixData ha
  | getSonarTargets answer =>
    obtain ⟨a, ha, rfl⟩ := withApp_eq_ok.mp h
    exact getSonarTargets_fixData ha
  | destroy =>
    obtain ⟨a, ha, rfl⟩ := withApp_eq_ok.mp h
    obtain ⟨b, hb, h⟩ := bind_eq_ok.mp ha
    cases h
    exact (deleteSonarTargets_data hb).1
  | _ => exact (step_feedsKept rfl he h).fixData

theorem run_fixData {fs : List Event} (h : (machine env).Run w fs w')
    (hfs : ∀ e ∈ fs, e.isInit = false) :
    w'.pi.fixData = (fs.filterMap Event.fix?).foldl FixData.receive w.pi.fixData := by
  induction h with
  | nil => rfl
  | @snoc es e u v _ he hs ih =>
    rw [step_fixData he hs, ih fun e he => hfs e (List.mem_append_left _ he),
      List.filterMap_append, List.foldl_append]
    have hinit := hfs e (List.mem_append_right _ (List.mem_singleton_self e))
    cases e with
    | init answer => cases hinit
    | _ => rfl

theorem exists_fixes_run (halive : w.host.alive = true) (hp : w.pi.pSonarFrame = none)
    (xs : List PositionFix) :
    ∃ w', (machine env).Run w (xs.map .positionFix) w' ∧ w'.host.alive = true ∧
      w'.pi.pSonarFrame = none := by
  induction xs using List.reverseRecOn with
  | nil => exact ⟨w, .nil, halive, hp⟩
  | append_singleton xs x ih =>
    obtain ⟨v, hv, hva, hvp⟩ := ih
    have hallowed : (machine env).allowed v (.positionFix x) := by
      simp [machine, World.allows, hva]
    rw [List.map_append]
    by_cases hm : v.pi.fixData.movedBy x = true
    · refine ⟨{ v with toApp := v.toApp.storeFix x }, hv.snoc hallowed ?_, hva, hvp⟩
      have hvp' : (v.toApp.storeFix x).pi.pSonarFrame = none := hvp
      change v.setPositionFix x = _
      rw [setPositionFix_eq, if_pos hm, World.onSonarFrame, hvp']
    · refine ⟨v, hv.snoc hallowed ?_, hva, hvp⟩
      change v.setPositionFix x = _
      rw [setPositionFix_eq, if_neg hm]

end

/-- After `Init` any stream of fixes can be delivered. The stored data follow
it in all but the satellites, and in these too if and only if the last fix has as
many as the last one that changed anything else. -/
theorem fix_followed_iff {env : Env} {w w₁ : World} {answer : Bool}
    (h : (machine env).Run w [.init answer] w₁) :
    (∀ xs : List PositionFix, ∃ w₂, (machine env).Run w₁ (xs.map .positionFix) w₂) ∧
      ∀ fs w₂, (machine env).Run w₁ fs w₂ → (∀ e ∈ fs, e.isInit = false) →
        let xs := fs.filterMap Event.fix?
        w₂.pi.fixData = { FixData.followed xs with sats := w₂.pi.sats } ∧
          (w₂.pi.fixData = FixData.followed xs ↔ SatsAnnounced xs) := by
  obtain ⟨ha, hs⟩ := System.Run.single_iff.mp h
  obtain ⟨a, hinit, rfl⟩ := init_inv hs
  obtain ⟨hzero, halive⟩ := init_fixData hinit
  constructor
  · intro xs
    have halive : a.host.alive = true := by
      rw [halive]
      simpa [machine, World.allows] using ha
    have hp : a.pi.pSonarFrame = none := (init_ok hinit).pSonarFrame
    exact Exists.imp (fun _ hrun => hrun.1) (exists_fixes_run halive hp xs)
  · intro fs w₂ h₂ hfs xs
    have hdata : w₂.pi.fixData = xs.foldl FixData.receive .zero := by
      rw [run_fixData h₂ hfs]
      exact congrArg (fun d => xs.foldl FixData.receive d) hzero
    rw [foldl_receive] at hdata
    have hsats : w₂.pi.sats = _ := congrArg FixData.sats hdata
    constructor
    · rw [hsats]
      exact hdata
    · rw [hdata, SatsAnnounced]
      constructor
      · intro heq
        exact (congrArg FixData.sats heq).symm
      · intro heq
        rw [← heq]
        rfl

def fixWith (lat : ℚ) (nSats : Int) : PositionFix := ⟨.num lat, .zero, .zero, .zero, nSats⟩

theorem moving_fix_followed :
    ∃ w, (machine .desktop).Run (World.blank .desktop)
        [.init true, .positionFix (fixWith 1 5), .positionFix (fixWith 2 7)] w ∧
      w.pi.fixData = FixData.followed [fixWith 1 5, fixWith 2 7] := by
  obtain ⟨w₁, h₁, -⟩ := System.exists_run_of_exec (machine .desktop) (World.blank .desktop)
    [.init true] (fun _ => true) (by decide +kernel)
  obtain ⟨hex, hall⟩ := fix_followed_iff h₁
  obtain ⟨w₂, h₂⟩ := hex [fixWith 1 5, fixWith 2 7]
  obtain ⟨-, hiff⟩ := hall _ w₂ h₂ (by simp [Event.isInit])
  exact ⟨w₂, h₁.append h₂, hiff.mpr (by unfold SatsAnnounced; decide +kernel)⟩

theorem satellites_lost :
    ∃ w, (machine .desktop).Run (World.blank .desktop)
        [.init true, .positionFix (fixWith 1 5), .positionFix (fixWith 1 7)] w ∧
      w.pi.fixData ≠ FixData.followed [fixWith 1 5, fixWith 1 7] := by
  obtain ⟨w, hrun, hp⟩ := System.exists_run_of_exec (machine .desktop) (World.blank .desktop)
    [.init true, .positionFix (fixWith 1 5), .positionFix (fixWith 1 7)]
    (fun w => w.pi.fixData ≠ FixData.followed [fixWith 1 5, fixWith 1 7]) (by decide +kernel)
  exact ⟨w, hrun, by simpa using hp⟩

end SonarPlugin
