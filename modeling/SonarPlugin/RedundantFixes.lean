import SonarPlugin.PositionFixes

namespace SonarPlugin

open Library

def Call.isRefresh : Call → Bool
  | .refresh _ => true
  | _ => false

def World.repaints (w : World) : Nat := w.log.countP Call.isRefresh

namespace PositionFix

def Numeric (x : PositionFix) : Prop := x.lat ≠ .nan ∧ x.lon ≠ .nan

def isFull (x : PositionFix) : Bool := x.cog.nonneg && x.sog.nonneg

end PositionFix

namespace FixData

def Valid (d : FixData) : Prop := d.cog.nonneg = true ∧ d.sog.nonneg = true

/-- The fix differs from the stored data, not counting a course or a speed
that is not given. -/
def News (d : FixData) (x : PositionFix) : Prop :=
  x.lat ≠ d.lat ∨ x.lon ≠ d.lon ∨ (x.cog.nonneg = true ∧ x.cog ≠ d.cog) ∨
    (x.sog.nonneg = true ∧ x.sog ≠ d.sog) ∨ x.nSats ≠ d.sats

/-- Each fix of the stream gives course and speed, or differs in something else
from what the ones before it have left. -/
def Announced (d : FixData) : List PositionFix → Prop
  | [] => True
  | x :: xs => (x.isFull = true ∨ d.News x) ∧ Announced (d.receive x) xs

end FixData

/-- Each fix of the stream is handled, and asks for a repaint only if it
changes what is stored. -/
def World.Economical (env : Env) (w : World) : List PositionFix → Prop
  | [] => True
  | x :: xs => ∃ w', World.step env (.positionFix x) w = .ok w' ∧
      (w.repaints < w'.repaints → w'.pi.fixData ≠ w.pi.fixData) ∧ Economical env w' xs

/-- What a fix does while a frame is open. -/
structure FixTaken (x : PositionFix) (w w' : World) : Prop where
  fixData : w'.pi.fixData = w.pi.fixData.receive x
  repaints : w'.repaints = w.repaints + if w.pi.fixData.movedBy x then 1 else 0
  pSonarFrame : w'.pi.pSonarFrame = w.pi.pSonarFrame
  alive : w'.host.alive = w.host.alive

section

variable {env : Env} {w w' : World} {d : FixData} {x : PositionFix} {i : FrameId}

theorem fix_taken (env : Env) (x : PositionFix) (hw : w.WellFormed)
    (hp : w.pi.pSonarFrame = some i) :
    ∃ w', World.step env (.positionFix x) w = .ok w' ∧ FixTaken x w w' := by
  obtain ⟨f, hf, -⟩ := hw.pointer i hp
  cases hm : w.pi.fixData.movedBy x with
  | true =>
    let u : World := { w with toApp := w.toApp.storeFix x }
    let t : Scene := Scene.refresh ⟨f, u.toApp⟩
    have hstep : w.setPositionFix x = .ok (u.put i t) := by
      have hup : u.pi.pSonarFrame = some i := hp
      rw [setPositionFix_eq, if_pos hm]
      change u.onSonarFrame _ = _
      rw [World.onSonarFrame, hup]
      exact onFrame_eq_ok.mpr ⟨f, t, hf, rfl, rfl⟩
    refine ⟨_, hstep, ?_⟩
    have hcount : List.countP Call.isRefresh (.refresh f.this :: w.log) =
        List.countP Call.isRefresh w.log + 1 := List.countP_cons_of_pos rfl
    exact
      { fixData := setPositionFix_fixData hstep
        repaints := by rw [hm]; exact hcount
        pSonarFrame := rfl
        alive := rfl }
  | false =>
    have hstep : w.setPositionFix x = .ok w := by
      rw [setPositionFix_eq, if_neg (by simp [hm])]
    refine ⟨w, hstep, ?_⟩
    exact
      { fixData := setPositionFix_fixData hstep
        repaints := by simp [hm]
        pSonarFrame := rfl
        alive := rfl }

theorem receive_valid (hd : d.Valid) (x : PositionFix) : (d.receive x).Valid := by
  unfold FixData.receive
  split
  · obtain ⟨hcog, hsog⟩ := hd
    constructor
    · cases hx : x.cog.nonneg <;> simp [FixData.store, hx, hcog]
    · cases hx : x.sog.nonneg <;> simp [FixData.store, hx, hsog]
  · exact hd

theorem run_valid {config : FileConfig} {dilg1 : Colour} {es : List Event}
    (h : (machine env).Run (World.construct env config dilg1) es w) : w.pi.fixData.Valid := by
  refine h.invariant (fun u => u.pi.fixData.Valid) ⟨rfl, rfl⟩ ?_
  intro u e v hu he hs
  rw [step_fixData he hs]
  cases e with
  | init answer => exact ⟨rfl, rfl⟩
  | positionFix x => exact receive_valid hu x
  | _ => exact hu

theorem news_iff : d.News x ↔ d.store x ≠ d := by
  have hgiven (b : Bool) (u v : Double) : (if b then u else v) = v ↔ ¬ (b = true ∧ u ≠ v) := by
    cases b <;> simp
  rw [FixData.News, FixData.store]
  simp only [ne_eq, FixData.ext_iff, hgiven]
  tauto

theorem movedBy_of_missing (hd : d.Valid) (h : x.isFull = false) : d.movedBy x = true := by
  have hne {a b : Double} (ha : a.nonneg = true) (hb : b.nonneg = false) : a.ne b = true := by
    apply (Double.ne_iff (.inl (Double.ne_nan_of_nonneg ha))).mpr
    rintro rfl
    simp [ha] at hb
  simp only [FixData.movedBy, Bool.or_eq_true]
  cases hcog : x.cog.nonneg with
  | false => exact .inl (.inr (hne hd.1 hcog))
  | true => exact .inr (hne hd.2 (by simpa [PositionFix.isFull, hcog] using h))

theorem store_not_movedBy (d : FixData) (hx : x.Numeric) (h : x.isFull = true) :
    (d.store x).movedBy x = false := by
  obtain ⟨hcog, hsog⟩ := Bool.and_eq_true_iff.mp h
  simp [FixData.movedBy, FixData.store, hcog, hsog, Double.ne_self hx.1, Double.ne_self hx.2,
    Double.ne_self (Double.ne_nan_of_nonneg hcog), Double.ne_self (Double.ne_nan_of_nonneg hsog)]

theorem FixTaken.economical_iff (h : FixTaken x w w') (hx : x.Numeric)
    (hd : w.pi.fixData.Valid) :
    (w.repaints < w'.repaints → w'.pi.fixData ≠ w.pi.fixData) ↔
      x.isFull = true ∨ w.pi.fixData.News x := by
  rw [h.fixData, h.repaints, FixData.receive, news_iff]
  by_cases hstored : w.pi.fixData.store x = w.pi.fixData
  · cases hfull : x.isFull with
    | true =>
      have hm := store_not_movedBy w.pi.fixData hx hfull
      rw [hstored] at hm
      simp [hm]
    | false => simp [movedBy_of_missing hd hfull, hstored]
  · split <;> simp [hstored]

theorem economical_iff (env : Env) (xs : List PositionFix) (hw : w.WellFormed)
    (hp : w.pi.pSonarFrame = some i) (halive : w.host.alive = true) (hd : w.pi.fixData.Valid)
    (hxs : ∀ x ∈ xs, x.Numeric) : w.Economical env xs ↔ w.pi.fixData.Announced xs := by
  induction xs generalizing w with
  | nil => simp [World.Economical, FixData.Announced]
  | cons x xs ih =>
    obtain ⟨w', hstep, htaken⟩ := fix_taken env x hw hp
    have hallowed : w.allows (.positionFix x) = true := by simp [World.allows, halive]
    have hrest := ih (step_wellFormed hw hallowed hstep) (htaken.pSonarFrame.trans hp)
      (htaken.alive.trans halive) (htaken.fixData ▸ receive_valid hd x)
      fun y hy => hxs y (List.mem_cons_of_mem x hy)
    have hone := htaken.economical_iff (hxs x List.mem_cons_self) hd
    rw [FixData.Announced, ← hone, ← htaken.fixData, ← hrest, World.Economical, hstep]
    constructor
    · rintro ⟨v, hv, h, h'⟩
      cases hv
      exact ⟨h, h'⟩
    · rintro ⟨h, h'⟩
      exact ⟨w', rfl, h, h'⟩

theorem replicate_repaints {n : Nat} (hw : w.WellFormed) (hp : w.pi.pSonarFrame = some i)
    (hx : x.Numeric) (hfull : x.isFull = true)
    (h : (machine env).Run w (List.replicate n (.positionFix x)) w') :
    w'.WellFormed ∧ w'.pi.pSonarFrame = some i ∧ (w'.repaints = w.repaints ∨
      w'.repaints = w.repaints + 1 ∧ w'.pi.fixData.movedBy x = false) := by
  induction n generalizing w' with
  | zero =>
    obtain rfl := h.eq_of_nil
    exact ⟨hw, hp, .inl rfl⟩
  | succ n ih =>
    rw [List.replicate_succ'] at h
    obtain ⟨v, hv, he, hs⟩ := h.unsnoc
    obtain ⟨hwv, hpv, hcount⟩ := ih hv
    obtain ⟨u, hu, htaken⟩ := fix_taken env x hwv hpv
    obtain rfl : w' = u := Except.ok.inj (hs.symm.trans hu)
    have hstep : World.step env (.positionFix x) v = .ok w' := hs
    refine ⟨step_wellFormed hwv he hstep, htaken.pSonarFrame.trans hpv, ?_⟩
    rw [htaken.repaints, htaken.fixData, FixData.receive]
    cases hm : v.pi.fixData.movedBy x with
    | true =>
      obtain hcount | ⟨-, hstill⟩ := hcount
      · exact .inr ⟨by simp [hcount], by simpa using store_not_movedBy _ hx hfull⟩
      · simp [hm] at hstill
    | false => simpa [hm] using hcount

theorem repeated_repaints (env : Env) (hw : w.WellFormed) (hp : w.pi.pSonarFrame = some i)
    (halive : w.host.alive = true) (hd : w.pi.fixData.Valid) (h : x.isFull = false) :
    ∃ w', (machine env).Run w (List.replicate 2 (.positionFix x)) w' ∧
      w'.repaints = w.repaints + 2 := by
  obtain ⟨u, hu, htu⟩ := fix_taken env x hw hp
  have hallowed : w.allows (.positionFix x) = true := by simp [World.allows, halive]
  obtain ⟨v, hv, htv⟩ := fix_taken env x (step_wellFormed hw hallowed hu)
    (htu.pSonarFrame.trans hp)
  have hallowed' : u.allows (.positionFix x) = true := by simp [World.allows, htu.alive, halive]
  have hdu : u.pi.fixData.Valid := htu.fixData ▸ receive_valid hd x
  refine ⟨v, (System.Run.single hallowed hu).append (.single hallowed' hv), ?_⟩
  rw [htv.repaints, htu.repaints, movedBy_of_missing hd h, movedBy_of_missing hdu h]
  simp

end

/-- While a frame is open, no fix of a stream repaints in vain if and only if
each gives course and speed or brings news, and the same fix over and over again
repaints at most once if and only if it gives both. -/
theorem redundant_fix_iff {env : Env} {config : FileConfig} {dilg1 : Colour} {es : List Event}
    {w : World} {i : FrameId} (h : (machine env).Run (World.construct env config dilg1) es w)
    (hp : w.pi.pSonarFrame = some i) (halive : w.host.alive = true) :
    (∀ xs : List PositionFix, (∀ x ∈ xs, x.Numeric) →
        (w.Economical env xs ↔ w.pi.fixData.Announced xs)) ∧
      ∀ x : PositionFix, x.Numeric →
        ((∀ n w', (machine env).Run w (List.replicate n (.positionFix x)) w' →
            w'.repaints ≤ w.repaints + 1) ↔ x.isFull = true) := by
  have hw := run_wellFormed h
  have hd := run_valid h
  refine ⟨fun xs hxs => economical_iff env xs hw hp halive hd hxs, fun x hx => ⟨?_, ?_⟩⟩
  · intro honce
    by_contra hfull
    obtain ⟨w', hrun, hcount⟩ :=
      repeated_repaints env hw hp halive hd (by simpa using hfull)
    have hle := honce 2 w' hrun
    omega
  · intro hfull n w' hrun
    obtain ⟨-, -, hcount⟩ := replicate_repaints hw hp hx hfull hrun
    omega

theorem exists_open_frame :
    ∃ w, (machine .desktop).Run (World.blank .desktop) [.init true, .toolbar 1] w ∧
      w.pi.pSonarFrame = some 0 ∧ w.host.alive = true ∧ w.pi.fixData = .zero := by
  let p (w : World) : Bool :=
    decide (w.pi.pSonarFrame = some 0) && w.host.alive && decide (w.pi.fixData = .zero)
  obtain ⟨w, hrun, hp⟩ := System.exists_run_of_exec (machine .desktop) (World.blank .desktop)
    [.init true, .toolbar 1] p (by decide +kernel)
  simp only [p, Bool.and_eq_true, decide_eq_true_eq] at hp
  exact ⟨w, hrun, hp.1.1, hp.1.2, hp.2⟩

theorem full_fix_repaints_once :
    ∃ w, (machine .desktop).Run (World.blank .desktop) [.init true, .toolbar 1] w ∧
      w.Economical .desktop [fixWith 1 5, fixWith 1 5] ∧
      ∀ n w', (machine .desktop).Run w (List.replicate n (.positionFix (fixWith 1 5))) w' →
        w'.repaints ≤ w.repaints + 1 := by
  obtain ⟨w, hrun, hp, halive, hd⟩ := exists_open_frame
  obtain ⟨hall, honce⟩ := redundant_fix_iff hrun hp halive
  have hnum : (fixWith 1 5).Numeric := ⟨by decide, by decide⟩
  have hfull : (fixWith 1 5).isFull = true := by decide +kernel
  refine ⟨w, hrun, ?_, (honce _ hnum).mpr hfull⟩
  refine (hall _ (by simpa using hnum)).mpr ?_
  exact ⟨.inl hfull, .inl hfull, trivial⟩

def fixWithoutCourse : PositionFix := ⟨.zero, .zero, .nan, .zero, 0⟩

theorem missing_course_repaints :
    ∃ w w', (machine .desktop).Run (World.blank .desktop) [.init true, .toolbar 1] w ∧
      w.pi.pSonarFrame = some 0 ∧ fixWithoutCourse.Numeric ∧
      (machine .desktop).Run w (List.replicate 2 (.positionFix fixWithoutCourse)) w' ∧
      w'.repaints = w.repaints + 2 ∧ w'.pi.fixData = w.pi.fixData := by
  obtain ⟨w, hrun, hp, halive, hd⟩ := exists_open_frame
  obtain ⟨w', hrun', hcount⟩ := repeated_repaints .desktop (run_wellFormed hrun) hp halive
    (run_valid hrun) (x := fixWithoutCourse) (by decide +kernel)
  refine ⟨w, w', hrun, hp, ⟨by decide, by decide⟩, hrun', hcount, ?_⟩
  rw [run_fixData hrun' (by simp [Event.isInit]), hd]
  decide +kernel

end SonarPlugin
