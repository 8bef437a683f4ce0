import SonarPlugin.Lifecycle

namespace SonarPlugin

open Library Relation

namespace Lifecycle

/-- The single changes that event `e` can be made of. -/
inductive Move (env : Env) (e : Event) : Lifecycle → Lifecycle → Prop
  | opened {L : Lifecycle} (h : L.current = none) : Move env e L (L.openNext env.dialogOk)
  | closed {L : Lifecycle} {i : FrameId} (h : L.lives i = some .created)
      (hi : L.current = some i ∨ e = .frame i .close) :
      Move env e L { L.setLife i (some .closed) with current := none }
  | deleted {L : Lifecycle} {i : FrameId} (h : L.lives i = some .closed)
      (he : e = .deleteFrame i) : Move env e L (L.setLife i none)
  | forgot {L : Lifecycle} (he : e.isInit = true) :
      Move env e L { L with initialised := true, handlers := L.handlers + 1, current := none }
  | session {L : Lifecycle} (initialised alive : Bool) :
      Move env e L { L with initialised, alive }

abbrev Moves (env : Env) (e : Event) : Lifecycle → Lifecycle → Prop := ReflTransGen (Move env e)

/-- What holds in every reachable state: windows are numbered in order, the
current one is not closed, and a window is left unfinished exactly if it cannot
be created. -/
structure Valid (env : Env) (L : Lifecycle) : Prop where
  fresh : ∀ i, L.next ≤ i → L.lives i = none
  current : ∀ i, L.current = some i → L.lives i = some .created ∨ L.lives i = some .raw
  raw : ∀ i, L.lives i = some .raw → env.dialogOk i = false

def HalfBuilt (L : Lifecycle) : Prop := ∃ i, L.current = some i ∧ L.lives i = some .raw

def opens (L : Lifecycle) : Finset Nat :=
  (Finset.range L.next).filter fun i => ∃ life, L.lives i = some life ∧ life ≠ .closed

/-- At most one window is open for every `Init` so far, besides the current one. -/
def Bounded (inits : Nat) (L : Lifecycle) : Prop :=
  L.opens.card ≤ inits + if L.current.isSome then 1 else 0

structure Orphan (i : FrameId) (L : Lifecycle) : Prop where
  opened : ∃ life, L.lives i = some life ∧ life ≠ .closed
  current : L.current ≠ some i

/-- Among `n` toggles in a row there is one that closes a window without a timer. -/
def ToggleHazard (ok : FrameId → Bool) (n : Nat) (L : Lifecycle) : Prop :=
  (0 < n ∧ L.HalfBuilt) ∨
    ∃ j, 2 * j + 2 + (if L.current.isSome then 1 else 0) ≤ n ∧ ok (L.next + j) = false

def afterToggles (ok : FrameId → Bool) (n : Nat) (L : Lifecycle) : Lifecycle :=
  match L.current, n with
  | none, n => L.toggled ok n
  | some _, 0 => L
  | some i, n + 1 => toggled ok n { L.setLife i (some .closed) with current := none }

section

variable {env : Env} {e : Event} {L L' : Lifecycle} {i : FrameId}

theorem useTimer_ok {site : Site} (h : L.useTimer site i = .ok L') :
    L.lives i = some .created ∧ L' = L := by
  unfold useTimer at h
  split at h <;> cases h
  next hlife => exact ⟨hlife, rfl⟩

theorem close_ok (h : L.close i = .ok L') :
    L.lives i = some .created ∧ L' = { L.setLife i (some .closed) with current := none } := by
  obtain ⟨M, hM, hM'⟩ := bind_eq_ok.mp h
  obtain ⟨hlife, rfl⟩ := useTimer_ok hM
  cases hM'
  exact ⟨hlife, rfl⟩

theorem toggle_move (h : L.toggle env.dialogOk = .ok L') : Move env e L L' := by
  unfold toggle at h
  split at h
  next hc =>
    cases h
    exact .opened hc
  next i hc =>
    obtain ⟨hlife, rfl⟩ := close_ok h
    exact .closed hlife (.inl hc)

theorem toggleOnKey_moves {k : Key} {ctrl : Bool}
    (h : L.toggleOnKey env.dialogOk k ctrl = .ok L') : Moves env e L L' := by
  unfold toggleOnKey at h
  split at h
  · exact .single (toggle_move h)
  · cases h
    exact .refl

theorem closeCurrent_moves (h : L.closeCurrent = .ok L') : Moves env e L L' := by
  unfold closeCurrent at h
  split at h
  next =>
    cases h
    exact .refl
  next i hc =>
    obtain ⟨hlife, rfl⟩ := close_ok h
    exact .single (.closed hlife (.inl hc))

theorem onFrame_moves {fe : FrameEvent} (h : L.onFrame env.dialogOk i fe = .ok L') :
    Moves env (.frame i fe) L L' := by
  cases fe with
  | size | paint =>
    obtain ⟨-, rfl⟩ := useTimer_ok h
    exact .refl
  | close =>
    obtain ⟨hlife, rfl⟩ := close_ok h
    exact .single (.closed hlife (.inr rfl))
  | key k ctrl => exact toggleOnKey_moves h
  | _ =>
    cases h
    exact .refl

theorem step_moves (he : L.allows e = true) (h : step env e L = .ok L') : Moves env e L L' := by
  cases e with
  | init answer =>
    cases h
    exact .single (.forgot rfl)
  | deInit =>
    obtain ⟨M, hM, h⟩ := bind_eq_ok.mp h
    cases h
    exact .tail (closeCurrent_moves hM) (.session false M.alive)
  | toolbar id => exact .single (toggle_move h)
  | chartKey k ctrl =>
    exact repeatStep_invariant (Moves env (.chartKey k ctrl) L)
      (fun M M' hM h => hM.trans (toggleOnKey_moves h)) .refl h
  | frame i fe => exact onFrame_moves h
  | deleteFrame i =>
    cases h
    simp only [allows, Bool.and_eq_true, Option.any_eq_true, decide_eq_true_eq] at he
    obtain ⟨-, life, hlife, rfl⟩ := he
    exact .single (.deleted hlife rfl)
  | destroy =>
    cases h
    exact .single (.session L.initialised false)
  | aisSentence | positionFix | colorScheme | getSonarTargets | preferences =>
    cases h
    exact .refl

theorem Move.valid (h : Move env e L L') (hL : L.Valid env) : L'.Valid env := by
  cases h with
  | opened hc =>
    have hne {j : Nat} (hj : L.next + 1 ≤ j) : j ≠ L.next := by omega
    refine ⟨fun j hj => ?_, ?_, fun j hj => ?_⟩
    · exact (setLife_of_ne (hne hj)).trans (hL.fresh j (Nat.le_of_succ_le hj))
    · rintro j ⟨⟩
      change (L.setLife L.next _).lives L.next = _ ∨ (L.setLife L.next _).lives L.next = _
      rw [setLife_self]
      cases env.dialogOk L.next <;> simp
    · by_cases hjn : j = L.next
      · subst hjn
        have hself : some (if env.dialogOk L.next then Life.created else .raw) = some .raw :=
          setLife_self.symm.trans hj
        cases hok : env.dialogOk L.next with
        | false => rfl
        | true => simp [hok] at hself
      · exact hL.raw j ((setLife_of_ne hjn).symm.trans hj)
  | @closed i hlife hi =>
    refine ⟨fun j hj => ?_, by simp, fun j hj => ?_⟩
    · have hne : j ≠ i := by
        rintro rfl
        simp [hL.fresh j hj] at hlife
      exact (setLife_of_ne hne).trans (hL.fresh j hj)
    · by_cases hji : j = i
      · subst hji
        cases setLife_self.symm.trans hj
      · exact hL.raw j ((setLife_of_ne hji).symm.trans hj)
  | @deleted i hlife he =>
    refine ⟨fun j hj => ?_, fun j hj => ?_, fun j hj => ?_⟩
    · by_cases hji : j = i
      · rw [hji, setLife_self]
      · exact (setLife_of_ne hji).trans (hL.fresh j hj)
    · have hne : j ≠ i := by
        rintro rfl
        have hcur := hL.current j hj
        simp [hlife] at hcur
      rw [setLife_of_ne hne]
      exact hL.current j hj
    · by_cases hji : j = i
      · subst hji
        cases setLife_self.symm.trans hj
      · exact hL.raw j ((setLife_of_ne hji).symm.trans hj)
  | forgot he => exact ⟨hL.fresh, by simp, hL.raw⟩
  | session => exact ⟨hL.fresh, hL.current, hL.raw⟩

theorem Moves.valid (h : Moves env e L L') (hL : L.Valid env) : L'.Valid env := by
  induction h with
  | refl => exact hL
  | tail _ h ih => exact h.valid ih

/-- What every single change keeps in valid states, an event keeps. -/
theorem step_rule (P : Lifecycle → Prop) (hL : L.Valid env) (he : L.allows e = true)
    (h : step env e L = .ok L') (hP : P L)
    (hmove : ∀ M M' : Lifecycle, M.Valid env → Move env e M M' → P M → P M') : P L' := by
  have hmoves := step_moves he h
  clear h
  induction hmoves with
  | refl => exact hP
  | tail hM h ih => exact hmove _ _ (Moves.valid hM hL) h ih

theorem step_valid (hL : L.Valid env) (he : L.allows e = true) (h : step env e L = .ok L') :
    L'.Valid env := (step_moves he h).valid hL

theorem start_valid (env : Env) : start.Valid env := by
  refine ⟨fun _ _ => rfl, fun i h => ?_, fun i h => ?_⟩
  · cases h
  · cases h

theorem Valid.current_created (hL : L.Valid env) (hc : L.current = some i)
    (hraw : ¬ L.HalfBuilt) : L.lives i = some .created := by
  obtain hlife | hlife := hL.current i hc
  · exact hlife
  · exact absurd ⟨i, hc, hlife⟩ hraw

theorem toggles_safe (hL : L.Valid env) (n : Nat) (h : ¬ L.ToggleHazard env.dialogOk n) :
    repeatStep (toggle env.dialogOk) n L = .ok (L.afterToggles env.dialogOk n) := by
  simp only [ToggleHazard, not_or, not_and, not_exists, Bool.not_eq_false] at h
  obtain ⟨hraw, hok⟩ := h
  unfold afterToggles
  cases hc : L.current with
  | none =>
    refine toggles_ok hc n fun j hj => hok j ?_
    simpa [hc] using hj
  | some i =>
    cases n with
    | zero => rfl
    | succ n =>
      have hlife := hL.current_created hc (hraw (Nat.succ_pos n))
      rw [repeatStep, toggle_some hc, close_created hlife]
      refine toggles_ok rfl n fun j hj => hok j ?_
      rw [hc, Option.isSome_some, if_pos rfl]
      omega

/-- The two ways in which an event can end in a fault: a window without a timer
is closed, or a closed one is rendered. -/
def TimerFault (env : Env) (L : Lifecycle) (x : Fault) : Prop :=
  ∃ i, (x = .member i .onClose .timer .null ∧ env.dialogOk i = false) ∨
    (x = .member i .render .timer .dangling ∧ L.lives i = some .closed)

structure Outcome {α : Type} (env : Env) (L : Lifecycle) (H : Prop) (r : Except Fault α) : Prop where
  fault_iff : (∃ x, r = .error x) ↔ H
  timer : ∀ x, r = .error x → L.TimerFault env x

theorem Outcome.ok {α : Type} {H : Prop} (a : α) (h : ¬ H) : L.Outcome env H (.ok a) where
  fault_iff := iff_of_false (by simp) h
  timer x hx := by cases hx

theorem Outcome.error {α : Type} {H : Prop} {x : Fault} (h : H) (hx : L.TimerFault env x) :
    L.Outcome env H (.error x : Except Fault α) where
  fault_iff := iff_of_true ⟨x, rfl⟩ h
  timer y hy := by
    cases hy
    exact hx

theorem Outcome.congr {α : Type} {H H' : Prop} {r : Except Fault α} (h : L.Outcome env H r)
    (hH : H' ↔ H) : L.Outcome env H' r :=
  ⟨h.fault_iff.trans hH.symm, h.timer⟩

theorem mem_opens (hL : L.Valid env) :
    i ∈ L.opens ↔ ∃ life, L.lives i = some life ∧ life ≠ .closed := by
  unfold opens
  rw [Finset.mem_filter, Finset.mem_range, and_iff_right_iff_imp]
  rintro ⟨life, hlife, -⟩
  by_contra hi
  rw [hL.fresh i (Nat.le_of_not_lt hi)] at hlife
  cases hlife

theorem Move.opens (h : Move env e L L') (hL : L.Valid env) :
    (L'.opens = L.opens ∧ (L'.current = L.current ∨ e.isInit = true ∧ L'.current = none)) ∨
      (∃ i ∈ L.opens, L'.opens = L.opens.erase i ∧ L'.current = none) ∨
      (L.current = none ∧ L'.opens = insert L.next L.opens ∧ L'.current = some L.next) := by
  have hL' := h.valid hL
  cases h with
  | opened hc =>
    refine .inr (.inr ⟨hc, ?_, rfl⟩)
    ext j
    rw [mem_opens hL', Finset.mem_insert, mem_opens hL]
    change (∃ life, (L.setLife L.next _).lives j = some life ∧ _) ↔ _
    by_cases hj : j = L.next
    · subst hj
      rw [setLife_self]
      cases env.dialogOk L.next <;> simp
    · rw [setLife_of_ne hj]
      simp [hj]
  | @closed i hlife hi =>
    refine .inr (.inl ⟨i, (mem_opens hL).mpr ⟨_, hlife, by simp⟩, ?_, rfl⟩)
    ext j
    rw [mem_opens hL', Finset.mem_erase, mem_opens hL]
    change (∃ life, (L.setLife i _).lives j = some life ∧ _) ↔ _
    by_cases hj : j = i
    · subst hj
      simp
    · rw [setLife_of_ne hj]
      simp [hj]
  | @deleted i hlife he =>
    refine .inl ⟨?_, .inl rfl⟩
    ext j
    rw [mem_opens hL', mem_opens hL]
    by_cases hj : j = i
    · subst hj
      simp [hlife]
    · rw [setLife_of_ne hj]
  | forgot he => exact .inl ⟨rfl, .inr ⟨he, rfl⟩⟩
  | session => exact .inl ⟨rfl, .inl rfl⟩

theorem Move.bounded {n : Nat} (h : Move env e L L') (hL : L.Valid env) (he : e.isInit = false)
    (hn : L.Bounded n) : L'.Bounded n := by
  unfold Bounded at hn ⊢
  obtain ⟨ho, hc | ⟨hinit, -⟩⟩ | ⟨i, hi, ho, hc⟩ | ⟨hc, ho, hc'⟩ := h.opens hL
  · rwa [ho, hc]
  · simp [he] at hinit
  · have hcard := Finset.card_erase_add_one hi
    have hone : (if L.current.isSome then 1 else 0) ≤ 1 := by
      split <;> omega
    rw [ho, hc]
    simp only [Option.isSome_none, Bool.false_eq_true, if_false]
    omega
  · have hfresh : L.next ∉ L.opens := by simp [Lifecycle.opens]
    rw [ho, hc', Finset.card_insert_of_notMem hfresh]
    rw [hc] at hn
    simpa using hn

theorem step_bounded {n : Nat} (hL : L.Valid env) (he : L.allows e = true)
    (h : step env e L = .ok L') (hn : L.Bounded n) :
    L'.Bounded (n + if e.isInit then 1 else 0) := by
  cases hinit : e.isInit with
  | true =>
    cases e with
    | init answer =>
      cases h
      unfold Bounded at hn ⊢
      have hone : (if L.current.isSome then 1 else 0) ≤ 1 := by
        split <;> omega
      exact hn.trans (Nat.add_le_add_left hone n)
    | _ => cases hinit
  | false =>
    exact step_rule (Bounded n) hL he h hn fun M M' hM hmove => hmove.bounded hM hinit

theorem Move.orphan (h : Move env e L L') (hL : L.Valid env) (he : e ≠ .frame i .close)
    (ho : L.Orphan i) : L'.Orphan i ∧ L'.lives i = L.lives i := by
  obtain ⟨⟨life, hlife, hopen⟩, hc⟩ := ho
  have hkept (hlives : L'.lives i = L.lives i) (hc' : L'.current ≠ some i) :
      L'.Orphan i ∧ L'.lives i = L.lives i :=
    ⟨⟨⟨life, hlives.trans hlife, hopen⟩, hc'⟩, hlives⟩
  cases h with
  | opened hnone =>
    have hne : i ≠ L.next := by
      rintro rfl
      simp [hL.fresh L.next le_rfl] at hlife
    exact hkept (setLife_of_ne hne) fun hi => hne (Option.some.inj hi).symm
  | @closed j hj hwhy =>
    have hne : i ≠ j := by
      rintro rfl
      obtain hcur | hclose := hwhy
      · exact hc hcur
      · exact he hclose
    exact hkept (setLife_of_ne hne) (by simp)
  | @deleted j hj hdel =>
    have hne : i ≠ j := by
      rintro rfl
      simp [hj] at hlife
      exact hopen hlife.symm
    exact hkept (setLife_of_ne hne) hc
  | forgot hinit => exact hkept rfl (by simp)
  | session => exact hkept rfl hc

theorem step_orphan (hL : L.Valid env) (ha : L.allows e = true) (h : step env e L = .ok L')
    (he : e ≠ .frame i .close) (ho : L.Orphan i) : L'.Orphan i ∧ L'.lives i = L.lives i := by
  refine step_rule (fun M => M.Orphan i ∧ M.lives i = L.lives i) hL ha h ⟨ho, rfl⟩ ?_
  rintro M M' hM hmove ⟨ho', hlives⟩
  obtain ⟨ho'', hlives'⟩ := hmove.orphan hM he ho'
  exact ⟨ho'', hlives'.trans hlives⟩

end

end Lifecycle

end SonarPlugin
