import SonarPlugin.WellFormed
import SonarPlugin.Library.Holders

namespace SonarPlugin

open Library Relation

def World.held (w : World) (i : FrameId) : Multiset Nat := (w.frames i).elim 0 SonarFrame.handles

def World.present (w : World) (i : FrameId) : Nat := if (w.frames i).isSome then 1 else 0

/-- The frame objects that exist hold all the live handles but two for every
frame that has been deleted. -/
def World.Balanced (w : World) : Prop :=
  ∃ lost, w.heap.Shared w.held w.nextFrame lost ∧
    lost.card + 2 * ∑ i ∈ Finset.range w.nextFrame, w.present i = 2 * w.nextFrame

section

variable {env : Env} {b : Bool} {w w' : World}

theorem held_put (w : World) (i : FrameId) (s : Scene) :
    (w.put i s).held = Function.update w.held i s.frame.handles := by
  funext j
  by_cases hij : j = i
  · subst hij
    simp [World.held, put_frames_self]
  · simp [World.held, put_frames_of_ne w s hij, hij]

theorem present_put (w : World) (i : FrameId) (s : Scene) :
    (w.put i s).present = Function.update w.present i 1 := by
  funext j
  by_cases hij : j = i
  · subst hij
    simp [World.present, put_frames_self]
  · simp [World.present, put_frames_of_ne w s hij, hij]

theorem World.WellFormed.lt_nextFrame {i : FrameId} {f : SonarFrame} (hw : w.WellFormed)
    (hf : w.frames i = some f) : i < w.nextFrame := by
  by_contra hi
  rw [hw.fresh i (Nat.le_of_not_lt hi)] at hf
  cases hf

theorem put_balanced {i : FrameId} {f : SonarFrame} {s : Scene} (hw : w.WellFormed)
    (hb : w.Balanced) (hf : w.frames i = some f)
    (howned : ∀ R, w.heap.Owns (R + f.handles) → s.app.heap.Owns (R + s.frame.handles)) :
    (w.put i s).Balanced := by
  obtain ⟨lost, hshared, hcount⟩ := hb
  have hi := hw.lt_nextFrame hf
  have hheld : w.held i = f.handles := by simp [World.held, hf]
  have hpresent : w.present i = 1 := by simp [World.present, hf]
  refine ⟨lost, ?_, ?_⟩
  · rw [held_put]
    refine hshared.update hi ?_
    rw [hheld]
    exact howned
  · have hself : Function.update w.present i 1 = w.present := by
      rw [← hpresent, Function.update_eq_self]
    rw [present_put, hself]
    exact hcount

theorem SonarFrame.Sound.handles_card {f : SonarFrame} (h : f.Sound) (hlife : f.life = .closed) :
    f.handles.card = 2 := by
  obtain ⟨v, hv⟩ := Ptr.isLive_iff.mp h.viewState
  obtain ⟨img, himg⟩ := Ptr.isLive_iff.mp h.imgData
  have ht : f.timer.handles = 0 := by
    have htimer := h.closed hlife
    cases htm : f.timer with
    | live tm => simp [htm] at htimer
    | _ => rfl
  rw [SonarFrame.handles, ht, hv, himg]
  rfl

theorem Effect.balanced (h : Effect env b w w') (hw : w.WellFormed) (hb : w.Balanced) :
    w'.Balanced := by
  cases h with
  | @app _ _ a h =>
    obtain ⟨lost, hshared, hcount⟩ := hb
    have hheap : a.heap = w.heap := h.heap
    exact ⟨lost, hheap ▸ hshared, hcount⟩
  | handled hf h => exact put_balanced hw hb hf h.owned
  | closed hf h => exact put_balanced hw hb hf h.owned
  | @opened _ s hp h =>
    obtain ⟨lost, hshared, hcount⟩ := hb
    refine ⟨lost, ?_, ?_⟩
    · have hgrow := hshared.grow h.owned
      rwa [← held_put] at hgrow
    · change _ + 2 * ∑ i ∈ Finset.range (w.nextFrame + 1), (w.put w.nextFrame s).present i = _
      rw [present_put, sum_update_fresh, mul_add, ← add_assoc, hcount]
      rfl
  | @deleted _ _ j f hf hlife =>
    obtain ⟨lost, hshared, hcount⟩ := hb
    have hj := hw.lt_nextFrame hf
    have hheld : w.held j = f.handles := by simp [World.held, hf]
    have hpresent : w.present j = 1 := by simp [World.present, hf]
    have hcard := (hw.sound j f hf).handles_card hlife
    have hheld' : World.held { w with frames := Function.update w.frames j none } =
        Function.update w.held j 0 := by
      funext i
      by_cases hij : i = j
      · subst hij
        simp [World.held]
      · simp [World.held, hij]
    have hpresent' : World.present { w with frames := Function.update w.frames j none } =
        Function.update w.present j 0 := by
      funext i
      by_cases hij : i = j
      · subst hij
        simp [World.present]
      · simp [World.present, hij]
    refine ⟨lost + w.held j, ?_, ?_⟩
    · rw [hheld']
      exact hshared.drop hj
    · have hsum := sum_update_add hj w.present 0
      rw [hpresent', Multiset.card_add, hheld, hcard]
      rw [hpresent] at hsum
      dsimp only
      omega

theorem construct_balanced (env : Env) (config : FileConfig) (dilg1 : Colour) :
    (World.construct env config dilg1).Balanced := by
  refine ⟨0, ?_, rfl⟩
  exact (rfl : Ledger.empty.live.val = 0)

theorem run_balanced {config : FileConfig} {dilg1 : Colour} {es : List Event}
    (h : (machine env).Run (World.construct env config dilg1) es w) : w.Balanced := by
  refine (construct_wellFormed env config dilg1).run_rule World.Balanced
    (construct_balanced env config dilg1) ?_ ?_ h
  · rintro u a hheap - - ⟨lost, hshared, hcount⟩
    exact ⟨lost, hheap ▸ hshared, hcount⟩
  · intro b u v hu h hub
    exact h.balanced hu hub

theorem World.Balanced.live_card (hb : w.Balanced) (hnone : ∀ i, w.frames i = none) :
    w.heap.live.card = 2 * w.nextFrame := by
  obtain ⟨lost, hshared, hcount⟩ := hb
  have hheld : ∑ i ∈ Finset.range w.nextFrame, w.held i = 0 := by
    apply Finset.sum_eq_zero
    intro i _
    simp [World.held, hnone i]
  have hpresent : ∑ i ∈ Finset.range w.nextFrame, w.present i = 0 := by
    apply Finset.sum_eq_zero
    intro i _
    simp [World.present, hnone i]
  rw [Ledger.Shared, hheld, add_zero] at hshared
  rw [hpresent, mul_zero, add_zero] at hcount
  rw [hshared.card, hcount]

def World.IdleSince (w v : World) : Prop :=
  w.nextFrame ≤ v.nextFrame ∧
    (v.nextFrame = w.nextFrame → (∀ i, v.frames i = none) ∧ v.heap = w.heap)

theorem Effect.idleSince {u v : World} (h : Effect env b u v) (hu : w.IdleSince u) :
    w.IdleSince v := by
  obtain ⟨hle, hidle⟩ := hu
  cases h with
  | @app _ _ a h => exact ⟨hle, fun hn => ⟨(hidle hn).1, h.heap.trans (hidle hn).2⟩⟩
  | @handled _ _ j f s hf h =>
    refine ⟨hle, fun hn => ?_⟩
    rw [(hidle hn).1 j] at hf
    cases hf
  | @closed _ _ j f s hf h =>
    refine ⟨hle, fun hn => ?_⟩
    rw [(hidle hn).1 j] at hf
    cases hf
  | @opened _ s hp h =>
    refine ⟨Nat.le_succ_of_le hle, fun hn => ?_⟩
    have hlt : w.nextFrame < u.nextFrame + 1 := Nat.lt_succ_of_le hle
    exact absurd hn (Nat.ne_of_gt hlt)
  | @deleted _ _ j f hf hlife =>
    refine ⟨hle, fun hn => ?_⟩
    rw [(hidle hn).1 j] at hf
    cases hf

theorem run_idleSince {es : List Event} (hw : w.WellFormed) (hnone : ∀ i, w.frames i = none)
    (h : (machine env).Run w es w') : w.IdleSince w' := by
  refine hw.run_rule w.IdleSince ⟨Nat.le_refl _, fun _ => ⟨hnone, rfl⟩⟩ ?_ ?_ h
  · rintro u a hheap - - ⟨hle, hidle⟩
    exact ⟨hle, fun hn => ⟨(hidle hn).1, hheap.trans (hidle hn).2⟩⟩
  · intro b u v _ h hidle
    exact h.idleSince hidle

end

/-- Between two states without frame objects every frame opened has leaked two
objects, so the ledger is the same again only if none has been opened. -/
theorem ledger_restored_iff {env : Env} {config : FileConfig} {dilg1 : Colour}
    {es fs : List Event} {w w' : World}
    (h : (machine env).Run (World.construct env config dilg1) es w)
    (h' : (machine env).Run w fs w') (hnone : ∀ i, w.frames i = none)
    (hnone' : ∀ i, w'.frames i = none) :
    (w'.heap.live = w.heap.live ↔ w'.nextFrame = w.nextFrame) ∧
      w'.heap.live.card = w.heap.live.card + 2 * (w'.nextFrame - w.nextFrame) := by
  have hcard := (run_balanced h).live_card hnone
  have hcard' := (run_balanced (h.append h')).live_card hnone'
  obtain ⟨hle, hidle⟩ := run_idleSince (run_wellFormed h) hnone h'
  refine ⟨⟨fun hlive => ?_, fun hn => ?_⟩, ?_⟩
  · rw [hlive, hcard] at hcard'
    exact (Nat.eq_of_mul_eq_mul_left (by decide) hcard').symm
  · rw [(hidle hn).2]
  · rw [hcard, hcard', ← Nat.mul_add, Nat.add_sub_cancel' hle]

def firstCycle : List Event := [.toolbar 1, .frame 0 .close, .deleteFrame 0]

theorem exists_first_cycle :
    ∃ w w', (hosted .desktop).Run (World.blank .desktop) [.init true] w ∧
      (hosted .desktop).Run w firstCycle w' ∧ (∀ i, w.frames i = none) ∧
      (∀ i, w'.frames i = none) ∧ w.nextFrame = 0 ∧ w'.nextFrame = 1 := by
  obtain ⟨w, hrun, hp⟩ := System.exists_run_of_exec (hosted .desktop) (World.blank .desktop)
    [.init true] (fun w : World => decide (w.nextFrame = 0) &&
      ((hosted .desktop).exec firstCycle w).any
        fun w' : World => (w'.frames 0).isNone && decide (w'.nextFrame = 1)) (by decide +kernel)
  rw [Bool.and_eq_true, decide_eq_true_eq] at hp
  obtain ⟨hn, hp⟩ := hp
  obtain ⟨w', hrun', hp'⟩ := System.exists_run_of_exec (hosted .desktop) w firstCycle _ hp
  simp only [Bool.and_eq_true, decide_eq_true_eq, Option.isNone_iff_eq_none] at hp'
  obtain ⟨hf, hn'⟩ := hp'
  have hw := run_wellFormed hrun.of_restrict
  have hw' := run_wellFormed (hrun.of_restrict.append hrun'.of_restrict)
  refine ⟨w, w', hrun, hrun', fun i => hw.fresh i (by simp [hn]), fun i => ?_, hn, hn'⟩
  cases i with
  | zero => exact hf
  | succ i => exact hw'.fresh _ (by simp [hn'])

theorem first_cycle_leaves_two :
    ∃ w w' : World, (hosted .desktop).Run w firstCycle w' ∧
      w'.heap.live.card = w.heap.live.card + 2 := by
  obtain ⟨w, w', hrun, hrun', hnone, hnone', hn, hn'⟩ := exists_first_cycle
  refine ⟨w, w', hrun', ?_⟩
  have hcard := (ledger_restored_iff hrun.of_restrict hrun'.of_restrict hnone hnone').2
  rwa [hn, hn'] at hcard

theorem first_cycle_leaks :
    ∃ w w', (hosted .desktop).Run (World.blank .desktop) [.init true] w ∧
      (hosted .desktop).Run w firstCycle w' ∧ (∀ i, w.frames i = none) ∧
      (∀ i, w'.frames i = none) ∧ w'.heap.live ≠ w.heap.live := by
  obtain ⟨w, w', hrun, hrun', hnone, hnone', hn, hn'⟩ := exists_first_cycle
  refine ⟨w, w', hrun, hrun', hnone, hnone', fun hlive => ?_⟩
  have hcard := (run_balanced hrun.of_restrict).live_card hnone
  have hcard' := (run_balanced (hrun.of_restrict.append hrun'.of_restrict)).live_card hnone'
  rw [hlive, hcard, hn, hn'] at hcard'
  cases hcard'

end SonarPlugin
