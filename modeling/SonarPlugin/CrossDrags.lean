import SonarPlugin.GrabbedPoint
import SonarPlugin.OwnEvents
import SonarPlugin.Library.Board

namespace SonarPlugin

open Library

def Event.drag? : Event → Option (FrameId × Grip.Act (Point Int))
  | .frame i e => e.act?.map fun a => (i, a)
  | _ => none

/-- What the drags of all frames come to, over the one static variable that
remembers the cursor. -/
def dragged (es : List Event) : Board FrameId (Point Int) :=
  (Board.mk 0 (fun _ => false) fun _ => 0).after (es.filterMap Event.drag?)

structure World.LiesOn (w : World) (b : Board FrameId (Point Int)) : Prop where
  cursor : w.statics.lastMousePos = b.cursor
  frames : ∀ i f, w.frames i = some f → f.Follows (b.grip i)
  fresh : ∀ i, w.nextFrame ≤ i → b.held i = false ∧ b.position i = 0

section

variable {env : Env} {build : Build} {w w' : World} {i j : FrameId} {f f' : SonarFrame}
  {s t : Scene} {b b' : Board FrameId (Point Int)} {g : Grip (Point Int)}

theorem drag?_eq_none {e : Event} (h : e.drag? = none) : e.act? j = none := by
  cases e with
  | frame i e =>
    have ha : e.act? = none := by simpa [Event.drag?] using h
    simp [Event.act?, ha]
  | _ => rfl

theorem drag?_eq_some {e : Event} {a : Grip.Act (Point Int)} (h : e.drag? = some (i, a)) :
    ∃ fe, e = .frame i fe ∧ fe.act? = some a := by
  cases e with
  | frame j fe =>
    simp only [Event.drag?, Option.map_eq_some_iff, Prod.mk.injEq] at h
    obtain ⟨a', ha, rfl, rfl⟩ := h
    exact ⟨fe, rfl, ha⟩
  | _ => cases h

theorem follows_congr {g' : Grip (Point Int)} (h : f.Follows g) (hposition : g'.position = g.position)
    (hheld : g'.cursor.isSome = g.cursor.isSome) : f.Follows g' :=
  ⟨h.imgPosition.trans hposition.symm, h.isDragging.trans hheld.symm, h.mouseDown⟩

theorem grip_isSome : (b.grip i).cursor.isSome = b.held i := by
  unfold Board.grip
  cases b.held i <;> rfl

theorem DragsKept.liesOn (h : DragsKept w w') (hw : w.LiesOn b) : w'.LiesOn b where
  cursor := h.lastMousePos.trans hw.cursor
  frames i f' hf' := by
    obtain ⟨f, hf, hsame⟩ | ⟨hi, hnew⟩ := h.frames i f' hf'
    · exact hsame.follows (hw.frames i f hf)
    · obtain ⟨hheld, hposition⟩ := hw.fresh i hi
      exact follows_congr hnew hposition (grip_isSome.trans hheld)
  fresh i hi := hw.fresh i (h.nextFrame.trans hi)

theorem act_lastMousePos {e : FrameEvent} {a : Grip.Act (Point Int)}
    (hb : s.app.statics.lastMousePos = b.cursor) (hs : s.Follows (b.grip i)) (ha : e.act? = some a)
    (h : e.handle build s = .ok t) :
    t.app.statics.lastMousePos = (b.next (i, a)).cursor := by
  have hnext := (handle_follows hs ha h).cursor
  rw [← Board.grip_next_self] at hnext
  cases e with
  | mouseDown p =>
    cases ha
    exact hnext p (by simp [Board.grip, Board.next])
  | mouseMoved q =>
    cases ha
    cases hi : b.held i with
    | true =>
      rw [Board.next_move_held hi] at hnext ⊢
      exact hnext q (by simp [Board.grip, hi])
    | false =>
      rw [Board.next_move_free hi, ← hb]
      cases h
      obtain ⟨c, hc⟩ := Ptr.isLive_iff.mp hs.canvas
      have hdown : c.mouseDown = false := by
        rw [hs.mouseDown c hc, hs.isDragging, grip_isSome, hi]
      simp [Scene.mouseMoved, hc, hdown]
  | mouseReleased p =>
    cases ha
    cases h
    obtain ⟨c, hc⟩ := s.setMouseDown_eq false
    dsimp only [Scene.mouseReleased]
    rw [hc]
    exact hb
  | restoration =>
    cases ha
    cases h
    exact hb
  | _ => cases ha

theorem step_liesOn {e : Event} (hw : w.WellFormed) (hb : w.LiesOn b) (he : w.allows e = true)
    (h : World.step env e w = .ok w') : w'.LiesOn (e.drag?.elim b b.next) := by
  cases hd : e.drag? with
  | none => exact (step_dragsKept (fun j => drag?_eq_none hd) h).liesOn hb
  | some act =>
    obtain ⟨i, a⟩ := act
    obtain ⟨fe, rfl, ha⟩ := drag?_eq_some hd
    obtain ⟨f, t, hf, hlife, ht, rfl⟩ := act_handled ha he h
    have hs : Scene.Follows ⟨f, w.toApp⟩ (b.grip i) := by
      refine ⟨hb.frames i f hf, ((hw.sound i f hf).created hlife).2.1, fun p hp => ?_⟩
      unfold Board.grip at hp
      split at hp
      · exact hb.cursor.trans (Option.some.inj hp)
      · cases hp
    refine ⟨act_lastMousePos hb.cursor hs ha ht, fun j f' hf' => ?_, fun j hj => ?_⟩
    · by_cases hji : j = i
      · subst hji
        rw [put_frames_self] at hf'
        cases hf'
        rw [Option.elim_some, Board.grip_next_self]
        exact (handle_follows hs ha ht).toFollows
      · rw [put_frames_of_ne w t hji] at hf'
        obtain ⟨hheld, hposition⟩ := Board.next_other (b := b) (a := a) hji
        refine follows_congr (hb.frames j f' hf') hposition ?_
        rw [grip_isSome, grip_isSome]
        exact hheld
    · have hji : j ≠ i := by
        rintro rfl
        have hnone := hw.fresh j hj
        simp [hf] at hnone
      obtain ⟨hheld, hposition⟩ := Board.next_other (b := b) (a := a) hji
      obtain ⟨hheld', hposition'⟩ := hb.fresh j hj
      exact ⟨hheld.trans hheld', hposition.trans hposition'⟩

theorem run_liesOn {config : FileConfig} {dilg1 : Colour} {es : List Event}
    (h : (machine env).Run (World.construct env config dilg1) es w) : w.LiesOn (dragged es) := by
  have hstart : (World.construct env config dilg1).LiesOn ⟨0, fun _ => false, fun _ => 0⟩ :=
    ⟨rfl, fun _ _ hf => (by cases hf), fun _ _ => ⟨rfl, rfl⟩⟩
  have hfold : dragged es = es.foldl (fun b e => e.drag?.elim b b.next)
      ⟨0, fun _ => false, fun _ => 0⟩ := by
    rw [dragged, Board.after, List.foldl_filterMap]
    congr 1
    funext b e
    cases e.drag? <;> rfl
  rw [hfold]
  have hend := h.refines (fun b e => e.drag?.elim b b.next)
    (fun w b => w.WellFormed ∧ w.LiesOn b) ⟨construct_wellFormed env config dilg1, hstart⟩ ?_
  · exact hend.2
  · rintro u b e v ⟨hu, hub⟩ he hs
    exact ⟨step_wellFormed hu he hs, step_liesOn hu hub he hs⟩

theorem run_absent {fs : List Event} (hi : i < w.nextFrame) (hf : w.frames i = none)
    (h : (machine env).Run w fs w') : ∀ e ∈ fs, e.own? i = none := by
  have hboth : (i < w'.nextFrame ∧ w'.frames i = none) ∧ ∀ e ∈ fs, e.own? i = none := by
    induction h with
    | nil => exact ⟨⟨hi, hf⟩, by simp⟩
    | @snoc es e u v _ ha hs ih =>
      obtain ⟨⟨hu, hnone⟩, hes⟩ := ih
      have hown : e.own? i = none := by
        cases he : e.own? i with
        | none => rfl
        | some e' =>
          obtain rfl := own?_eq_some he
          obtain ⟨g, hg, -⟩ := allows_frame ha
          cases hnone.symm.trans hg
      refine ⟨⟨Nat.lt_of_lt_of_le hu (step_nextFrame hs), ?_⟩, fun d hd => ?_⟩
      · cases hv : v.frames i with
        | none => rfl
        | some g =>
          obtain ⟨k, hk, -⟩ := step_passed hown hu hs hv
          cases hnone.symm.trans hk
      · obtain hd | hd := List.mem_append.mp hd
        · exact hes d hd
        · rw [List.mem_singleton.mp hd]
          exact hown
  exact hboth.2

theorem dragged_append (es fs : List Event) :
    dragged (es ++ fs) = (dragged es).after (fs.filterMap Event.drag?) := by
  rw [dragged, List.filterMap_append]
  exact List.foldl_append

end

/-- Frames opened side by side share the variable that remembers the cursor.
Through any run their images lie as if one cursor dragged them all. -/
theorem frames_share_cursor {env : Env} {config : FileConfig} {dilg1 : Colour} {es : List Event}
    {w : World} (h : (machine env).Run (World.construct env config dilg1) es w) :
    w.statics.lastMousePos = (dragged es).cursor ∧
      ∀ i f, w.frames i = some f → f.picture.imgPosition = (dragged es).position i ∧
        f.isDragging = (dragged es).held i ∧ ∀ c, f.pCanvas = .live c → c.mouseDown = f.isDragging := by
  have hw := run_liesOn h
  refine ⟨hw.cursor, fun i f hf => ?_⟩
  have hfollows := hw.frames i f hf
  exact ⟨hfollows.imgPosition, hfollows.isDragging.trans grip_isSome, hfollows.mouseDown⟩

theorem second_press_displaces :
    ∃ w f, (machine .desktop).Run (World.blank .desktop)
        [.init true, .toolbar 1, .init true, .toolbar 1, .frame 0 (.mouseDown ⟨1, 1⟩),
          .frame 1 (.mouseDown ⟨50, 60⟩), .frame 0 (.mouseMoved ⟨2, 3⟩)] w ∧
      w.frames 0 = some f ∧ f.picture.imgPosition = ⟨-48, -57⟩ := by
  obtain ⟨w, hrun, hp⟩ := System.exists_run_of_exec (machine .desktop) (World.blank .desktop)
    [.init true, .toolbar 1, .init true, .toolbar 1, .frame 0 (.mouseDown ⟨1, 1⟩),
      .frame 1 (.mouseDown ⟨50, 60⟩), .frame 0 (.mouseMoved ⟨2, 3⟩)]
    (fun w => (w.frames 0).isSome) (by decide +kernel)
  obtain ⟨f, hf⟩ := Option.isSome_iff_exists.mp hp
  refine ⟨w, f, hrun, hf, ?_⟩
  rw [((frames_share_cursor hrun).2 0 f hf).1]
  decide +kernel

theorem dragged_strayed_eq_zero {env : Env} {config : FileConfig} {dilg1 : Colour}
    {es fs : List Event} {u w : World} {i : FrameId} {p : Point Int}
    (h : (machine env).Run (World.construct env config dilg1) es u)
    (h' : (machine env).Run u (.frame i (.mouseDown p) :: fs) w)
    (hfree : ∀ j g, j ≠ i → u.frames j = some g → g.isDragging = false)
    (hpress : ∀ j q, j ≠ i → .frame j (.mouseDown q) ∉ fs) :
    (dragged (es ++ [.frame i (.mouseDown p)])).strayed i (fs.filterMap Event.drag?) = 0 := by
  have hu := run_liesOn h
  refine Board.strayed_eq_zero (fun j a hj hmem => ?_) fun j q hj hmem => ?_
  · have hheld : (dragged (es ++ [.frame i (.mouseDown p)])).held j = (dragged es).held j := by
      rw [dragged_append]
      exact (Board.next_other (b := dragged es) (a := .press p) hj).1
    rw [hheld]
    cases hg : u.frames j with
    | some g =>
      rw [← grip_isSome, ← (hu.frames j g hg).isDragging]
      exact hfree j g hj hg
    | none =>
      by_cases hnext : u.nextFrame ≤ j
      · exact (hu.fresh j hnext).1
      · -- the frame is deleted and cannot be touched any more
        obtain ⟨e, he, hdrag⟩ := List.mem_filterMap.mp hmem
        obtain ⟨fe, rfl, -⟩ := drag?_eq_some hdrag
        have hown := run_absent (Nat.lt_of_not_le hnext) hg h' _ (List.mem_cons_of_mem _ he)
        simp [Event.own?] at hown
  · obtain ⟨e, he, hdrag⟩ := List.mem_filterMap.mp hmem
    obtain ⟨fe, rfl, hact⟩ := drag?_eq_some hdrag
    cases fe with
    | mouseDown q' =>
      cases hact
      exact hpress j _ hj he
    | _ => cases hact

/-- A drag, from its press on, displaces the image by the way of the cursor less
the way that the cursor goes on other frames meanwhile, whatever else happens. So the
grabbed point stays under the cursor just when those ways cancel out, and in any case
when no other frame is held or pressed. -/
theorem drag_error {env : Env} {config : FileConfig} {dilg1 : Colour} {es fs : List Event}
    {u w : World} {i : FrameId} {p : Point Int} {f f' : SonarFrame}
    (h : (machine env).Run (World.construct env config dilg1) es u)
    (h' : (machine env).Run u (.frame i (.mouseDown p) :: fs) w)
    (hacts : ∀ a, (i, a) ∈ fs.filterMap Event.drag? → ∃ q, a = .move q)
    (hf : u.frames i = some f) (hf' : w.frames i = some f') :
    f'.picture.imgPosition - f.picture.imgPosition = w.statics.lastMousePos - p -
        (dragged (es ++ [.frame i (.mouseDown p)])).strayed i (fs.filterMap Event.drag?) ∧
      ((∀ j g, j ≠ i → u.frames j = some g → g.isDragging = false) →
        (∀ j q, j ≠ i → .frame j (.mouseDown q) ∉ fs) →
        f'.picture.imgPosition - f.picture.imgPosition = w.statics.lastMousePos - p) := by
  have hu := run_liesOn h
  have hw := run_liesOn (h.append h')
  let b := dragged (es ++ [.frame i (.mouseDown p)])
  have hb : b = (dragged es).next (i, .press p) := dragged_append es [.frame i (.mouseDown p)]
  have hend : dragged (es ++ .frame i (.mouseDown p) :: fs) = b.after (fs.filterMap Event.drag?) := by
    rw [dragged_append, hb]
    rfl
  have hheld : b.held i = true := by
    rw [hb]
    exact Function.update_self i _ _
  have hdrag := Board.after_held hheld hacts
  have hposition : b.position i = f.picture.imgPosition := by
    rw [(hu.frames i f hf).imgPosition, hb]
    rfl
  have hcursor : b.cursor = p := by
    rw [hb]
    rfl
  rw [← hend, hposition, hcursor, ← hw.cursor] at hdrag
  have hposition' : (dragged (es ++ .frame i (.mouseDown p) :: fs)).position i =
      f'.picture.imgPosition := (hw.frames i f' hf').imgPosition.symm
  rw [hposition'] at hdrag
  have herror : f'.picture.imgPosition - f.picture.imgPosition = w.statics.lastMousePos - p -
      b.strayed i (fs.filterMap Event.drag?) := by
    have hsplit : f'.picture.imgPosition - f.picture.imgPosition =
        f'.picture.imgPosition - w.statics.lastMousePos + w.statics.lastMousePos -
          f.picture.imgPosition := by abel
    rw [hsplit, hdrag]
    abel
  refine ⟨herror, fun hfree hpress => ?_⟩
  have hzero : b.strayed i (fs.filterMap Event.drag?) = 0 :=
    dragged_strayed_eq_zero h h' hfree hpress
  rw [herror, hzero, sub_zero]

theorem drag_error_alone :
    ∃ u w f f', (machine .desktop).Run (World.blank .desktop)
        [.init true, .toolbar 1, .init true, .toolbar 1, .frame 1 (.mouseDown ⟨50, 60⟩),
          .frame 1 (.mouseReleased ⟨50, 60⟩)] u ∧
      (machine .desktop).Run u [.frame 0 (.mouseDown ⟨1, 1⟩), .frame 1 (.mouseMoved ⟨9, 9⟩),
        .toolbar 1, .frame 0 (.mouseMoved ⟨2, 3⟩)] w ∧
      u.frames 0 = some f ∧ w.frames 0 = some f' ∧
      f'.picture.imgPosition - f.picture.imgPosition = w.statics.lastMousePos - ⟨1, 1⟩ := by
  let fs : List Event := [.frame 1 (.mouseMoved ⟨9, 9⟩), .toolbar 1, .frame 0 (.mouseMoved ⟨2, 3⟩)]
  obtain ⟨u, hu, hp⟩ := System.exists_run_of_exec (machine .desktop) (World.blank .desktop)
    [.init true, .toolbar 1, .init true, .toolbar 1, .frame 1 (.mouseDown ⟨50, 60⟩),
      .frame 1 (.mouseReleased ⟨50, 60⟩)]
    (fun u => (u.frames 0).isSome && decide (u.nextFrame = 2) &&
      (u.frames 1).all (fun g => !g.isDragging) &&
      ((machine .desktop).exec (.frame 0 (.mouseDown ⟨1, 1⟩) :: fs) u).any
        fun w => (w.frames 0).isSome) (by decide +kernel)
  simp only [Bool.and_eq_true, decide_eq_true_eq] at hp
  obtain ⟨⟨⟨hf, hnext⟩, hone⟩, hexec⟩ := hp
  obtain ⟨w, hw, hf'⟩ := System.exists_run_of_exec (machine .desktop) u _ _ hexec
  obtain ⟨f, hf⟩ := Option.isSome_iff_exists.mp hf
  obtain ⟨f', hf'⟩ := Option.isSome_iff_exists.mp hf'
  refine ⟨u, w, f, f', hu, hw, hf, hf', (drag_error hu hw (fun a ha => ?_) hf hf').2 ?_ ?_⟩
  · have hacts : fs.filterMap Event.drag? = [(1, .move ⟨9, 9⟩), (0, .move ⟨2, 3⟩)] := rfl
    rw [hacts] at ha
    simp only [List.mem_cons, List.not_mem_nil, or_false, Prod.mk.injEq] at ha
    obtain ⟨h, -⟩ | ⟨-, rfl⟩ := ha
    · cases h
    · exact ⟨_, rfl⟩
  · intro j g hj hg
    have hlt : j < 2 := by
      rw [← hnext]
      exact (run_wellFormed hu).lt_nextFrame hg
    obtain rfl : j = 1 := Nat.le_antisymm (Nat.le_of_lt_succ hlt) (Nat.pos_of_ne_zero hj)
    simpa [hg] using hone
  · intro j q _ hmem
    simp [fs] at hmem

end SonarPlugin
