import SonarPlugin.Dragging
import SonarPlugin.SingleFrame

namespace SonarPlugin

open Library

def World.OneAtATime (w : World) : Prop := ∀ i j, w.IsOpen i → w.IsOpen j → i = j

def successive (env : Env) : System World Event Fault :=
  (machine env).restrict fun w _ => w.OneAtATime

/-- Frame `i` agrees with the abstract state, which is the initial one as long
as the frame does not exist. -/
structure World.Follows (w : World) (i : FrameId) (g : Grip (Point Int)) : Prop where
  frame : ∀ f, w.frames i = some f → f.Follows g ∧
    (f.life = .created → ∀ p, g.cursor = some p → w.statics.lastMousePos = p)
  fresh : w.nextFrame ≤ i → g = ⟨0, none⟩

structure DragsKept (w w' : World) : Prop where
  frames : ∀ i f', w'.frames i = some f' → (∃ f, w.frames i = some f ∧ SameDrag f f') ∨
    (w.nextFrame ≤ i ∧ f'.Follows ⟨0, none⟩)
  nextFrame : w.nextFrame ≤ w'.nextFrame
  lastMousePos : w'.statics.lastMousePos = w.statics.lastMousePos

section

variable {env : Env} {w w' v : World} {i : FrameId} {f : SonarFrame} {s : Scene}
  {g : Grip (Point Int)}

namespace DragsKept

protected theorem refl (w : World) : DragsKept w w :=
  ⟨fun _ f hf => .inl ⟨f, hf, .refl f⟩, le_rfl, rfl⟩

theorem trans (h : DragsKept w v) (h' : DragsKept v w') : DragsKept w w' where
  frames i f'' hf'' := by
    obtain ⟨f', hf', hsame'⟩ | ⟨hi, hnew⟩ := h'.frames i f'' hf''
    · obtain ⟨f, hf, hsame⟩ | ⟨hi, hnew⟩ := h.frames i f' hf'
      · exact .inl ⟨f, hf, hsame.trans hsame'⟩
      · exact .inr ⟨hi, hsame'.follows hnew⟩
    · exact .inr ⟨h.nextFrame.trans hi, hnew⟩
  nextFrame := h.nextFrame.trans h'.nextFrame
  lastMousePos := h'.lastMousePos.trans h.lastMousePos

theorem of_app (w : World) {a : App} (h : a.statics = w.statics) :
    DragsKept w { w with toApp := a } :=
  ⟨(DragsKept.refl w).frames, le_rfl, congrArg Statics.lastMousePos h⟩

theorem of_put (hf : w.frames i = some f) (h : DragKept ⟨f, w.toApp⟩ s) :
    DragsKept w (w.put i s) where
  frames j f' hf' := by
    by_cases hji : j = i
    · subst hji
      rw [put_frames_self] at hf'
      cases hf'
      exact .inl ⟨f, hf, h.toSameDrag⟩
    · rw [put_frames_of_ne w s hji] at hf'
      exact .inl ⟨f', hf', .refl f'⟩
  nextFrame := le_rfl
  lastMousePos := h.lastMousePos

theorem opened (h : NewFrame env w s) :
    DragsKept w { w.put w.nextFrame s with nextFrame := w.nextFrame + 1 } where
  frames j f' hf' := by
    by_cases hj : j = w.nextFrame
    · subst hj
      obtain rfl : s.frame = f' := Option.some.inj ((put_frames_self w _ s).symm.trans hf')
      exact .inr ⟨le_rfl, h.follows⟩
    · exact .inl ⟨f', (put_frames_of_ne w s hj).symm.trans hf', .refl f'⟩
  nextFrame := Nat.le_succ _
  lastMousePos := congrArg Statics.lastMousePos h.statics

theorem follows (h : DragsKept w w') (hw : w.Follows i g) : w'.Follows i g where
  frame f' hf' := by
    obtain ⟨f, hf, hsame⟩ | ⟨hi, hnew⟩ := h.frames i f' hf'
    · obtain ⟨hfollows, hcursor⟩ := hw.frame f hf
      rw [h.lastMousePos]
      exact ⟨hsame.follows hfollows, hcursor ∘ hsame.created⟩
    · obtain rfl := hw.fresh hi
      exact ⟨hnew, fun _ p hp => (by cases hp)⟩
  fresh hi := hw.fresh (h.nextFrame.trans hi)

end DragsKept

theorem toggle_dragsKept (h : w.toggleSonarFrame env = .ok w') : DragsKept w w' := by
  have hnote : DragsKept w { w with toApp := w.toApp.note .toggleSonarFrame } := .of_app w rfl
  refine hnote.trans ?_
  obtain ⟨-, s, hnew, rfl⟩ | ⟨i, f, s, -, hf, hclosed, rfl⟩ := toggle_cases h
  · exact .opened hnew
  · exact .of_put hf (.closed hclosed)

theorem toggleOnKey_dragsKept {k : Key} {ctrl : Bool} (h : w.toggleOnKey env k ctrl = .ok w') :
    DragsKept w w' := by
  obtain ⟨-, h⟩ | ⟨-, rfl⟩ := toggleOnKey_inv h
  · exact toggle_dragsKept h
  · exact .refl _

theorem onSonarFrame_dragsKept {g : Scene → Except Fault Scene}
    (hg : ∀ s t, g s = .ok t → DragKept s t) (h : w.onSonarFrame g = .ok w') :
    DragsKept w w' := by
  obtain ⟨-, rfl⟩ | ⟨i, f, s, -, hf, hs, rfl⟩ := onSonarFrame_eq_ok.mp h
  · exact .refl _
  · exact .of_put hf (hg _ s hs)

theorem refresh_dragsKept (h : w.onSonarFrame (fun s => .ok s.refresh) = .ok w') :
    DragsKept w w' := by
  refine onSonarFrame_dragsKept (fun s t hs => ?_) h
  cases hs
  exact .refresh s

theorem step_dragsKept {e : Event} (hact : ∀ i, e.act? i = none)
    (h : World.step env e w = .ok w') : DragsKept w w' := by
  cases e with
  | init answer =>
    obtain ⟨a, ha, rfl⟩ := init_inv h
    exact .of_app w (init_ok ha).statics
  | deInit =>
    obtain ⟨v, hv, rfl⟩ := deInit_inv h
    have hclose : DragsKept w v :=
      onSonarFrame_dragsKept (fun _ _ hs => .closed (onClose_ok hs)) hv
    exact hclose.trans (.of_app v rfl)
  | toolbar id => exact toggle_dragsKept h
  | aisSentence answer =>
    obtain ⟨v, hv, h⟩ := aisSentence_inv h
    refine DragsKept.trans ?_ (refresh_dragsKept h)
    obtain rfl | ⟨a, ha, rfl⟩ := hv
    · exact .refl _
    · exact .of_app w (getSonarTargets_kept ha).statics
  | positionFix x =>
    obtain rfl | h := positionFix_inv h
    · exact .refl _
    · have hstore : DragsKept w { w with toApp := w.toApp.storeFix x } := .of_app w rfl
      exact hstore.trans (refresh_dragsKept h)
  | colorScheme cs dilg1 =>
    have hcol : DragsKept w { w with host.dilg1 := dilg1 } := .of_app w rfl
    refine hcol.trans (onSonarFrame_dragsKept (fun s t hs => ?_) h)
    cases hs
    exact .setColourScheme cs s
  | getSonarTargets answer =>
    obtain ⟨a, ha, rfl⟩ := withApp_eq_ok.mp h
    exact .of_app w (getSonarTargets_kept ha).statics
  | preferences r =>
    obtain rfl := preferences_inv h
    exact .of_app w (dialog_spec r w.toApp).statics
  | chartKey k ctrl =>
    exact repeatStep_invariant (DragsKept w) (fun u v hu huv => hu.trans (toggleOnKey_dragsKept huv))
      (.refl w) h
  | frame i e =>
    have he : e.act? = none := by simpa [Event.act?] using hact i
    cases e with
    | key k ctrl =>
      obtain ⟨v, f, hv, hf, rfl⟩ := key_inv h
      exact (toggleOnKey_dragsKept hv).trans (.of_put hf (.zoomKey _ k))
    | _ =>
      obtain ⟨f, s, hf, hs, rfl⟩ := onFrame_eq_ok.mp h
      exact .of_put hf (handle_dragKept he hs)
  | deleteFrame i =>
    cases h
    refine ⟨fun j f' hf' => ?_, le_rfl, rfl⟩
    by_cases hji : j = i
    · simp [hji] at hf'
    · exact .inl ⟨f', by simpa [hji] using hf', .refl f'⟩
  | destroy =>
    obtain ⟨a, ha, rfl⟩ := withApp_eq_ok.mp h
    exact .of_app w (destroy_kept ha).statics

theorem act?_eq_some {e : Event} {a : Grip.Act (Point Int)} (h : e.act? i = some a) :
    ∃ fe, e = .frame i fe ∧ fe.act? = some a := by
  cases e with
  | frame j fe =>
    by_cases hji : j = i
    · subst hji
      exact ⟨fe, rfl, by simpa [Event.act?] using h⟩
    · simp [Event.act?, hji] at h
  | _ => cases h

theorem act_handled {e : FrameEvent} {a : Grip.Act (Point Int)} (ha : e.act? = some a)
    (he : w.allows (.frame i e) = true) (h : World.step env (.frame i e) w = .ok w') :
    ∃ f t, w.frames i = some f ∧ f.life = .created ∧ e.handle env.build ⟨f, w.toApp⟩ = .ok t ∧
      w' = w.put i t := by
  obtain ⟨f, hf, hacc⟩ := allows_frame he
  have hlife : f.life = .created := by
    cases e with
    | mouseDown | mouseMoved | mouseReleased | restoration =>
      simpa [SonarFrame.accepts] using hacc
    | _ => cases ha
  have hstep : w.onFrame i (e.handle env.build) = .ok w' := by
    cases e with
    | key => cases ha
    | _ => exact h
  obtain ⟨f', t, hf', ht, rfl⟩ := onFrame_eq_ok.mp hstep
  obtain rfl : f = f' := Option.some.inj (hf.symm.trans hf')
  exact ⟨f, t, hf, hlife, ht, rfl⟩

/-- The step rule: what a frame follows is moved on by what the event means
for it. -/
theorem step_follows {e : Event} (hw : w.WellFormed) (hi : w.Follows i g)
    (he : w.allows e = true) (hone : w.OneAtATime) (h : World.step env e w = .ok w') :
    w'.Follows i ((e.act? i).elim g g.next) := by
  by_cases hact : ∀ j, e.act? j = none
  · rw [hact i]
    exact (step_dragsKept hact h).follows hi
  push Not at hact
  obtain ⟨j, hj⟩ := hact
  obtain ⟨a, hja⟩ := Option.ne_none_iff_exists'.mp hj
  obtain ⟨fe, rfl, ha⟩ := act?_eq_some hja
  obtain ⟨f, t, hf, hlife, ht, rfl⟩ := act_handled ha he h
  refine ⟨fun f'' hf'' => ?_, fun hnext => ?_⟩
  · by_cases hij : i = j
    · subst hij
      rw [put_frames_self] at hf''
      cases hf''
      obtain ⟨hfollows, hcursor⟩ := hi.frame f hf
      have hscene : Scene.Follows ⟨f, w.toApp⟩ g :=
        ⟨hfollows, ((hw.sound i f hf).created hlife).2.1, hcursor hlife⟩
      have hnext := handle_follows hscene ha ht
      simp only [Event.act?, if_true, ha, Option.elim_some]
      exact ⟨hnext.toFollows, fun _ => hnext.cursor⟩
    · rw [put_frames_of_ne w t hij] at hf''
      have hact : (Event.frame j fe).act? i = none := if_neg (Ne.symm hij)
      rw [hact]
      refine ⟨(hi.frame f'' hf'').1, fun hcreated => ?_⟩
      -- two frames would be open at once
      have hopen : w.IsOpen i := ⟨f'', hf'', by simp [hcreated]⟩
      have hopen' : w.IsOpen j := ⟨f, hf, by simp [hlife]⟩
      exact absurd (hone i j hopen hopen') hij
  · have hij : i ≠ j := by
      rintro rfl
      have hnone := hw.fresh i hnext
      simp [hf] at hnone
    have hact : (Event.frame j fe).act? i = none := if_neg (Ne.symm hij)
    rw [hact]
    exact hi.fresh hnext

theorem run_follows {fs : List Event} (hw : w.WellFormed) (hi : w.Follows i g)
    (h : (successive env).Run w fs w') :
    w'.WellFormed ∧ w'.Follows i (g.after (fs.filterMap (Event.act? i))) := by
  have hfold : g.after (fs.filterMap (Event.act? i)) =
      fs.foldl (fun g e => (e.act? i).elim g g.next) g := by
    rw [Grip.after, List.foldl_filterMap]
    congr 1
    funext g e
    cases e.act? i <;> rfl
  rw [hfold]
  refine h.refines (fun g e => (e.act? i).elim g g.next)
    (fun u g => u.WellFormed ∧ u.Follows i g) ⟨hw, hi⟩ ?_
  rintro u b e v ⟨hu, hub⟩ he hs
  exact ⟨step_wellFormed hu he.1 hs, step_follows hu hub he.1 he.2 hs⟩

theorem reached_follows {config : FileConfig} {dilg1 : Colour} {es : List Event}
    (h : (successive env).Run (World.construct env config dilg1) es w)
    (i : FrameId) : w.WellFormed ∧ ∃ g, w.Follows i g := by
  have hstart : (World.construct env config dilg1).Follows i ⟨0, none⟩ := by
    refine ⟨fun f hf => ?_, fun _ => rfl⟩
    change none = some f at hf
    cases hf
  obtain ⟨hw, hi⟩ := run_follows (construct_wellFormed env config dilg1) hstart h
  exact ⟨hw, _, hi⟩

theorem World.Follows.cursor_of_dragging (hi : w.Follows i g) (hf : w.frames i = some f)
    (hlife : f.life = .created) (hdrag : f.isDragging = true) :
    g.cursor = some w.statics.lastMousePos := by
  obtain ⟨hfollows, hcursor⟩ := hi.frame f hf
  obtain ⟨c, hc⟩ : ∃ c, g.cursor = some c := by
    rw [← Option.isSome_iff_exists, ← hfollows.isDragging, hdrag]
  rw [hcursor hlife c hc]
  exact hc

theorem move_keeps_grabbed {p : Point Int} (hw : w.WellFormed) (hi : w.Follows i g)
    (hf : w.frames i = some f) (hdrag : f.isDragging = true)
    (he : w.allows (.frame i (.mouseMoved p)) = true)
    (h : World.step env (.frame i (.mouseMoved p)) w = .ok w') :
    ∃ f', w'.frames i = some f' ∧ f'.isDragging = true ∧
      f'.picture.imgPosition - w'.statics.lastMousePos =
        f.picture.imgPosition - w.statics.lastMousePos := by
  obtain ⟨f₁, t, hf₁, hlife, ht, rfl⟩ := act_handled rfl he h
  obtain rfl : f = f₁ := Option.some.inj (hf.symm.trans hf₁)
  obtain ⟨hfollows, hcursor⟩ := hi.frame f hf
  have hscene : Scene.Follows ⟨f, w.toApp⟩ g :=
    ⟨hfollows, ((hw.sound i f hf).created hlife).2.1, hcursor hlife⟩
  have hc := hi.cursor_of_dragging hf hlife hdrag
  have hnext := handle_follows hscene rfl ht
  have hheld := Grip.next_move_held (q := p) hc
  have hlast : (w.put i t).statics.lastMousePos = p := hnext.cursor p (by rw [hheld])
  refine ⟨t.frame, put_frames_self w i t, by rw [hnext.isDragging, hheld]; rfl, ?_⟩
  rw [hlast, hnext.imgPosition, hfollows.imgPosition]
  exact Grip.position_next_move hc

theorem step_position_free {e : Event} {f' : SonarFrame} (hw : w.WellFormed) (hi : w.Follows i g)
    (hf : w.frames i = some f) (hdrag : f.isDragging = false)
    (hreset : e ≠ .frame i .restoration) (he : w.allows e = true) (hone : w.OneAtATime)
    (h : World.step env e w = .ok w') (hf' : w'.frames i = some f') :
    f'.picture.imgPosition = f.picture.imgPosition := by
  have hfollows := (hi.frame f hf).1
  have hnext := ((step_follows hw hi he hone h).frame f' hf').1
  have hfree : g.cursor = none := by
    rw [← Option.isNone_iff_eq_none, ← Option.not_isSome, ← hfollows.isDragging, hdrag]
    rfl
  rw [hnext.imgPosition, hfollows.imgPosition]
  cases ha : e.act? i with
  | none => rfl
  | some a =>
    apply Grip.position_next_free hfree
    rintro rfl
    obtain ⟨fe, rfl, hfe⟩ := act?_eq_some ha
    cases fe with
    | restoration => exact hreset rfl
    | _ => cases hfe

theorem run_successive {config : FileConfig} {dilg1 : Colour} {es : List Event}
    (h : ((hosted env).restrict World.EvenKeys).Run (World.construct env config dilg1) es w) :
    (successive env).Run (World.construct env config dilg1) es w := by
  induction h with
  | nil => exact .nil
  | snoc hrun he hs ih =>
    exact ih.snoc ⟨he.1.1, (run_tracked hrun).singleFrame.atMostOne⟩ hs

end

/-- The grabbed point stays under the cursor. In every state reached while frames
come one after another: both drag flags agree; a move of the held image keeps its
distance from the mouse; a press with moves alone after it displaces by the way
to the last point; a restoration during a drag leaves the way from there on; and
outside a drag restoration alone changes the position. -/
theorem grabbed_point_kept {env : Env} {config : FileConfig} {dilg1 : Colour} {es : List Event}
    {w : World} {i : FrameId} {f : SonarFrame}
    (h : (successive env).Run (World.construct env config dilg1) es w)
    (hf : w.frames i = some f) :
    (∀ c, f.pCanvas = .live c → c.mouseDown = f.isDragging) ∧
      (∀ p w', f.isDragging = true → (successive env).Run w [.frame i (.mouseMoved p)] w' →
        ∃ f', w'.frames i = some f' ∧ f'.isDragging = true ∧
          f'.picture.imgPosition - w'.statics.lastMousePos =
            f.picture.imgPosition - w.statics.lastMousePos) ∧
      (∀ (p : Point Int) (qs : List (Point Int)) fs w' f',
        (successive env).Run w (.frame i (.mouseDown p) :: fs) w' →
        fs.filterMap (Event.act? i) = qs.map .move → w'.frames i = some f' →
        f'.picture.imgPosition = f.picture.imgPosition + (qs.getLast?.getD p - p)) ∧
      (∀ (qs : List (Point Int)) fs w' f', f.isDragging = true →
        (successive env).Run w (.frame i .restoration :: fs) w' →
        fs.filterMap (Event.act? i) = qs.map .move → w'.frames i = some f' →
        f'.picture.imgPosition =
          qs.getLast?.getD w.statics.lastMousePos - w.statics.lastMousePos) ∧
      ∀ e w' f', f.isDragging = false → e ≠ .frame i .restoration →
        (successive env).Run w [e] w' → w'.frames i = some f' →
        f'.picture.imgPosition = f.picture.imgPosition := by
  obtain ⟨hw, g, hi⟩ := reached_follows h i
  have hfollows := (hi.frame f hf).1
  have hpress {p : Point Int} {fs : List Event} :
      (Event.frame i (.mouseDown p) :: fs).filterMap (Event.act? i) =
        .press p :: fs.filterMap (Event.act? i) := by
    simp [Event.act?, FrameEvent.act?]
  refine ⟨hfollows.mouseDown, ?_, ?_, ?_, ?_⟩
  · intro p w' hdrag hrun
    obtain ⟨he, hs⟩ := System.Run.single_iff.mp hrun
    exact move_keeps_grabbed hw hi hf hdrag he.1 hs
  · intro p qs fs w' f' hrun hacts hf'
    obtain ⟨-, hi'⟩ := run_follows hw hi hrun
    rw [hpress, hacts, Grip.after_press_moves] at hi'
    rw [(hi'.frame f' hf').1.imgPosition, hfollows.imgPosition]
  · intro qs fs w' f' hdrag hrun hacts hf'
    obtain ⟨-, hi'⟩ := run_follows hw hi hrun
    have hcursor : g.cursor = some w.statics.lastMousePos := by
      obtain ⟨u, he, hs, -⟩ := hrun.uncons
      obtain ⟨f₁, t, hf₁, hlife, -⟩ := act_handled rfl he.1 hs
      obtain rfl : f = f₁ := Option.some.inj (hf.symm.trans hf₁)
      exact hi.cursor_of_dragging hf hlife hdrag
    have hreset : (Event.frame i .restoration :: fs).filterMap (Event.act? i) =
        .reset :: fs.filterMap (Event.act? i) := by
      simp [Event.act?, FrameEvent.act?]
    rw [hreset, hacts] at hi'
    rw [(hi'.frame f' hf').1.imgPosition, Grip.after_reset_moves hcursor]
  · intro e w' f' hdrag hreset hrun hf'
    obtain ⟨he, hs⟩ := System.Run.single_iff.mp hrun
    exact step_position_free hw hi hf hdrag hreset he.1 he.2 hs hf'

theorem grabbed_point_kept_while_zooming :
    ∃ w w' f f', (successive .desktop).Run (World.blank .desktop)
        [.init true, .toolbar 1] w ∧
      (successive .desktop).Run w [.frame 0 (.mouseDown ⟨1, 1⟩),
        .frame 0 (.mouseMoved ⟨9, 9⟩), .frame 0 (.mouseScroll 1),
        .frame 0 (.mouseMoved ⟨4, 3⟩)] w' ∧
      w.frames 0 = some f ∧ w'.frames 0 = some f' ∧
      f'.picture.imgPosition = f.picture.imgPosition + (⟨4, 3⟩ - ⟨1, 1⟩) := by
  obtain ⟨w', hrun, hp⟩ := System.exists_run_of_exec (hosted .desktop) (World.blank .desktop)
    ([.init true, .toolbar 1] ++ [.frame 0 (.mouseDown ⟨1, 1⟩), .frame 0 (.mouseMoved ⟨9, 9⟩),
      .frame 0 (.mouseScroll 1), .frame 0 (.mouseMoved ⟨4, 3⟩)])
    (fun w => (w.frames 0).isSome) (by decide +kernel)
  have heven := hrun.to_restrict (C := World.EvenKeys) fun u e he hs hkey => by
    subst hkey
    simp at he
  obtain ⟨w, hw, hrest⟩ := (run_successive heven).split
  obtain ⟨f', hf'⟩ := Option.isSome_iff_exists.mp hp
  obtain ⟨u, hpress, -⟩ := hrest.uncons
  obtain ⟨f, hf, -⟩ := allows_frame hpress.1
  obtain ⟨-, -, hmoves, -, -⟩ := grabbed_point_kept hw hf
  exact ⟨w, w', f, f', hw, hrest, hf, hf',
    hmoves ⟨1, 1⟩ [⟨9, 9⟩, ⟨4, 3⟩] _ w' f' hrest rfl hf'⟩

end SonarPlugin
