import SonarPlugin.Dragging
import SonarPlugin.Viewing

namespace SonarPlugin

open Library

/-- What the user does with the left button and the pointer, inside the canvas
or outside it, and the other events of the frame. -/
inductive Gesture
  | press (inside : Bool) (p : Point Int)
  | release (inside : Bool) (p : Point Int)
  | motion (inside : Bool) (p : Point Int)
  | other (e : FrameEvent)

def FrameEvent.isMouse : FrameEvent → Bool
  | .mouseDown _ | .mouseMoved _ | .mouseReleased _ => true
  | _ => false

namespace Gesture

/-- What the frame is told. Nothing captures the mouse, so what happens
outside the canvas goes elsewhere. -/
def event? : Gesture → Option FrameEvent
  | .press inside p => if inside then some (.mouseDown p) else none
  | .release inside p => if inside then some (.mouseReleased p) else none
  | .motion inside p => if inside then some (.mouseMoved p) else none
  | .other e => some e

end Gesture

structure Button where
  down : Bool
  pressedInside : Bool

def Button.next (b : Button) : Gesture → Button
  | .press inside _ => ⟨true, inside⟩
  | .release .. => { b with down := false }
  | _ => b

def Button.Holds (b : Button) : Prop := b.down = true ∧ b.pressedInside = true

structure Pointing where
  scene : Scene
  button : Button

def pointing (build : Build) : System Pointing Gesture Fault where
  allowed st g := ∀ e, g = .other e → (viewing build).allowed st.scene e ∧ e.isMouse = false
  step g st := do
    let s ← g.event?.elim (.ok st.scene) fun e => e.handle build st.scene
    return ⟨s, st.button.next g⟩

namespace Pointing

/-- No motion moves the image from here unless the button is held. -/
def HeldMotion (build : Build) (st : Pointing) : Prop :=
  ∀ inside p st', (pointing build).step (.motion inside p) st = .ok st' →
    st'.scene.frame.picture.imgPosition ≠ st.scene.frame.picture.imgPosition → st.button.Holds

/-- During a drag the button is neither pressed nor released outside the canvas. -/
def Witnessed (st : Pointing) (g : Gesture) : Prop :=
  ∀ p, g = .press false p ∨ g = .release false p → st.scene.frame.isDragging = false

/-- The drag flags tell of a button that is really held. -/
structure Tied (st : Pointing) (g : Grip (Point Int)) : Prop where
  follows : st.scene.Follows g
  holds : g.cursor.isSome = true → st.button.Holds

end Pointing

section

variable {build : Build} {st st' : Pointing} {x : Gesture} {g : Grip (Point Int)}

theorem pointing_step_ok (h : (pointing build).step x st = .ok st') :
    ∃ s, x.event?.elim (.ok st.scene) (fun e => e.handle build st.scene) = .ok s ∧
      st' = ⟨s, st.button.next x⟩ := by
  obtain ⟨s, hs, h⟩ := bind_eq_ok.mp h
  cases h
  exact ⟨s, hs, rfl⟩

theorem pointing_step_follows (hst : st.scene.Follows g)
    (h : (pointing build).step x st = .ok st') :
    st'.scene.Follows ((x.event?.bind FrameEvent.act?).elim g g.next) := by
  obtain ⟨s, hs, rfl⟩ := pointing_step_ok h
  cases he : x.event? with
  | none =>
    rw [he] at hs
    cases hs
    exact hst
  | some e =>
    rw [he] at hs
    exact handle_follows_act? hst hs

theorem Pointing.Tied.heldMotion (h : st.Tied g) : st.HeldMotion build := by
  intro inside p st' hstep hmoved
  have hnext := pointing_step_follows h.follows hstep
  by_contra hholds
  have hfree : g.cursor = none := by
    by_contra hcursor
    exact hholds (h.holds (Option.isSome_iff_ne_none.mpr hcursor))
  apply hmoved
  rw [hnext.imgPosition, h.follows.imgPosition]
  cases inside with
  | true => exact congrArg Grip.position (Grip.next_move_free hfree)
  | false => rfl

theorem step_tied (h : st.Tied g) (hx : (pointing build).allowed st x) (hw : st.Witnessed x)
    (hstep : (pointing build).step x st = .ok st') :
    st'.Tied ((x.event?.bind FrameEvent.act?).elim g g.next) := by
  refine ⟨pointing_step_follows h.follows hstep, ?_⟩
  obtain ⟨s, -, rfl⟩ := pointing_step_ok hstep
  have houtside (hno : st.scene.frame.isDragging = false) : ¬ g.cursor.isSome = true := by
    rw [← h.follows.isDragging, hno]
    simp
  cases x with
  | press inside p =>
    cases inside with
    | true => exact fun _ => ⟨rfl, rfl⟩
    | false => exact fun hheld => absurd hheld (houtside (hw p (.inl rfl)))
  | release inside p =>
    cases inside with
    | true =>
      intro hheld
      cases hheld
    | false => exact fun hheld => absurd hheld (houtside (hw p (.inr rfl)))
  | motion inside p =>
    cases inside with
    | true =>
      intro hheld
      apply h.holds
      by_contra hfree
      rw [Option.not_isSome_iff_eq_none] at hfree
      change (g.next (.move p)).cursor.isSome = true at hheld
      rw [Grip.next_move_free hfree, hfree] at hheld
      cases hheld
    | false => exact h.holds
  | other e =>
    have hmouse := (hx e rfl).2
    intro hheld
    apply h.holds
    cases e with
    | mouseDown | mouseMoved | mouseReleased => cases hmouse
    | _ => exact hheld

theorem not_heldMotion_of_unwitnessed (h : st.Tied g) (hw : ¬ st.Witnessed x)
    (hstep : (pointing build).step x st = .ok st') : ¬ st'.HeldMotion build := by
  unfold Pointing.Witnessed at hw
  push Not at hw
  obtain ⟨p, hx, hdrag⟩ := hw
  have hscene : st'.scene = st.scene ∧ ¬ st'.button.Holds := by
    obtain rfl | rfl := hx <;>
    · cases hstep
      exact ⟨rfl, by simp [Button.Holds, Button.next]⟩
  obtain ⟨hscene, hfree⟩ := hscene
  obtain ⟨c, hc⟩ : ∃ c, g.cursor = some c := by
    rw [← Option.isSome_iff_exists, ← h.follows.isDragging]
    simpa using hdrag
  intro hheld
  apply hfree
  let q : Point Int := ⟨c.x + 1, c.y⟩
  let t : Pointing := ⟨st'.scene.mouseMoved q, st'.button⟩
  have hmove : (pointing build).step (.motion true q) st' = .ok t := rfl
  refine hheld true q t hmove ?_
  have hst' : st'.scene.Follows g := hscene ▸ h.follows
  have hnext : t.scene.Follows (g.next (.move q)) := pointing_step_follows hst' hmove
  rw [hnext.imgPosition, hst'.imgPosition, Grip.next_move_held hc]
  intro heq
  have hx : g.position.x + (c.x + 1 - c.x) = g.position.x := congrArg Point.x heq
  omega

theorem opens_tied {env : Env} {w : World} {s : Scene} (h0 : Opens env w s) (down : Bool) :
    Pointing.Tied ⟨s, ⟨down, false⟩⟩ ⟨0, none⟩ where
  follows :=
    { toFollows := h0.newFrame.follows
      canvas := by
        rw [(h0.newFrame.built h0.dialogOk).2.1]
        rfl
      cursor := fun p hp => by cases hp }
  holds hheld := by cases hheld

theorem run_tied {xs : List Gesture} (h0 : st.Tied g)
    (h : ((pointing build).restrict Pointing.Witnessed).Run st xs st') : ∃ g', st'.Tied g' := by
  refine h.invariant (fun u => ∃ g', u.Tied g') ⟨g, h0⟩ ?_
  rintro u x v ⟨g', hu⟩ hx hs
  exact ⟨_, step_tied hu hx.1 hx.2 hs⟩

end

/-- The image moves only under a button held after a press inside the canvas, as
long as during a drag the button is neither pressed nor released outside; and the
first time it is, the image can be moved without. -/
theorem heldMotion_until_unwitnessed {env : Env} {w : World} {s : Scene} (h0 : Opens env w s)
    (down : Bool) :
    (∀ xs st, ((pointing env.build).restrict Pointing.Witnessed).Run ⟨s, ⟨down, false⟩⟩ xs st →
        st.HeldMotion env.build) ∧
      ∀ xs st x st',
        ((pointing env.build).restrict Pointing.Witnessed).Run ⟨s, ⟨down, false⟩⟩ xs st →
        (pointing env.build).allowed st x → ¬ st.Witnessed x →
        (pointing env.build).step x st = .ok st' → ¬ st'.HeldMotion env.build := by
  have htied := opens_tied h0 down
  constructor
  · intro xs st h
    obtain ⟨g, hst⟩ := run_tied htied h
    exact hst.heldMotion
  · intro xs st x st' h _ hw hstep
    obtain ⟨g, hst⟩ := run_tied htied h
    exact not_heldMotion_of_unwitnessed hst hw hstep

theorem exists_opens : ∃ s, Opens .desktop (World.blank .desktop) s := by
  obtain ⟨s, t, h0, -⟩ := exists_viewing_run .desktop (.blank .desktop) [] (fun _ => true) rfl
    (by decide +kernel)
  exact ⟨s, h0⟩

theorem heldMotion_after_press :
    ∃ s st, Opens .desktop (World.blank .desktop) s ∧
      (pointing Env.desktop.build).Run ⟨s, ⟨false, false⟩⟩ [.press true ⟨1, 1⟩] st ∧
      st.HeldMotion Env.desktop.build := by
  obtain ⟨s, h0⟩ := exists_opens
  let st : Pointing := ⟨s.mouseDown ⟨1, 1⟩, ⟨true, true⟩⟩
  have hallowed : (pointing Env.desktop.build).allowed ⟨s, ⟨false, false⟩⟩ (.press true ⟨1, 1⟩) :=
    fun e he => by cases he
  have hstep : (pointing Env.desktop.build).step (.press true ⟨1, 1⟩) ⟨s, ⟨false, false⟩⟩ =
      .ok st := rfl
  have hw : Pointing.Witnessed ⟨s, ⟨false, false⟩⟩ (.press true ⟨1, 1⟩) :=
    fun p hp => by simp at hp
  refine ⟨s, st, h0, .single hallowed hstep, ?_⟩
  exact (heldMotion_until_unwitnessed h0 false).1 _ st (.single ⟨hallowed, hw⟩ hstep)

theorem moved_without_button :
    ∃ s st st', Opens .desktop (World.blank .desktop) s ∧
      (pointing Env.desktop.build).Run ⟨s, ⟨false, false⟩⟩
        [.press true ⟨1, 1⟩, .release false ⟨-5, 1⟩] st ∧
      st.button.down = false ∧
      (pointing Env.desktop.build).step (.motion true ⟨4, 4⟩) st = .ok st' ∧
      st'.scene.frame.picture.imgPosition ≠ st.scene.frame.picture.imgPosition := by
  obtain ⟨s, h0⟩ := exists_opens
  let st : Pointing := ⟨s.mouseDown ⟨1, 1⟩, ⟨false, true⟩⟩
  let st' : Pointing := ⟨(s.mouseDown ⟨1, 1⟩).mouseMoved ⟨4, 4⟩, ⟨false, true⟩⟩
  have hpress : (pointing Env.desktop.build).Run ⟨s, ⟨false, false⟩⟩ [.press true ⟨1, 1⟩]
      ⟨s.mouseDown ⟨1, 1⟩, ⟨true, true⟩⟩ := .single (fun e he => by cases he) rfl
  refine ⟨s, st, st', h0, hpress.append (.single (fun e he => by cases he) rfl), rfl, rfl, ?_⟩
  have hdown : FrameEvent.handle Env.desktop.build (.mouseDown ⟨1, 1⟩) s = .ok st.scene := rfl
  have hmove : FrameEvent.handle Env.desktop.build (.mouseMoved ⟨4, 4⟩) st.scene =
      .ok st'.scene := rfl
  have hheld := handle_follows_act? (opens_tied h0 false).follows hdown
  have hmoved := handle_follows_act? hheld hmove
  rw [hmoved.imgPosition, hheld.imgPosition]
  decide

end SonarPlugin
