import SonarPlugin.WellFormed
import SonarPlugin.Library.Grip

namespace SonarPlugin

open Library

namespace Point

variable {α : Type} [AddCommGroup α]

instance : Add (Point α) := ⟨fun p q => ⟨p.x + q.x, p.y + q.y⟩⟩

instance : Zero (Point α) := ⟨⟨0, 0⟩⟩

instance : Neg (Point α) := ⟨fun p => ⟨-p.x, -p.y⟩⟩

instance : Sub (Point α) := ⟨fun p q => ⟨p.x - q.x, p.y - q.y⟩⟩

instance : AddCommGroup (Point α) where
  add_assoc p q r := congrArg₂ Point.mk (add_assoc p.x q.x r.x) (add_assoc p.y q.y r.y)
  zero_add p := congrArg₂ Point.mk (zero_add p.x) (zero_add p.y)
  add_zero p := congrArg₂ Point.mk (add_zero p.x) (add_zero p.y)
  neg_add_cancel p := congrArg₂ Point.mk (neg_add_cancel p.x) (neg_add_cancel p.y)
  add_comm p q := congrArg₂ Point.mk (add_comm p.x q.x) (add_comm p.y q.y)
  sub_eq_add_neg p q :=
    congrArg₂ Point.mk (sub_eq_add_neg p.x q.x) (sub_eq_add_neg p.y q.y)
  nsmul := nsmulRec
  zsmul := zsmulRec

end Point

/-- What an event means for the image as a thing that can be dragged. -/
def FrameEvent.act? : FrameEvent → Option (Grip.Act (Point Int))
  | .mouseDown p => some (.press p)
  | .mouseMoved p => some (.move p)
  | .mouseReleased _ => some .release
  | .restoration => some .reset
  | _ => none

def Event.act? (i : FrameId) : Event → Option (Grip.Act (Point Int))
  | .frame j e => if j = i then e.act? else none
  | _ => none

structure SonarFrame.Follows (f : SonarFrame) (g : Grip (Point Int)) : Prop where
  imgPosition : f.picture.imgPosition = g.position
  isDragging : f.isDragging = g.cursor.isSome
  mouseDown : ∀ c, f.pCanvas = .live c → c.mouseDown = f.isDragging

/-- Frame `f` becomes `f'` without being dragged or reset. -/
structure SameDrag (f f' : SonarFrame) : Prop where
  imgPosition : f'.picture.imgPosition = f.picture.imgPosition
  isDragging : f'.isDragging = f.isDragging
  pCanvas : f'.pCanvas = f.pCanvas
  created : f'.life = .created → f.life = .created

structure DragKept (s t : Scene) : Prop extends SameDrag s.frame t.frame where
  lastMousePos : t.app.statics.lastMousePos = s.app.statics.lastMousePos

section

variable {build : Build} {s t u : Scene} {f f' f'' : SonarFrame} {g : Grip (Point Int)}

theorem SameDrag.refl (f : SonarFrame) : SameDrag f f := ⟨rfl, rfl, rfl, id⟩

theorem SameDrag.trans (h : SameDrag f f') (h' : SameDrag f' f'') : SameDrag f f'' where
  imgPosition := h'.imgPosition.trans h.imgPosition
  isDragging := h'.isDragging.trans h.isDragging
  pCanvas := h'.pCanvas.trans h.pCanvas
  created := h.created ∘ h'.created

theorem SameDrag.follows (h : SameDrag f f') (hf : f.Follows g) : f'.Follows g where
  imgPosition := h.imgPosition.trans hf.imgPosition
  isDragging := h.isDragging.trans hf.isDragging
  mouseDown := by
    rw [h.pCanvas, h.isDragging]
    exact hf.mouseDown

namespace DragKept

protected theorem refl (s : Scene) : DragKept s s := ⟨.refl _, rfl⟩

theorem trans (h : DragKept s t) (h' : DragKept t u) : DragKept s u :=
  ⟨h.toSameDrag.trans h'.toSameDrag, h'.lastMousePos.trans h.lastMousePos⟩

theorem refresh (s : Scene) : DragKept s s.refresh := ⟨⟨rfl, rfl, rfl, id⟩, rfl⟩

theorem zoomBy (s : Scene) (change : ℚ → ℚ) : DragKept s (s.zoomBy change) :=
  ⟨⟨rfl, rfl, rfl, id⟩, rfl⟩

theorem setColourScheme (cs : ColorScheme) (s : Scene) : DragKept s (s.setColourScheme cs) :=
  ⟨⟨rfl, rfl, rfl, id⟩, rfl⟩

theorem ite {p : Prop} [Decidable p] (h : DragKept s t) : DragKept s (if p then t else s) := by
  split
  · exact h
  · exact .refl s

theorem zoomKey (s : Scene) (k : Key) : DragKept s (s.zoomKey build k) := by
  have hzoom (u : Scene) (change : ℚ → ℚ) : DragKept u (u.zoomBy change).refresh :=
    (zoomBy u change).trans (refresh _)
  exact (hzoom s _).ite.trans (hzoom _ _).ite

theorem rendered {disk : String → Bitmap} (h : Rendered build disk s t) : DragKept s t where
  imgPosition := by rw [h.frame]
  isDragging := by rw [h.frame]
  pCanvas := by rw [h.frame]
  created hlife := by
    rw [h.frame] at hlife
    exact hlife
  lastMousePos := h.lastMousePos

theorem closed (h : Closed s t) : DragKept s t where
  imgPosition := by rw [h.frame]
  isDragging := by rw [h.frame]
  pCanvas := by rw [h.frame]
  created hlife := by simp [h.frame] at hlife
  lastMousePos := by rw [h.statics]

end DragKept

theorem handle_dragKept {e : FrameEvent} (he : e.act? = none) (h : e.handle build s = .ok t) :
    DragKept s t := by
  cases e with
  | mouseDown | mouseMoved | mouseReleased | restoration => cases he
  | move p =>
    obtain ⟨v, -, rfl⟩ := onMove_ok h
    exact ⟨⟨rfl, rfl, rfl, id⟩, rfl⟩
  | size client window disk =>
    obtain ⟨-, rfl⟩ | ⟨v, -, -, hr⟩ := onSize_ok h
    · exact .refl _
    · refine DragKept.trans ?_ (DragKept.rendered hr)
      exact ⟨⟨rfl, rfl, rfl, id⟩, rfl⟩
  | paint disk =>
    refine DragKept.trans ?_ (DragKept.rendered (paintEvent_ok h).2)
    exact ⟨⟨rfl, rfl, rfl, id⟩, rfl⟩
  | timer =>
    cases h
    exact .refresh s
  | northUp value =>
    obtain ⟨-, ebl, rfl⟩ := checkNorthUp_ok h
    exact ⟨⟨rfl, rfl, rfl, id⟩, rfl⟩
  | colours cs dilg1 =>
    cases h
    exact ⟨⟨rfl, rfl, rfl, id⟩, rfl⟩
  | mouseScroll rotation =>
    cases h
    exact ((DragKept.zoomBy s _).ite.trans (DragKept.zoomBy _ _).ite).trans (.refresh _)
  | key k ctrl =>
    cases h
    exact .zoomKey s k
  | close => exact .closed (onClose_ok h)

/-- The canvas is live and the scene agrees with the abstract state, also in
where the cursor was last seen. -/
structure Scene.Follows (s : Scene) (g : Grip (Point Int)) : Prop extends s.frame.Follows g where
  canvas : s.frame.pCanvas.isLive = true
  cursor : ∀ p, g.cursor = some p → s.app.statics.lastMousePos = p

theorem setMouseDown_live (hs : s.frame.pCanvas.isLive = true) (b : Bool) :
    s.setMouseDown b = { s with frame.pCanvas := .live ⟨b⟩ } := by
  obtain ⟨c, hc⟩ := Ptr.isLive_iff.mp hs
  simp [Scene.setMouseDown, hc]

theorem handle_follows {e : FrameEvent} {a : Grip.Act (Point Int)} (hs : s.Follows g)
    (he : e.act? = some a) (h : e.handle build s = .ok t) : t.Follows (g.next a) := by
  cases e with
  | mouseDown p =>
    cases h
    cases he
    simp only [Scene.mouseDown, setMouseDown_live hs.canvas, Scene.onLeftMouse]
    cases s.frame.isDragging <;>
      exact ⟨⟨hs.imgPosition, rfl, by rintro c ⟨⟩; rfl⟩, rfl, by rintro q ⟨⟩; rfl⟩
  | mouseMoved p =>
    cases h
    cases he
    obtain ⟨c, hc⟩ := Ptr.isLive_iff.mp hs.canvas
    have hdown := hs.mouseDown c hc
    simp only [Scene.mouseMoved, hc, Scene.onLeftMouseMove]
    cases hcur : g.cursor with
    | none =>
      have hd : s.frame.isDragging = false := by simp [hs.isDragging, hcur]
      rw [Grip.next_move_free hcur, hdown, hd]
      exact hs
    | some q =>
      have hd : s.frame.isDragging = true := by simp [hs.isDragging, hcur]
      have hlast := hs.cursor q hcur
      rw [Grip.next_move_held hcur, hdown, hd, ← hlast]
      refine ⟨⟨?_, hd, ?_⟩, hs.canvas, by rintro r ⟨⟩; rfl⟩
      · change (s.frame.picture.imgPosition + (p - s.app.statics.lastMousePos) : Point Int) = _
        rw [hs.imgPosition]
      · intro c' hc'
        exact hs.mouseDown c' hc'
  | mouseReleased p =>
    cases h
    cases he
    simp only [Scene.mouseReleased, setMouseDown_live hs.canvas, Scene.onLeftMouseRelease]
    exact ⟨⟨hs.imgPosition, rfl, by rintro c ⟨⟩; rfl⟩, rfl, by rintro q ⟨⟩⟩
  | restoration =>
    cases h
    cases he
    exact ⟨⟨rfl, hs.isDragging, hs.mouseDown⟩, hs.canvas, hs.cursor⟩
  | _ => cases he

theorem DragKept.follows (h : DragKept s t) (hs : s.Follows g) : t.Follows g where
  toFollows := h.toSameDrag.follows hs.toFollows
  canvas := by
    rw [h.pCanvas]
    exact hs.canvas
  cursor := by
    rw [h.lastMousePos]
    exact hs.cursor

theorem handle_follows_act? {e : FrameEvent} (hs : s.Follows g) (h : e.handle build s = .ok t) :
    t.Follows (e.act?.elim g g.next) := by
  cases he : e.act? with
  | none => exact (handle_dragKept he h).follows hs
  | some a => exact handle_follows hs he h

theorem NewFrame.follows {env : Env} {w : World} (h : NewFrame env w s) :
    s.frame.Follows ⟨0, none⟩ where
  imgPosition := by
    rw [h.picture]
    rfl
  isDragging := h.isDragging
  mouseDown c hc := by
    rw [h.isDragging]
    cases hok : env.dialogOk w.nextFrame with
    | true =>
      obtain rfl : (⟨false⟩ : Canvas) = c := by simpa [(h.built hok).2.1] using hc
      rfl
    | false => simp [(h.halfBuilt hok).2.1] at hc

end

end SonarPlugin
