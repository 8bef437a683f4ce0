import SonarPlugin.Viewing
import SonarPlugin.Transitions

namespace SonarPlugin

open Library

def FrameEvent.renders : FrameEvent → Bool
  | .paint _ | .size .. => true
  | _ => false

def FrameEvent.Shows (img : Bitmap) : FrameEvent → Prop
  | .paint disk | .size _ _ disk => ∀ name, disk name = img
  | _ => True

/-- The zoom steps since the last restoration, zooming out counted negatively. -/
def zoomCount (k : Int) : FrameEvent → Int
  | .mouseScroll rotation => if rotation > 0 then k + 1 else if rotation < 0 then k - 1 else k
  | .key .up _ => k + 1
  | .key .down _ => k - 1
  | .restoration => 0
  | _ => k

def zoomFactor (k : Int) : ℚ := 1 + k / 10

/-- The zoom count, and the counts at which the frame has rendered so far. -/
structure ZoomState where
  count : Int
  rendered : List Int

def ZoomState.next (z : ZoomState) (e : FrameEvent) : ZoomState where
  count := zoomCount z.count e
  rendered := if e.renders then z.count :: z.rendered else z.rendered

def renderedAt (es : List FrameEvent) : List Int := (es.foldl ZoomState.next ⟨0, []⟩).rendered

def rescaleAt (img : Bitmap) (k : Int) : Call :=
  .rescale img (zoomFactor k) (truncate (img.width * zoomFactor k))
    (truncate (img.height * zoomFactor k))

/-- A call of `Rescale` gets sides that are positive and fit an `int`. -/
def Call.Legal : Call → Prop
  | .rescale _ _ width height => (1 ≤ width ∧ width ≤ 2 ^ 31 - 1) ∧ 1 ≤ height ∧ height ≤ 2 ^ 31 - 1
  | _ => True

/-- At zoom count `k` a side of length `n` has at least one pixel and fewer than `2 ^ 31`. -/
def SideFits (n : Nat) (k : Int) : Prop := 10 ≤ n * (10 + k) ∧ n * (10 + k) < 10 * 2 ^ 31

section

variable {build : Build} {s t : Scene} {img : Bitmap} {k : Int}

theorem zoomFactor_mul (n : Nat) (k : Int) :
    (n : ℚ) * zoomFactor k = ((n * (10 + k) : Int) : ℚ) / 10 := by
  unfold zoomFactor
  push_cast
  ring

theorem side_legal_iff (n : Nat) :
    (1 ≤ truncate (n * zoomFactor k) ∧ truncate (n * zoomFactor k) ≤ 2 ^ 31 - 1) ↔
      SideFits n k := by
  have hupper : truncate (n * zoomFactor k) ≤ 2 ^ 31 - 1 ↔ truncate (n * zoomFactor k) < 2 ^ 31 := by
    omega
  rw [le_truncate (by norm_num), hupper, truncate_lt (by norm_num), zoomFactor_mul, SideFits]
  rw [le_div_iff₀ (by norm_num), div_lt_iff₀ (by norm_num)]
  constructor
  · rintro ⟨hl, hu⟩
    constructor
    · exact_mod_cast hl
    · have hu' : ((n * (10 + k) : Int) : ℚ) < ((10 * 2 ^ 31 : Int) : ℚ) := by
        push_cast at hu ⊢
        linarith
      exact_mod_cast hu'
  · rintro ⟨hl, hu⟩
    have hl' : ((10 : Int) : ℚ) ≤ ((n * (10 + k) : Int) : ℚ) := by exact_mod_cast hl
    have hu' : ((n * (10 + k) : Int) : ℚ) < ((10 * 2 ^ 31 : Int) : ℚ) := by exact_mod_cast hu
    push_cast at hl' hu' ⊢
    constructor <;> linarith

theorem rescaleAt_legal : (rescaleAt img k).Legal ↔ SideFits img.width k ∧ SideFits img.height k :=
  and_congr (side_legal_iff img.width) (side_legal_iff img.height)

def FrameEvent.scale (build : Build) (q : ℚ) : FrameEvent → ℚ
  | .mouseScroll rotation =>
    if rotation > 0 then build.grown q else if rotation < 0 then build.shrunk q else q
  | .key .up _ => build.grown q
  | .key .down _ => build.shrunk q
  | .restoration => 1
  | _ => q

theorem grown_zoomFactor : build.exact.grown (zoomFactor k) = zoomFactor (k + 1) := by
  rw [Build.grown_exact, zoomFactor, zoomFactor]
  push_cast
  ring

theorem shrunk_zoomFactor : build.exact.shrunk (zoomFactor k) = zoomFactor (k - 1) := by
  rw [Build.shrunk_exact, zoomFactor, zoomFactor]
  push_cast
  ring

theorem scale_zoomFactor (e : FrameEvent) :
    e.scale build.exact (zoomFactor k) = zoomFactor (zoomCount k e) := by
  cases e with
  | mouseScroll rotation =>
    dsimp only [FrameEvent.scale, zoomCount]
    split
    · exact grown_zoomFactor
    · split
      · exact shrunk_zoomFactor
      · rfl
  | key key ctrl =>
    cases key with
    | up => exact grown_zoomFactor
    | down => exact shrunk_zoomFactor
    | _ => rfl
  | restoration => simp [FrameEvent.scale, zoomCount, zoomFactor]
  | _ => rfl

theorem onMouseScroll_size (s : Scene) (rotation : Int) :
    (s.onMouseScroll build rotation).frame.picture.imgDataSize =
      (FrameEvent.mouseScroll rotation).scale build s.frame.picture.imgDataSize := by
  dsimp only [Scene.onMouseScroll, FrameEvent.scale]
  by_cases hpos : rotation > 0
  · have hneg : ¬ rotation < 0 := by omega
    rw [if_pos hpos, if_neg hneg, if_pos hpos]
    rfl
  · rw [if_neg hpos, if_neg hpos]
    by_cases hneg : rotation < 0
    · rw [if_pos hneg, if_pos hneg]
      rfl
    · rw [if_neg hneg, if_neg hneg]
      rfl

theorem rendered_picture {disk : String → Bitmap} (h : Rendered build disk s t) :
    t.frame.picture = s.frame.picture := by rw [h.frame]

theorem handle_size {e : FrameEvent} (h : e.handle build s = .ok t) :
    t.frame.picture.imgDataSize = e.scale build s.frame.picture.imgDataSize := by
  cases e with
  | move p =>
    obtain ⟨v, -, rfl⟩ := onMove_ok h
    rfl
  | size client window disk =>
    obtain ⟨-, rfl⟩ | ⟨v, -, -, hr⟩ := onSize_ok h
    · rfl
    · rw [rendered_picture hr]
      rfl
  | paint disk =>
    rw [rendered_picture (paintEvent_ok h).2]
    rfl
  | northUp value =>
    obtain ⟨-, ebl, rfl⟩ := checkNorthUp_ok h
    rfl
  | mouseDown p =>
    cases h
    obtain ⟨c, hc⟩ := s.setMouseDown_eq true
    dsimp only [Scene.mouseDown, Scene.onLeftMouse]
    rw [hc]
    split <;> rfl
  | mouseMoved p =>
    cases h
    unfold Scene.mouseMoved Scene.onLeftMouseMove
    split
    · split
      · split <;> rfl
      · rfl
    · rfl
  | mouseReleased p =>
    cases h
    obtain ⟨c, hc⟩ := s.setMouseDown_eq false
    dsimp only [Scene.mouseReleased]
    rw [hc]
    rfl
  | mouseScroll rotation =>
    cases h
    exact onMouseScroll_size s rotation
  | key k ctrl =>
    cases h
    cases k <;> rfl
  | close =>
    rw [(onClose_ok h).frame]
    rfl
  | timer | restoration | colours =>
    cases h
    rfl

theorem quiet_refl (a : App) : Quiet a a := ⟨rfl, [], rfl, nofun⟩

theorem handle_quiet {e : FrameEvent} (hr : e.renders = false) (hc : e ≠ .close)
    (h : e.handle build s = .ok t) : Quiet s.app t.app := by
  cases e with
  | move p =>
    obtain ⟨v, -, rfl⟩ := onMove_ok h
    exact quiet_refl _
  | size | paint => cases hr
  | northUp value =>
    obtain ⟨-, ebl, rfl⟩ := checkNorthUp_ok h
    exact ⟨rfl, [_], rfl, by simp [Call.image?]⟩
  | timer | restoration | mouseDown | mouseMoved | mouseReleased | mouseScroll | key =>
    exact (handle_steered rfl h).quiet
  | close => exact absurd rfl hc
  | colours cs dilg1 =>
    cases h
    exact ⟨rfl, [_, _], rfl, by simp [Call.image?]⟩

theorem handle_canvas {e : FrameEvent} (hc : e ≠ .close) (h : e.handle build s = .ok t)
    (hs : s.frame.pCanvas.isLive = true) : t.frame.pCanvas.isLive = true := by
  rw [Ptr.isLive_iff_misuse?] at hs ⊢
  by_cases hcol : ∃ cs dilg1, e = .colours cs dilg1
  · obtain ⟨cs, dilg1, rfl⟩ := hcol
    cases h
    exact hs
  · have hk := handle_kept h hc fun cs dilg1 he => hcol ⟨cs, dilg1, he⟩
    exact (hk.members .canvas (by simp)).trans hs

theorem forall_legal_iff (calls : List Call) :
    (∀ c ∈ calls, c.Legal) ↔ ∀ c ∈ calls.filter (fun c => c.image?.isSome), c.Legal := by
  constructor
  · intro h c hc
    exact h c (List.mem_filter.mp hc).1
  · intro h c hc
    by_cases himg : c.image?.isSome = true
    · exact h c (List.mem_filter.mpr ⟨hc, himg⟩)
    · cases c with
      | rescale => exact absurd rfl himg
      | _ => trivial

/-- What holds of a frame that has shown nothing but `img`. -/
structure Zoomed (img : Bitmap) (s t : Scene) (z : ZoomState) : Prop where
  size : t.frame.picture.imgDataSize = zoomFactor z.count
  canvas : t.frame.pCanvas.isLive = true
  dims : t.dimsFor img = img.dims
  log : ∃ calls, t.app.log = calls ++ s.app.log ∧
    calls.filter (fun c => c.image?.isSome) = z.rendered.map (rescaleAt img)

theorem Zoomed.quiet {u : Scene} {e : FrameEvent} {z : ZoomState} (h : Zoomed img s t z)
    (he : (viewing build.exact).allowed t e) (hr : e.renders = false)
    (hs : e.handle build.exact t = .ok u) : Zoomed img s u (z.next e) where
  size := by rw [handle_size hs, h.size, scale_zoomFactor, ZoomState.next]
  canvas := handle_canvas he.1 hs h.canvas
  dims := by
    have hq := handle_quiet hr he.1 hs
    rw [← h.dims, Scene.dimsFor, hq.resizeDims]
    rfl
  log := by
    obtain ⟨ds, hu, hds⟩ := (handle_quiet hr he.1 hs).log
    obtain ⟨cs, ht, hcs⟩ := h.log
    refine ⟨ds ++ cs, by rw [hu, ht, List.append_assoc], ?_⟩
    have hnil : ds.filter (fun c => c.image?.isSome) = [] := by
      apply List.filter_eq_nil_iff.mpr
      intro c hc
      simp [hds c hc]
    rw [List.filter_append, hnil, List.nil_append, hcs, ZoomState.next, hr]
    rfl

theorem Zoomed.rescaleCall {u : Scene} {z : ZoomState} (h : Zoomed img s t z)
    (hsize : u.frame.picture.imgDataSize = t.frame.picture.imgDataSize)
    (happ : u.app = t.app) : u.rescaleCall build.exact img = rescaleAt img z.count := by
  have hdims : u.dimsFor img = img.dims := by
    rw [← h.dims, Scene.dimsFor, happ]
    rfl
  rw [Scene.rescaleCall, hdims, hsize, h.size, Build.scaled_exact, Build.scaled_exact]
  simp [rescaleAt, Bitmap.dims]

theorem Zoomed.rendered {u v : Scene} {e : FrameEvent} {z : ZoomState} {disk : String → Bitmap}
    (h : Zoomed img s t z) (hr : e.renders = true) (hscale : ∀ q, e.scale build.exact q = q)
    (hshow : ∀ name, disk name = img) (hv : Rendered build.exact disk u v)
    (hsize : u.frame.picture.imgDataSize = t.frame.picture.imgDataSize) (happ : u.app = t.app) :
    Zoomed img s v (z.next e) where
  size := by
    have hcount : zoomFactor (zoomCount z.count e) = zoomFactor z.count := by
      rw [← scale_zoomFactor, hscale]
    rw [rendered_picture hv, hsize, h.size, ZoomState.next, hcount]
  canvas := by
    rw [hv.frame]
    exact hv.canvas
  dims := by
    have hnext : u.nextBitmap disk = img := hshow _
    rw [Scene.dimsFor, hv.resizeDims, hnext, Option.getD_some, ← h.dims, Scene.dimsFor, happ]
    rfl
  log := by
    have hnext : u.nextBitmap disk = img := hshow _
    obtain ⟨cs, ht, hcs⟩ := h.log
    refine ⟨rescaleAt img z.count :: cs, ?_, ?_⟩
    · rw [hv.log, hnext, h.rescaleCall hsize happ, happ, ht, List.cons_append]
    · have himg : (rescaleAt img z.count).image?.isSome = true := rfl
      rw [List.filter_cons, if_pos himg, hcs, ZoomState.next, hr]
      rfl

theorem Zoomed.step {u : Scene} {e : FrameEvent} {z : ZoomState} (h : Zoomed img s t z)
    (he : (viewing build.exact).allowed t e) (hshow : e.Shows img)
    (hs : e.handle build.exact t = .ok u) :
    Zoomed img s u (z.next e) := by
  cases hr : e.renders with
  | false => exact h.quiet he hr hs
  | true =>
    cases e with
    | size client window disk =>
      obtain ⟨hnull, -⟩ | ⟨v, -, -, hrender⟩ := onSize_ok hs
      · have hc := h.canvas
        simp [hnull] at hc
      · exact h.rendered rfl (fun _ => rfl) hshow hrender rfl rfl
    | paint disk =>
      exact h.rendered rfl (fun _ => rfl) hshow (paintEvent_ok hs).2 rfl rfl
    | _ => cases hr

theorem opens_zoomed {env : Env} {w : World} (h : Opens env.exact w s)
    (hdims : s.app.statics.resizeDims = none ∨ s.app.statics.resizeDims = some img.dims) :
    Zoomed img s s ⟨0, []⟩ where
  size := by
    rw [h.newFrame.picture]
    simp [zoomFactor]
  canvas := by
    rw [(h.newFrame.built h.dialogOk).2.1]
    rfl
  dims := by
    obtain hd | hd := hdims <;> rw [Scene.dimsFor, hd] <;> rfl
  log := ⟨[], rfl, rfl⟩

theorem run_zoomed {env : Env} {w : World} {es : List FrameEvent} (h0 : Opens env.exact w s)
    (hdims : s.app.statics.resizeDims = none ∨ s.app.statics.resizeDims = some img.dims)
    (h : ((viewing env.exact.build).restrict fun _ e => e.Shows img).Run s es t) :
    Zoomed img s t (es.foldl ZoomState.next ⟨0, []⟩) := by
  refine h.refines ZoomState.next (Zoomed img s) (opens_zoomed h0 hdims) ?_
  intro u z e v hu he hs
  exact hu.step he.1 he.2 hs

theorem Zoomed.legal_iff {z : ZoomState} (h : Zoomed img s t z) :
    (∃ calls, t.app.log = calls ++ s.app.log ∧ ∀ c ∈ calls, c.Legal) ↔
      ∀ k ∈ z.rendered, SideFits img.width k ∧ SideFits img.height k := by
  obtain ⟨cs, hlog, hcs⟩ := h.log
  have hlegal : (∀ c ∈ cs, c.Legal) ↔ ∀ k ∈ z.rendered, (rescaleAt img k).Legal := by
    rw [forall_legal_iff, hcs, List.forall_mem_map]
  simp only [hlog, List.append_cancel_right_eq, exists_eq_left', hlegal, rescaleAt_legal]

end

/-- With exact zoom factors, and while a frame shows images of one size only, every
render asks for a legal size if and only if at every render both sides fit at the zoom
count reached. -/
theorem rescale_legal_iff {env : Env} {w : World} {s t : Scene} {img : Bitmap}
    {es : List FrameEvent} (h0 : Opens env.exact w s)
    (hdims : s.app.statics.resizeDims = none ∨ s.app.statics.resizeDims = some img.dims)
    (h : ((viewing env.exact.build).restrict fun _ e => e.Shows img).Run s es t) :
    (∃ calls, t.app.log = calls ++ s.app.log ∧ ∀ c ∈ calls, c.Legal) ↔
      ∀ k ∈ renderedAt es, SideFits img.width k ∧ SideFits img.height k :=
  (run_zoomed h0 hdims h).legal_iff

theorem blank_resizeDims {s : Scene} (h : Opens Env.desktop.exact (World.blank Env.desktop.exact) s) :
    s.app.statics.resizeDims = none := by
  rw [h.newFrame.statics]
  rfl

theorem rescale_legal_without_zoom :
    ∃ s t : Scene, Opens Env.desktop.exact (World.blank Env.desktop.exact) s ∧
      ∃ calls, t.app.log = calls ++ s.app.log ∧ ∀ c ∈ calls, c.Legal := by
  obtain ⟨s, t, h0, hrun, -⟩ := exists_viewing_run Env.desktop.exact (.blank Env.desktop.exact)
    [.paint fun _ => ⟨640, 480⟩] (fun _ => true) rfl (by decide +kernel)
  have hrun' : ((viewing Env.desktop.exact.build).restrict fun _ e => e.Shows ⟨640, 480⟩).Run s
      [.paint fun _ => ⟨640, 480⟩] t := hrun.to_restrict (by simp [FrameEvent.Shows])
  refine ⟨s, t, h0, (rescale_legal_iff h0 (.inl (blank_resizeDims h0)) hrun').mpr ?_⟩
  simp [renderedAt, ZoomState.next, FrameEvent.renders, SideFits]

theorem rescale_to_nothing :
    ∃ s t : Scene, Opens Env.desktop.exact (World.blank Env.desktop.exact) s ∧
      ((viewing Env.desktop.exact.build).restrict fun _ e => e.Shows ⟨1, 1⟩).Run s
        [.mouseScroll (-120), .paint fun _ => ⟨1, 1⟩] t ∧
      ¬ ∃ calls, t.app.log = calls ++ s.app.log ∧ ∀ c ∈ calls, c.Legal := by
  obtain ⟨s, t, h0, hrun, -⟩ := exists_viewing_run Env.desktop.exact (.blank Env.desktop.exact)
    [.mouseScroll (-120), .paint fun _ => ⟨1, 1⟩] (fun _ => true) rfl (by decide +kernel)
  have hrun' : ((viewing Env.desktop.exact.build).restrict fun _ e => e.Shows ⟨1, 1⟩).Run s
      [.mouseScroll (-120), .paint fun _ => ⟨1, 1⟩] t :=
    hrun.to_restrict (by simp [FrameEvent.Shows])
  refine ⟨s, t, h0, hrun', ?_⟩
  have hz := run_zoomed h0 (.inl (blank_resizeDims h0)) hrun'
  rw [hz.legal_iff]
  simp [ZoomState.next, FrameEvent.renders, zoomCount, SideFits]

end SonarPlugin
