import SonarPlugin.WellFormed

namespace SonarPlugin

open Library Relation

def FrameEvent.disk? : FrameEvent → Option (String → Bitmap)
  | .paint disk | .size _ _ disk => some disk
  | _ => none

/-- In world `w` an event makes a frame render `img` at zoom factor `q`. -/
inductive World.Renders (env : Env) (img : Bitmap) (q : ℚ) (w w' : World) : Prop
  | intro {i : FrameId} {e : FrameEvent} {f : SonarFrame} {disk : String → Bitmap}
      (hf : w.frames i = some f) (hc : f.pCanvas.isLive = true) (he : e.disk? = some disk)
      (himg : disk (Scene.nextImage w.statics.imgNum).2 = img)
      (hq : f.picture.imgDataSize = q)
      (hs : World.step env (.frame i e) w = .ok w')

/-- `Rescale` has been asked for the size that belongs to `img` itself. -/
def World.OwnSize (build : Build) (img : Bitmap) (q : ℚ) (w w' : World) : Prop :=
  w'.log = .rescale img q (build.scaled img.width q) (build.scaled img.height q) :: w.log

def World.firstImage? (w : World) : Option Bitmap := (w.log.filterMap Call.image?).getLast?

/-- The first image, if there has been one, gives the same size at factor `q`. -/
def World.FirstAgrees (build : Build) (img : Bitmap) (q : ℚ) (w : World) : Prop :=
  ∀ first ∈ w.firstImage?, build.scaled first.width q = build.scaled img.width q ∧
    build.scaled first.height q = build.scaled img.height q

section

variable {env : Env} {b : Bool} {w w' : World} {img : Bitmap} {q : ℚ}

theorem Effect.remembers (h : Effect env b w w') (hw : w.Remembers) : w'.Remembers := by
  cases h with
  | app h => exact Quiet.remembers ⟨by rw [h.statics], h.log⟩ hw
  | handled hf h => exact h.remembers hw
  | closed hf h => exact h.quiet.remembers hw
  | opened hp h => exact h.quiet.remembers hw
  | deleted hf hlife => exact hw

theorem run_remembers {config : FileConfig} {dilg1 : Colour} {es : List Event}
    (h : (machine env).Run (World.construct env config dilg1) es w) : w.Remembers := by
  refine (construct_wellFormed env config dilg1).run_rule (fun w => w.Remembers) rfl ?_ ?_ h
  · intro u a _ hstatics hlog hu
    exact Quiet.remembers ⟨by rw [hstatics], hlog⟩ hu
  · intro b u v _ h hu
    exact h.remembers hu

theorem Renders.log (h : w.Renders env img q w') :
    let d := w.statics.resizeDims.getD img.dims
    w'.log = .rescale img q (env.build.scaled d.1 q) (env.build.scaled d.2 q) :: w.log := by
  obtain ⟨hf, hc, he, himg, hq, hs⟩ := h
  rename_i i e f disk
  have hrender : ∃ u s, Rendered env.build disk u s ∧ u.app = w.toApp ∧
      u.frame.picture = f.picture ∧ w' = w.put i s := by
    cases e with
    | size client window d =>
      cases he
      obtain ⟨g, s, hg, hs, rfl⟩ := onFrame_eq_ok.mp hs
      obtain rfl : f = g := Option.some.inj (hf.symm.trans hg)
      obtain ⟨hnull, -⟩ | ⟨v, -, -, hr⟩ := onSize_ok hs
      · have hnull' : f.pCanvas = .null := hnull
        simp [hnull'] at hc
      · exact ⟨_, s, hr, rfl, rfl, rfl⟩
    | paint d =>
      cases he
      obtain ⟨g, s, hg, hs, rfl⟩ := onFrame_eq_ok.mp hs
      obtain rfl : f = g := Option.some.inj (hf.symm.trans hg)
      exact ⟨_, s, (paintEvent_ok hs).2, rfl, rfl, rfl⟩
    | _ => cases he
  obtain ⟨u, s, hr, happ, hpic, rfl⟩ := hrender
  have hnext : u.nextBitmap disk = img := by rw [Scene.nextBitmap, happ, himg]
  rw [World.put_toApp, hr.log, hnext, Scene.rescaleCall, Scene.dimsFor, happ, hpic, hq]

theorem ownSize_iff (hw : w.Remembers) (h : w.Renders env img q w') :
    World.OwnSize env.build img q w w' ↔ w.FirstAgrees env.build img q := by
  rw [World.OwnSize, Renders.log h, hw, World.FirstAgrees, World.firstImage?]
  cases (w.log.filterMap Call.image?).getLast? with
  | none => simp [Bitmap.dims]
  | some first => simp [Bitmap.dims]

theorem exists_renders {i : FrameId} {disk : String → Bitmap}
    (hf : (w.frames i).any (fun f => f.pCanvas.isLive && decide (f.picture.imgDataSize = q)) = true)
    (hdisk : ∀ name, disk name = img)
    (hok : (World.step env (.frame i (.paint disk)) w).isOk = true) :
    ∃ w', w.Renders env img q w' := by
  cases hs : World.step env (.frame i (.paint disk)) w with
  | error x => simp [hs, Except.isOk, Except.toBool] at hok
  | ok w' =>
    cases hi : w.frames i with
    | none => simp [hi] at hf
    | some f =>
      rw [hi, Option.any_some, Bool.and_eq_true, decide_eq_true_eq] at hf
      exact ⟨w', .intro hi hf.1 rfl (hdisk _) hf.2 hs⟩

end

/-- After two histories the same image at the same factor gets its own size
if and only if the first image of each history would have got that size. -/
theorem rescale_history_free_iff {env : Env} {config₁ config₂ : FileConfig}
    {dilg₁ dilg₂ : Colour} {es₁ es₂ : List Event} {w₁ w₂ w₁' w₂' : World} {img : Bitmap} {q : ℚ}
    (h₁ : (machine env).Run (World.construct env config₁ dilg₁) es₁ w₁)
    (h₂ : (machine env).Run (World.construct env config₂ dilg₂) es₂ w₂)
    (r₁ : w₁.Renders env img q w₁') (r₂ : w₂.Renders env img q w₂') :
    (World.OwnSize env.build img q w₁ w₁' ∧ World.OwnSize env.build img q w₂ w₂') ↔
      w₁.FirstAgrees env.build img q ∧ w₂.FirstAgrees env.build img q :=
  and_congr (ownSize_iff (run_remembers h₁) r₁) (ownSize_iff (run_remembers h₂) r₂)

def World.paintable (disk : String → Bitmap) (w : World) : Bool :=
  (w.frames 0).any (fun f => f.pCanvas.isLive && decide (f.picture.imgDataSize = 1)) &&
    (World.step .desktop (.frame 0 (.paint disk)) w).isOk

theorem exists_renders_after (es : List Event) (first : Option Bitmap)
    (h : ((machine .desktop).exec es (World.blank .desktop)).any (fun w =>
      w.paintable (fun _ => ⟨640, 480⟩) && decide (w.firstImage? = first)) = true) :
    ∃ w w', (machine .desktop).Run (World.blank .desktop) es w ∧ w.firstImage? = first ∧
      w.Renders .desktop ⟨640, 480⟩ 1 w' := by
  obtain ⟨w, hrun, hp⟩ := System.exists_run_of_exec _ _ _ _ h
  simp only [World.paintable, Bool.and_eq_true, decide_eq_true_eq] at hp
  obtain ⟨w', hw'⟩ := exists_renders hp.1.1 (fun _ => rfl) hp.1.2
  exact ⟨w, w', hrun, hp.2, hw'⟩

theorem own_size_while_sizes_agree :
    ∃ w₁ w₂ w₁' w₂' : World,
      World.OwnSize Env.desktop.build ⟨640, 480⟩ 1 w₁ w₁' ∧
        World.OwnSize Env.desktop.build ⟨640, 480⟩ 1 w₂ w₂' := by
  obtain ⟨w₁, w₁', h₁, hfirst₁, r₁⟩ := exists_renders_after [.init true, .toolbar 1] none
    (by decide +kernel)
  obtain ⟨w₂, w₂', h₂, hfirst₂, r₂⟩ := exists_renders_after
    [.init true, .toolbar 1, .frame 0 (.paint fun _ => ⟨640, 480⟩)] (some ⟨640, 480⟩)
    (by decide +kernel)
  refine ⟨w₁, w₂, w₁', w₂', (rescale_history_free_iff h₁ h₂ r₁ r₂).mpr ⟨?_, ?_⟩⟩
  · simp [World.FirstAgrees, hfirst₁]
  · simp [World.FirstAgrees, hfirst₂]

theorem size_of_first_image_sticks :
    ∃ w₁ w₂ w₁' w₂' : World,
      (machine .desktop).Run (World.blank .desktop) [.init true, .toolbar 1] w₁ ∧
      (machine .desktop).Run (World.blank .desktop)
        [.init true, .toolbar 1, .frame 0 (.paint fun _ => ⟨1, 1⟩)] w₂ ∧
      w₁.Renders .desktop ⟨640, 480⟩ 1 w₁' ∧ w₂.Renders .desktop ⟨640, 480⟩ 1 w₂' ∧
      World.OwnSize Env.desktop.build ⟨640, 480⟩ 1 w₁ w₁' ∧
      ¬ World.OwnSize Env.desktop.build ⟨640, 480⟩ 1 w₂ w₂' := by
  obtain ⟨w₁, w₁', h₁, hfirst₁, r₁⟩ := exists_renders_after [.init true, .toolbar 1] none
    (by decide +kernel)
  obtain ⟨w₂, w₂', h₂, hfirst₂, r₂⟩ := exists_renders_after
    [.init true, .toolbar 1, .frame 0 (.paint fun _ => ⟨1, 1⟩)] (some ⟨1, 1⟩) (by decide +kernel)
  refine ⟨w₁, w₂, w₁', w₂', h₁, h₂, r₁, r₂, ?_, ?_⟩
  · rw [ownSize_iff (run_remembers h₁) r₁]
    simp [World.FirstAgrees, hfirst₁]
  · rw [ownSize_iff (run_remembers h₂) r₂, World.FirstAgrees, hfirst₂]
    intro hagree
    have hwidth := (hagree ⟨1, 1⟩ rfl).1
    revert hwidth
    decide +kernel

end SonarPlugin
