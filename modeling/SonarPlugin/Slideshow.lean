import SonarPlugin.OwnEvents
import SonarPlugin.RescaleHistory

namespace SonarPlugin

open Library

def slide (k : Nat) : String :=
  if k % 3 = 0 then "test1.png" else if k % 3 = 1 then "test2.png" else "test3.png"

/-- What the renders of all frames together come to: their number, the size that
the later ones work with, the calls of `Rescale`, and the zoom and image of each frame. -/
structure Slideshow where
  shown : Nat
  dims : Option (Int × Int)
  calls : List Call
  zoom : FrameId → ℚ
  bitmap : FrameId → Bitmap

namespace Slideshow

def start (testPng : Bitmap) : Slideshow := ⟨0, none, [], fun _ => 1, fun _ => testPng⟩

def advance (build : Build) (i : FrameId) (disk : String → Bitmap) (S : Slideshow) : Slideshow :=
  let img := disk (slide S.shown)
  let dims := S.dims.getD img.dims
  let width := build.scaled dims.1 (S.zoom i)
  let height := build.scaled dims.2 (S.zoom i)
  { S with
    shown := S.shown + 1
    dims := some dims
    calls := .rescale img (S.zoom i) width height :: S.calls
    bitmap := Function.update S.bitmap i (img.rescale width height) }

def next (build : Build) (S : Slideshow) : Event → Slideshow
  | .frame i e =>
    let S := { S with zoom := Function.update S.zoom i (e.scale build (S.zoom i)) }
    e.disk?.elim S fun disk => S.advance build i disk
  | _ => S

end Slideshow

def rescales (log : List Call) : List Call := log.filter fun c => c.image?.isSome

structure World.Displays (testPng : Bitmap) (w : World) (S : Slideshow) : Prop where
  imgNum : w.statics.imgNum = S.shown % 3 + 1
  dims : w.statics.resizeDims = S.dims
  calls : rescales w.log = S.calls
  zoom : ∀ i f, w.frames i = some f → f.picture.imgDataSize = S.zoom i
  bitmap : ∀ i f, w.frames i = some f → f.imgData.map Owned.value = .live (S.bitmap i)
  fresh : ∀ i, w.nextFrame ≤ i → S.zoom i = 1 ∧ S.bitmap i = testPng

section

variable {env : Env} {build : Build} {w w' : World} {i : FrameId} {f f' : SonarFrame}
  {s t u : Scene} {a b : App} {disk : String → Bitmap} {S : Slideshow}

theorem nextImage_slide (k : Nat) :
    Scene.nextImage (k % 3 + 1) = ((k + 1) % 3 + 1, slide k) := by
  have hcases : k % 3 = 0 ∨ k % 3 = 1 ∨ k % 3 = 2 := by omega
  obtain h | h | h := hcases
  · have hnext : (k + 1) % 3 = 1 := by omega
    simp [Scene.nextImage, slide, h, hnext]
  · have hnext : (k + 1) % 3 = 2 := by omega
    simp [Scene.nextImage, slide, h, hnext]
  · have hnext : (k + 1) % 3 = 0 := by omega
    simp [Scene.nextImage, slide, h, hnext]

theorem rescales_append_of_none {calls log : List Call} (h : ∀ c ∈ calls, c.image? = none) :
    rescales (calls ++ log) = rescales log := by
  have hnil : calls.filter (fun c => c.image?.isSome) = [] := by
    apply List.filter_eq_nil_iff.mpr
    intro c hc
    simp [h c hc]
  rw [rescales, List.filter_append, hnil, List.nil_append]
  rfl

theorem Quiet.rescales (h : Quiet a b) : rescales b.log = rescales a.log := by
  obtain ⟨calls, hlog, hcalls⟩ := h.log
  rw [hlog]
  exact rescales_append_of_none hcalls

theorem render_image (h : s.render build disk = .ok t) :
    t.app.statics.imgNum = (Scene.nextImage s.app.statics.imgNum).1 ∧
      t.frame.imgData.map Owned.value = .live (s.rescaled build (s.nextBitmap disk)) := by
  unfold Scene.render at h
  obtain ⟨tm, -, h⟩ := bind_eq_ok.mp h
  obtain ⟨c, -, h⟩ := bind_eq_ok.mp h
  obtain ⟨u, hu, h⟩ := bind_eq_ok.mp h
  obtain ⟨p, rfl⟩ := deleteImgData_ok hu
  cases h
  exact ⟨rfl, rfl⟩

theorem exists_render {e : FrameEvent} (hd : e.disk? = some disk)
    (hc : s.frame.pCanvas.isLive = true) (h : e.handle build s = .ok t) :
    ∃ u : Scene, u.render build disk = .ok t ∧ u.app = s.app ∧
      u.frame.picture = s.frame.picture := by
  cases e with
  | size client window d =>
    cases hd
    change s.onSize build client window disk = .ok t at h
    unfold Scene.onSize at h
    split at h
    next hnull => simp [hnull] at hc
    next =>
      obtain ⟨c, -, h⟩ := bind_eq_ok.mp h
      obtain ⟨v, -, h⟩ := bind_eq_ok.mp h
      exact ⟨_, h, rfl, rfl⟩
  | paint d =>
    cases hd
    obtain ⟨c, -, h⟩ := bind_eq_ok.mp h
    exact ⟨_, h, rfl, rfl⟩
  | _ => cases hd

theorem handle_unrendered {e : FrameEvent} (hd : e.disk? = none) (h : e.handle build s = .ok t) :
    t.frame.imgData = s.frame.imgData ∧ t.app.statics.imgNum = s.app.statics.imgNum ∧
      Quiet s.app t.app := by
  cases e with
  | size | paint => cases hd
  | close =>
    have hc := onClose_ok h
    have hstill := Still.closed hc
    refine ⟨?_, by rw [hc.statics], by rw [hc.statics], hstill.log⟩
    rw [hc.frame]
  | move p =>
    obtain ⟨v, -, rfl⟩ := onMove_ok h
    exact ⟨rfl, rfl, quiet_refl _⟩
  | northUp value =>
    have hq := handle_quiet rfl (by simp) h
    obtain ⟨-, ebl, rfl⟩ := checkNorthUp_ok h
    exact ⟨rfl, rfl, hq⟩
  | colours cs dilg1 =>
    have hq := handle_quiet rfl (by simp) h
    cases h
    exact ⟨rfl, rfl, hq⟩
  | _ =>
    have hs := handle_steered rfl h
    refine ⟨?_, ?_, hs.quiet⟩
    · rw [hs.frame]
    · rw [hs.app]

theorem opened_image (w : World) :
    (Scene.opened env w).frame.picture.imgDataSize = 1 ∧
      (Scene.opened env w).frame.imgData.map Owned.value = .live env.testPng := by
  unfold Scene.opened
  dsimp only
  split <;> exact ⟨rfl, rfl⟩

theorem Passed.image (h : Passed f f') :
    f'.picture.imgDataSize = f.picture.imgDataSize ∧ f'.imgData = f.imgData := by
  rw [h.frame]
  exact ⟨rfl, rfl⟩

theorem FramesPassed.displays (h : FramesPassed env w w') (hw : w.Displays env.testPng S) :
    w'.Displays env.testPng S := by
  have himage (i : FrameId) (f' : SonarFrame) (hf' : w'.frames i = some f') :
      f'.picture.imgDataSize = S.zoom i ∧ f'.imgData.map Owned.value = .live (S.bitmap i) := by
    obtain ⟨hnext, u, hp⟩ | ⟨f, hf, hp, -⟩ := h.frames i f' hf'
    · obtain ⟨hzoom, hbitmap⟩ := hw.fresh i hnext
      rw [hp.image.1, hp.image.2, hzoom, hbitmap]
      exact opened_image u
    · rw [hp.image.1, hp.image.2]
      exact ⟨hw.zoom i f hf, hw.bitmap i f hf⟩
  exact
    { imgNum := by rw [h.still.statics]; exact hw.imgNum
      dims := by rw [h.still.statics]; exact hw.dims
      calls := by
        have hquiet : Quiet w.toApp w'.toApp := ⟨by rw [h.still.statics], h.still.log⟩
        exact hquiet.rescales.trans hw.calls
      zoom := fun i f' hf' => (himage i f' hf').1
      bitmap := fun i f' hf' => (himage i f' hf').2
      fresh := fun i hi => hw.fresh i (h.nextFrame.trans hi) }

theorem put_displays {S' : Slideshow} (hw : w.Displays env.testPng S) (hi : i < w.nextFrame)
    (himgNum : s.app.statics.imgNum = S'.shown % 3 + 1) (hdims : s.app.statics.resizeDims = S'.dims)
    (hcalls : rescales s.app.log = S'.calls) (hzoom : s.frame.picture.imgDataSize = S'.zoom i)
    (hbitmap : s.frame.imgData.map Owned.value = .live (S'.bitmap i))
    (hother : ∀ j, j ≠ i → S'.zoom j = S.zoom j ∧ S'.bitmap j = S.bitmap j) :
    (w.put i s).Displays env.testPng S' where
  imgNum := himgNum
  dims := hdims
  calls := hcalls
  zoom j g hg := by
    by_cases hj : j = i
    · subst hj
      rw [put_frames_self] at hg
      cases hg
      exact hzoom
    · rw [put_frames_of_ne w s hj] at hg
      rw [(hother j hj).1]
      exact hw.zoom j g hg
  bitmap j g hg := by
    by_cases hj : j = i
    · subst hj
      rw [put_frames_self] at hg
      cases hg
      exact hbitmap
    · rw [put_frames_of_ne w s hj] at hg
      rw [(hother j hj).2]
      exact hw.bitmap j g hg
  fresh j hj := by
    have hne : j ≠ i := by
      rintro rfl
      exact absurd hi (Nat.not_lt_of_le hj)
    rw [(hother j hne).1, (hother j hne).2]
    exact hw.fresh j hj

theorem handled_displays {e : FrameEvent} (hw : w.Displays env.testPng S) (hi : i < w.nextFrame)
    (hf : w.frames i = some f) (hc : e.disk? ≠ none → f.pCanvas.isLive = true)
    (h : e.handle env.build ⟨f, w.toApp⟩ = .ok s) :
    (w.put i s).Displays env.testPng (S.next env.build (.frame i e)) := by
  have hsize := handle_size h
  change s.frame.picture.imgDataSize = e.scale env.build f.picture.imgDataSize at hsize
  rw [hw.zoom i f hf] at hsize
  cases hd : e.disk? with
  | none =>
    obtain ⟨himg, hnum, hquiet⟩ := handle_unrendered hd h
    have hnext : S.next env.build (.frame i e) =
        { S with zoom := Function.update S.zoom i (e.scale env.build (S.zoom i)) } := by
      rw [Slideshow.next, hd]
      rfl
    rw [hnext]
    refine put_displays hw hi (hnum.trans hw.imgNum) (hquiet.resizeDims.trans hw.dims)
      (hquiet.rescales.trans hw.calls) ?_ ?_ fun j hj => ?_
    · exact hsize.trans (Function.update_self i _ S.zoom).symm
    · rw [himg]
      exact hw.bitmap i f hf
    · exact ⟨Function.update_of_ne hj _ _, rfl⟩
  | some disk =>
    obtain ⟨u, hu, happ, hpicture⟩ := exists_render hd (hc (by simp [hd])) h
    have hscale : e.scale env.build (S.zoom i) = S.zoom i := by
      cases e with
      | size | paint => rfl
      | _ => cases hd
    have hnext : S.next env.build (.frame i e) = S.advance env.build i disk := by
      rw [Slideshow.next, hd, hscale, Function.update_eq_self]
      rfl
    -- the render finds the counter, the first size and the zoom as the slide show has them
    have hnum : u.app.statics.imgNum = S.shown % 3 + 1 := by rw [happ]; exact hw.imgNum
    have hbitmap : u.nextBitmap disk = disk (slide S.shown) := by
      rw [Scene.nextBitmap, hnum, nextImage_slide]
    have hdims (img : Bitmap) : u.dimsFor img = S.dims.getD img.dims := by
      rw [Scene.dimsFor, happ, ← hw.dims]
    have hzoom : u.frame.picture.imgDataSize = S.zoom i := by
      rw [hpicture]
      exact hw.zoom i f hf
    have hr := render_spec hu
    obtain ⟨hcount, himage⟩ := render_image hu
    rw [hnext]
    refine put_displays hw hi ?_ ?_ ?_ ?_ ?_ fun j hj => ?_
    · rw [hcount, hnum, nextImage_slide]
      rfl
    · rw [hr.resizeDims, hbitmap, hdims]
      rfl
    · have hlog : rescales s.app.log =
          u.rescaleCall env.build (u.nextBitmap disk) :: rescales w.log := by
        rw [hr.log, happ]
        rfl
      rw [hlog, hw.calls, hbitmap, Scene.rescaleCall, hdims, hzoom]
      rfl
    · rw [hsize, hscale]
      rfl
    · rw [himage, hbitmap, Scene.rescaled, hdims, hzoom]
      exact congrArg Ptr.live (Function.update_self i _ S.bitmap).symm
    · exact ⟨rfl, Function.update_of_ne hj _ _⟩

theorem step_displays {e : Event} (hc : w.Coherent) (hw : w.Displays env.testPng S)
    (he : w.allows e = true) (h : World.step env e w = .ok w') :
    w'.Displays env.testPng (S.next env.build e) := by
  cases e with
  | frame i e =>
    obtain ⟨v, f, s, hv, hsame, hf, hs, rfl⟩ := frame_handled h
    have hi : i < v.nextFrame := by
      obtain ⟨g, hg, -⟩ := allows_frame he
      exact Nat.lt_of_lt_of_le (hc.wellFormed.lt_nextFrame hg) hv.nextFrame
    refine handled_displays (hv.displays hw) hi hf (fun hd => ?_) hs
    have htoggle : e.isToggle = false := by
      cases e with
      | key => exact absurd rfl hd
      | _ => rfl
    obtain rfl := hsame htoggle
    obtain ⟨g, hg, hacc⟩ := allows_frame he
    obtain rfl : f = g := Option.some.inj (hf.symm.trans hg)
    refine (hc.numbered i f hf).2 fun hraw => ?_
    cases e with
    | size | paint => simp [SonarFrame.accepts, hraw] at hacc
    | _ => exact absurd rfl hd
  | _ => exact (step_framesPassed (fun j => rfl) h).displays hw

end

def slideshow (env : Env) (es : List Event) : Slideshow :=
  es.foldl (Slideshow.next env.build) (.start env.testPng)

/-- Whatever frames are rendered and whatever else happens, the process goes
through its three images in turn, every one at the zoom of its frame and the size of the
first image of all, as the build's arithmetic multiplies them, and each frame holds the
image of its own last render. -/
theorem slideshow_shown {env : Env} {config : FileConfig} {dilg1 : Colour} {es : List Event}
    {w : World} (h : (machine env).Run (World.construct env config dilg1) es w) :
    w.Displays env.testPng (slideshow env es) := by
  have hstart : (World.construct env config dilg1).Displays env.testPng (.start env.testPng) :=
    { imgNum := rfl
      dims := rfl
      calls := rfl
      zoom := fun _ _ hf => by cases hf
      bitmap := fun _ _ hf => by cases hf
      fresh := fun _ _ => ⟨rfl, rfl⟩ }
  have hend := h.refines (Slideshow.next env.build) (fun w S => w.Coherent ∧ w.Displays env.testPng S)
    ⟨construct_coherent env config dilg1, hstart⟩ ?_
  · exact hend.2
  · rintro u S e v ⟨hc, hu⟩ ha hs
    exact ⟨step_coherent hc ha hs, step_displays hc hu ha hs⟩

theorem slides_skipped :
    ∃ w f g, (machine .desktop).Run (World.blank .desktop)
        [.init true, .toolbar 1, .init true, .toolbar 1, .frame 0 (.paint fun _ => ⟨40, 30⟩),
          .frame 1 (.mouseScroll 120), .frame 1 (.paint fun _ => ⟨7, 5⟩)] w ∧
      w.frames 0 = some f ∧ w.frames 1 = some g ∧
      f.imgData.map Owned.value = .live ⟨40, 30⟩ ∧ g.imgData.map Owned.value = .live ⟨44, 33⟩ := by
  obtain ⟨w, hrun, hp⟩ := System.exists_run_of_exec (machine .desktop) (World.blank .desktop)
    [.init true, .toolbar 1, .init true, .toolbar 1, .frame 0 (.paint fun _ => ⟨40, 30⟩),
      .frame 1 (.mouseScroll 120), .frame 1 (.paint fun _ => ⟨7, 5⟩)]
    (fun w => (w.frames 0).isSome && (w.frames 1).isSome) (by decide +kernel)
  obtain ⟨hf, hg⟩ := Bool.and_eq_true_iff.mp hp
  obtain ⟨f, hf⟩ := Option.isSome_iff_exists.mp hf
  obtain ⟨g, hg⟩ := Option.isSome_iff_exists.mp hg
  have hshown := slideshow_shown hrun
  refine ⟨w, f, g, hrun, hf, hg, ?_, ?_⟩
  · rw [hshown.bitmap 0 f hf]
    decide +kernel
  · rw [hshown.bitmap 1 g hg]
    decide +kernel

end SonarPlugin
