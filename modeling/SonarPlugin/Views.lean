import SonarPlugin.Targets
import SonarPlugin.Library.Purge

namespace SonarPlugin

open Library

def Call.isFeedTrace : Call → Bool
  | .refresh _ | .getAISTargetArray _ | .deleteSonarTargets _ => true
  | _ => false

def Call.isPictureTrace : Call → Bool
  | .refresh _ | .rescale .. => true
  | _ => false

/-- What somebody sees of the plug-in: with or without what the host's data
reaches, with or without what looking at the picture changes, and of each call
all, a part or nothing. -/
structure View where
  feeds : Bool
  picture : Bool
  call : Call → Option Call
  call_twice : ∀ c, (call c).bind call = call c
  without_feeds : feeds = false → ∀ c, c.isFeedTrace = true → call c = none
  without_picture : picture = false → ∀ c, c.isPictureTrace = true → call c = none

def keep {α : Type} (seen : Bool) (x blank : α) : α := if seen then x else blank

@[simp] theorem keep_true {α : Type} (x blank : α) : keep true x blank = x := rfl

@[simp] theorem keep_false {α : Type} (x blank : α) : keep false x blank = blank := rfl

@[simp] theorem keep_keep {α : Type} (seen : Bool) (x blank : α) :
    keep seen (keep seen x blank) blank = keep seen x blank := by
  cases seen <;> rfl

namespace View

variable (V : View)

def log (calls : List Call) : List Call := calls.filterMap V.call

/-- Without the picture, objects are seen but not where they lie. -/
def owned {α : Type} (p : Ptr (Owned α)) : Ptr (Owned α) :=
  p.map fun o => ⟨keep V.picture o.handle 0, o.value⟩

def canvas (p : Ptr Canvas) : Ptr Canvas := p.map fun c => ⟨keep V.picture c.mouseDown false⟩

def image (p : Ptr (Owned Bitmap)) : Ptr (Owned Bitmap) :=
  p.map fun img => ⟨keep V.picture img.handle 0, keep V.picture img.value .invalid⟩

def drawing (p : Picture) : Picture where
  imgPosition := keep V.picture p.imgPosition ⟨0, 0⟩
  imgDataSize := keep V.picture p.imgDataSize 1
  bgColour := p.bgColour

def frame (f : SonarFrame) : SonarFrame :=
  { f with
    timer := V.owned f.timer
    pCanvas := V.canvas f.pCanvas
    pViewState := V.owned f.pViewState
    imgData := V.image f.imgData
    ebl := keep V.feeds f.ebl .zero
    isDragging := keep V.picture f.isDragging false
    picture := V.drawing f.picture
    drawn := keep V.picture f.drawn none
    repaintDue := keep (V.feeds && V.picture) f.repaintDue false }

def pi (p : SonarPi) : SonarPi :=
  { p with
    sonarTargets := keep V.feeds p.sonarTargets .null
    lat := keep V.feeds p.lat .zero
    lon := keep V.feeds p.lon .zero
    cog := keep V.feeds p.cog .zero
    sog := keep V.feeds p.sog .zero
    sats := keep V.feeds p.sats 0 }

def host (h : Host) : Host := { h with arrays := keep V.feeds h.arrays .empty }

def statics (x : Statics) : Statics :=
  { x with
    imgNum := keep V.picture x.imgNum 1
    resizeDims := keep V.picture x.resizeDims none
    lastMousePos := keep V.picture x.lastMousePos ⟨0, 0⟩ }

def heap (L : Ledger) : Ledger := keep V.picture L .empty

def app (a : App) : App where
  pi := V.pi a.pi
  host := V.host a.host
  statics := V.statics a.statics
  heap := V.heap a.heap
  log := V.log a.log

def scene (s : Scene) : Scene := ⟨V.frame s.frame, V.app s.app⟩

def world (w : World) : World where
  toApp := V.app w.toApp
  frames i := (w.frames i).map V.frame
  nextFrame := w.nextFrame

section

variable {V : View} {env : Env} {w : World} {a b : App} {s t : Scene}

@[simp] theorem owned_live {α : Type} (o : Owned α) :
    V.owned (.live o) = .live ⟨keep V.picture o.handle 0, o.value⟩ := rfl

@[simp] theorem canvas_live (c : Canvas) :
    V.canvas (.live c) = .live ⟨keep V.picture c.mouseDown false⟩ := rfl

@[simp] theorem image_live (img : Owned Bitmap) :
    V.image (.live img) =
      .live ⟨keep V.picture img.handle 0, keep V.picture img.value .invalid⟩ := rfl

@[simp] theorem owned_owned {α : Type} (p : Ptr (Owned α)) : V.owned (V.owned p) = V.owned p := by
  simp [owned, Ptr.map_map]

@[simp] theorem canvas_canvas (p : Ptr Canvas) : V.canvas (V.canvas p) = V.canvas p := by
  simp [canvas, Ptr.map_map]

@[simp] theorem image_image (p : Ptr (Owned Bitmap)) : V.image (V.image p) = V.image p := by
  simp [image, Ptr.map_map]

@[simp] theorem drawing_drawing (p : Picture) : V.drawing (V.drawing p) = V.drawing p := by
  simp [drawing]

theorem frame_twice (f : SonarFrame) : V.frame (V.frame f) = V.frame f := by
  simp [frame]

@[simp] theorem toSettings_pi (p : SonarPi) : (V.pi p).toSettings = p.toSettings := rfl

@[simp] theorem dilg1_host (h : Host) : (V.host h).dilg1 = h.dilg1 := rfl

@[simp] theorem pi_pi (p : SonarPi) : V.pi (V.pi p) = V.pi p := by
  simp [pi]

@[simp] theorem host_host (h : Host) : V.host (V.host h) = V.host h := by
  simp [host]

@[simp] theorem statics_statics (x : Statics) : V.statics (V.statics x) = V.statics x := by
  simp [statics]

@[simp] theorem heap_heap (L : Ledger) : V.heap (V.heap L) = V.heap L := keep_keep ..

theorem log_append (calls xs : List Call) : V.log (calls ++ V.log xs) = V.log (calls ++ xs) := by
  have htwice : (fun c => (V.call c).bind V.call) = V.call := funext V.call_twice
  simp only [log, List.filterMap_append, List.filterMap_filterMap, htwice]

theorem log_forgotten {c : Call} (hc : V.call c = none) (xs : List Call) :
    V.log (c :: xs) = V.log xs :=
  List.filterMap_cons_none hc

theorem app_eq (hpi : V.pi a.pi = V.pi b.pi) (hhost : V.host a.host = V.host b.host)
    (hstatics : V.statics a.statics = V.statics b.statics) (hheap : V.heap a.heap = V.heap b.heap)
    (hlog : V.log a.log = V.log b.log) : V.app a = V.app b := by
  simp only [app, hpi, hhost, hstatics, hheap, hlog]

theorem app_twice (a : App) : V.app (V.app a) = V.app a :=
  app_eq (pi_pi _) (host_host _) (statics_statics _) (heap_heap _) (log_append [] a.log)

theorem scene_eq (hframe : V.frame s.frame = V.frame t.frame) (happ : V.app s.app = V.app t.app) :
    V.scene s = V.scene t := by
  rw [scene, scene, hframe, happ]

theorem note_seen (c : Call) : Seen V.app (App.note c) :=
  fun a => app_eq (pi_pi _) (host_host _) (statics_statics _) (heap_heap _) (log_append [c] a.log)

/-- A change of the members that is made of what is shown. -/
theorem pi_seen (g : SonarPi → SonarPi) (hg : ∀ p, V.pi (g (V.pi p)) = V.pi (g p)) :
    Seen V.app fun a => { a with pi := g a.pi } :=
  fun a => app_eq (hg a.pi) (host_host _) (statics_statics _) (heap_heap _) (log_append [] a.log)

theorem host_seen (g : Host → Host) (hg : ∀ h, V.host (g (V.host h)) = V.host (g h)) :
    Seen V.app fun a => { a with host := g a.host } :=
  fun a => app_eq (pi_pi _) (hg a.host) (statics_statics _) (heap_heap _) (log_append [] a.log)

theorem frame_seen (g : Scene → SonarFrame)
    (hg : ∀ s, V.frame (g (V.scene s)) = V.frame (g s)) : Seen V.scene fun s => ⟨g s, s.app⟩ :=
  fun s => scene_eq (hg s) (V.app_twice s.app)

theorem scene_twice : Seen V.scene id := frame_seen Scene.frame fun s => V.frame_twice s.frame

theorem world_twice (w : World) : V.world (V.world w) = V.world w := by
  have hframes (i : FrameId) : ((w.frames i).map V.frame).map V.frame = (w.frames i).map V.frame := by
    cases w.frames i with
    | none => rfl
    | some f => exact congrArg some (V.frame_twice f)
  simp only [world, V.app_twice, hframes]

theorem world_put (w : World) (i : FrameId) (s : Scene) :
    V.world (w.put i s) = (V.world w).put i (V.scene s) := by
  have hframes : (fun j => (Function.update w.frames i (some s.frame) j).map V.frame) =
      Function.update (fun j => (w.frames j).map V.frame) i (some (V.frame s.frame)) := by
    funext j
    by_cases hj : j = i
    · simp [hj]
    · simp [hj]
  simp only [world, World.put, hframes, scene]

theorem put_congr {w' : World} {i : FrameId} {s s' : Scene} (hw : V.world w = V.world w')
    (hs : V.scene s = V.scene s') : V.world (w.put i s) = V.world (w'.put i s') := by
  rw [world_put, world_put, hw, hs]

theorem put_kept {i : FrameId} {f : SonarFrame} {s : Scene} (hf : w.frames i = some f)
    (hs : V.scene s = V.scene ⟨f, w.toApp⟩) : V.world (w.put i s) = V.world w := by
  have hself : w.put i ⟨f, w.toApp⟩ = w := by
    simp only [World.put, ← hf, Function.update_eq_self]
  rw [put_congr rfl hs, hself]

theorem sees_onFrame (i : FrameId) {h : Scene → Except Fault Scene} (hh : Sees V.scene h) :
    Sees V.world (World.onFrame i h) := by
  intro w
  cases hf : w.frames i with
  | none =>
    have hf' : (V.world w).frames i = none := by simp [world, hf]
    rw [World.onFrame, World.onFrame, hf, hf']
  | some f =>
    have hf' : (V.world w).frames i = some (V.frame f) := by simp [world, hf]
    have hs := hh ⟨f, w.toApp⟩
    rw [World.onFrame, World.onFrame, hf, hf']
    change (h (V.scene ⟨f, w.toApp⟩) >>= _).map V.world = (h ⟨f, w.toApp⟩ >>= _).map V.world
    cases hr : h ⟨f, w.toApp⟩ with
    | error x =>
      rw [hr] at hs
      rw [map_eq_error.mp hs]
      rfl
    | ok t =>
      rw [hr] at hs
      obtain ⟨t', ht', hview⟩ := map_eq_ok.mp hs
      rw [ht']
      exact congrArg Except.ok (put_congr (world_twice w) hview)

theorem sees_onSonarFrame {h : Scene → Except Fault Scene} (hh : Sees V.scene h) :
    Sees V.world (World.onSonarFrame h) := by
  intro w
  have hp : (V.world w).pi.pSonarFrame = w.pi.pSonarFrame := rfl
  unfold World.onSonarFrame
  rw [hp]
  cases w.pi.pSonarFrame with
  | none => exact congrArg Except.ok (world_twice w)
  | some i => exact sees_onFrame i hh w

theorem app_congr {a b : App} {w' : World} (hw : V.world w = V.world w') (h : V.app a = V.app b) :
    V.world { w with toApp := a } = V.world { w' with toApp := b } := by
  have hframes := congrArg World.frames hw
  have hnext := congrArg World.nextFrame hw
  simp only [world] at hframes hnext ⊢
  rw [h, hframes, hnext]

theorem withApp_congr {g : App → Except Fault App} {w' : World} (hw : V.world w = V.world w')
    (h : (g w.toApp).map V.app = (g w'.toApp).map V.app) :
    (w.withApp g).map V.world = (w'.withApp g).map V.world := by
  unfold World.withApp
  cases hr : g w'.toApp with
  | error x =>
    rw [hr] at h
    rw [map_eq_error.mp h]
    rfl
  | ok a =>
    rw [hr] at h
    obtain ⟨b, hb, hview⟩ := map_eq_ok.mp h
    rw [hb]
    exact congrArg Except.ok (app_congr hw hview)

theorem sees_app {g : App → App} (hg : Seen V.app g) :
    Sees V.world fun w => (.ok { w with toApp := g w.toApp } : Except Fault World) :=
  Sees.ok fun w => app_congr (world_twice w) (hg w.toApp)

theorem accepts_frame (f : SonarFrame) (e : FrameEvent) : (V.frame f).accepts e = f.accepts e := by
  have hcanvas : (V.frame f).pCanvas.isLive = f.pCanvas.isLive := Ptr.isLive_map
  cases e with
  | paint disk =>
    dsimp only [SonarFrame.accepts]
    rw [hcanvas]
    rfl
  | _ => rfl

theorem allows_world (e : Event) : (V.world w).allows e = w.allows e := by
  have halive : (V.world w).host.alive = w.host.alive := rfl
  unfold World.allows
  rw [halive]
  cases e with
  | frame i e => simp [world, Option.any_map, accepts_frame]
  | deleteFrame i =>
    have hlife (f : SonarFrame) : (V.frame f).life = f.life := rfl
    simp [world, Option.any_map, hlife]
  | _ => rfl

end

end View

end SonarPlugin
