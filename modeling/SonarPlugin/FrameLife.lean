import SonarPlugin.Opening
import SonarPlugin.Machine

namespace SonarPlugin

open Library

/-- One frame from the success of `wxDialog::Create` on: the statements of
`Create` still to run, and whether the deferred deletion has taken place. -/
structure FrameLife where
  scene : Scene
  todo : List CreateStmt
  deleted : Bool

inductive LifeEvent
  | statement
  | event (e : FrameEvent)
  | deletion

def FrameEvent.isLife : FrameEvent → Bool
  | .move _ | .size .. | .paint _ | .timer | .northUp _ | .close => true
  | _ => false

namespace FrameLife

def start (env : Env) (i : FrameId) (pos : Point Int32) (size : Size Int32) (a : App) :
    FrameLife where
  scene :=
    let s := (Scene.construct env i a).beginCreate env pos size
    { s with frame.life := .created }
  todo := createBody
  deleted := false

/-- A paint needs the canvas and a check-box event the check-box. The window
is deleted when it is idle, so not in the middle of `Create`. -/
def allows (s : FrameLife) : LifeEvent → Bool
  | .statement => !s.todo.isEmpty
  | .event e => !s.deleted && e.isLife &&
      match e with
      | .paint _ => s.scene.frame.pCanvas.isLive
      | .northUp _ => s.scene.frame.pNorthUp.isLive
      | _ => true
  | .deletion => !s.deleted && s.todo.isEmpty && decide (s.scene.frame.life = .closed)

def step (build : Build) : LifeEvent → FrameLife → Except Fault FrameLife
  | .statement, s =>
    match s.todo with
    | [] => .ok s
    | c :: rest => do
      let t ← c.exec build s.scene
      return { s with scene := t, todo := rest }
  | .event e, s => do
    let t ← e.handle build s.scene
    return { s with scene := t }
  | .deletion, s => .ok { s with deleted := true }

end FrameLife

def lifeCycle (build : Build) : System FrameLife LifeEvent Fault where
  allowed s e := s.allows e = true
  step := FrameLife.step build

instance (build : Build) (s : FrameLife) (e : LifeEvent) :
    Decidable ((lifeCycle build).allowed s e) :=
  inferInstanceAs (Decidable (s.allows e = true))

namespace FrameLife

/-- The handlers that use the timer: `OnClose`, and those that render. -/
def NeedsTimer (s : FrameLife) : FrameEvent → Prop
  | .close | .paint _ => True
  | .size .. => .newCanvas ∉ s.todo
  | _ => False

def HasTimer (s : FrameLife) : Prop := .newTimer ∉ s.todo ∧ s.scene.frame.life = .created

def timerDeletions (s : FrameLife) : Nat := s.scene.app.log.count (.deleteTimer s.scene.frame.this)

/-- What each member points to, given how far `Create` has come and whether
the frame has been closed. -/
structure Typestate (s : FrameLife) : Prop where
  once : ∀ c, c = .newCanvas ∨ c = .newNorthUp ∨ c = .newTimer → s.todo.count c ≤ 1
  life : s.scene.frame.life = .created ∨ .newTimer ∉ s.todo ∧ s.scene.frame.life = .closed
  viewState : s.scene.frame.pViewState.misuse? = none
  imgData : s.scene.frame.imgData.isLive = true
  canvas : s.scene.frame.pCanvas.misuse? = if .newCanvas ∈ s.todo then some .null else none
  northUp : s.scene.frame.pNorthUp.misuse? = if .newNorthUp ∈ s.todo then some .null else none
  timer : s.scene.frame.timer.misuse? =
    if .newTimer ∈ s.todo then some .null
    else if s.scene.frame.life = .closed then some .dangling else none

section

variable {build : Build} {s t : FrameLife}

theorem start_typestate (env : Env) (i : FrameId) (pos : Point Int32) (size : Size Int32)
    (a : App) : (start env i pos size a).Typestate where
  once := by
    rintro c (rfl | rfl | rfl)
    all_goals exact Nat.le_refl 1
  life := .inl rfl
  viewState := rfl
  imgData := rfl
  canvas := rfl
  northUp := rfl
  timer := rfl

theorem Typestate.handled {u : Scene} (hs : s.Typestate) (h : Kept s.scene u) :
    FrameLife.Typestate { s with scene := u } where
  once := hs.once
  life := by
    change u.frame.life = _ ∨ _ ∧ u.frame.life = _
    rw [h.life]
    exact hs.life
  viewState := (h.members .viewState (by simp)).trans hs.viewState
  imgData := h.imgData hs.imgData
  canvas := (h.members .canvas (by simp)).trans hs.canvas
  northUp := (h.members .northUp (by simp)).trans hs.northUp
  timer := by
    change _ = if _ then _ else if u.frame.life = _ then _ else _
    rw [h.life]
    exact (h.members .timer (by simp)).trans hs.timer

theorem Typestate.closed {u : Scene} (hs : s.Typestate) (h : Closed s.scene u) :
    FrameLife.Typestate { s with scene := u } where
  once := hs.once
  life := by
    have ht := Ptr.isLive_iff_misuse?.mp h.timer
    rw [hs.timer] at ht
    refine .inr ⟨?_, by rw [h.frame]⟩
    intro hmem
    simp [hmem] at ht
  viewState := by
    rw [h.frame]
    exact hs.viewState
  imgData := by
    rw [h.frame]
    exact hs.imgData
  canvas := by
    rw [h.frame]
    exact hs.canvas
  northUp := by
    rw [h.frame]
    exact hs.northUp
  timer := by
    have ht := Ptr.isLive_iff_misuse?.mp h.timer
    rw [hs.timer] at ht
    have hmem : CreateStmt.newTimer ∉ s.todo := by
      intro hmem
      simp [hmem] at ht
    simp [h.frame, hmem]

theorem exec_kept {c : CreateStmt} {u v : Scene} (h : c.exec build u = .ok v)
    (hc : c ≠ .newCanvas ∧ c ≠ .newNorthUp ∧ c ≠ .newTimer) (hfit : c ≠ .myFit) : Kept u v := by
  cases c with
  | layout =>
    cases h
    exact .refl u
  | useCanvas | useNorthUp =>
    obtain ⟨x, -, h⟩ := bind_eq_ok.mp h
    cases h
    exact .refl u
  | setNorthUp =>
    obtain ⟨x, hx, h⟩ := bind_eq_ok.mp h
    cases h
    have hx := Ptr.use_eq_ok.mp hx
    refine Kept.of_data rfl rfl (fun m => ?_) rfl
    cases m <;> simp [SonarFrame.misuse?, hx]
  | startTimer =>
    obtain ⟨x, hx, h⟩ := bind_eq_ok.mp h
    cases h
    have hx := Ptr.use_eq_ok.mp hx
    refine Kept.of_data rfl rfl (fun m => ?_) (by simp [SonarFrame.handles, hx])
    cases m <;> simp [SonarFrame.misuse?, hx]
  | newCanvas => exact absurd rfl hc.1
  | newNorthUp => exact absurd rfl hc.2.1
  | newTimer => exact absurd rfl hc.2.2
  | myFit => exact absurd rfl hfit

theorem Typestate.note (c : Call) (hs : s.Typestate) :
    FrameLife.Typestate { s with scene := s.scene.note c } :=
  ⟨hs.once, hs.life, hs.viewState, hs.imgData, hs.canvas, hs.northUp, hs.timer⟩

theorem Typestate.advance {c : CreateStmt} {rest : List CreateStmt} (hs : s.Typestate)
    (htodo : s.todo = c :: rest) (hc : c ≠ .newCanvas ∧ c ≠ .newNorthUp ∧ c ≠ .newTimer) :
    FrameLife.Typestate { s with todo := rest } := by
  have hmem (d : CreateStmt) (hd : c ≠ d) : d ∈ rest ↔ d ∈ s.todo := by
    simp [htodo, hd.symm]
  have hcount (d : CreateStmt) : rest.count d ≤ s.todo.count d := by
    rw [htodo]
    exact List.count_le_count_cons
  exact
    { once := fun d hd => (hcount d).trans (hs.once d hd)
      life := by simpa only [hmem _ hc.2.2] using hs.life
      viewState := hs.viewState
      imgData := hs.imgData
      canvas := by simpa only [hmem _ hc.1] using hs.canvas
      northUp := by simpa only [hmem _ hc.2.1] using hs.northUp
      timer := by simpa only [hmem _ hc.2.2] using hs.timer }

theorem Typestate.statement {c : CreateStmt} {rest : List CreateStmt} {u : Scene}
    (hs : s.Typestate) (htodo : s.todo = c :: rest) (h : c.exec build s.scene = .ok u) :
    FrameLife.Typestate { s with scene := u, todo := rest } := by
  by_cases hc : c ≠ .newCanvas ∧ c ≠ .newNorthUp ∧ c ≠ .newTimer
  · by_cases hfit : c = .myFit
    · subst hfit
      cases h
      exact (hs.advance htodo hc).note _
    · exact (hs.advance htodo hc).handled (exec_kept h hc hfit)
  have hmem (d : CreateStmt) (hd : d ≠ c) : d ∈ rest ↔ d ∈ s.todo := by
    simp [htodo, hd]
  have hlast (hc : c = .newCanvas ∨ c = .newNorthUp ∨ c = .newTimer) : c ∉ rest := by
    have hcount := hs.once c hc
    rw [htodo, List.count_cons_self] at hcount
    apply List.count_eq_zero.mp
    omega
  have hcount (d : CreateStmt) : rest.count d ≤ s.todo.count d := by
    rw [htodo]
    exact List.count_le_count_cons
  have honce (d : CreateStmt) (hd : d = .newCanvas ∨ d = .newNorthUp ∨ d = .newTimer) :
      rest.count d ≤ 1 := (hcount d).trans (hs.once d hd)
  cases c with
  | newCanvas =>
    obtain ⟨v, -, h⟩ := bind_eq_ok.mp h
    cases h
    exact
      { once := honce
        life := by simpa only [hmem .newTimer (by simp), Scene.note_frame] using hs.life
        viewState := hs.viewState
        imgData := hs.imgData
        canvas := by simp [hlast (.inl rfl)]
        northUp := by simpa only [hmem .newNorthUp (by simp), Scene.note_frame] using hs.northUp
        timer := by
          have htimer := hs.timer
          simp only [← hmem .newTimer (by simp)] at htimer
          exact htimer }
  | newNorthUp =>
    cases h
    exact
      { once := honce
        life := by simpa only [hmem .newTimer (by simp)] using hs.life
        viewState := hs.viewState
        imgData := hs.imgData
        canvas := by simpa only [hmem .newCanvas (by simp)] using hs.canvas
        northUp := by simp [hlast (.inr (.inl rfl))]
        timer := by simpa only [hmem .newTimer (by simp)] using hs.timer }
  | newTimer =>
    cases h
    have hlife : s.scene.frame.life = .created := by
      obtain hlife | ⟨hmem, -⟩ := hs.life
      · exact hlife
      · simp [htodo] at hmem
    exact
      { once := honce
        life := .inl hlife
        viewState := hs.viewState
        imgData := hs.imgData
        canvas := by simpa only [hmem .newCanvas (by simp)] using hs.canvas
        northUp := by simpa only [hmem .newNorthUp (by simp)] using hs.northUp
        timer := by simp [hlast (.inr (.inr rfl)), hlife] }
  | _ => simp at hc

theorem step_typestate {e : LifeEvent} (hs : s.Typestate) (he : s.allows e = true)
    (h : step build e s = .ok t) : t.Typestate := by
  cases e with
  | statement =>
    dsimp only [step] at h
    split at h
    next =>
      cases h
      exact hs
    next c rest htodo =>
      obtain ⟨u, hu, h⟩ := bind_eq_ok.mp h
      cases h
      exact hs.statement htodo hu
  | event e =>
    obtain ⟨u, hu, h⟩ := bind_eq_ok.mp h
    cases h
    by_cases hclose : e = .close
    · subst hclose
      exact hs.closed (onClose_ok hu)
    · refine hs.handled (handle_kept hu hclose ?_)
      rintro cs dilg1 rfl
      simp [allows, FrameEvent.isLife] at he
  | deletion =>
    cases h
    exact ⟨hs.once, hs.life, hs.viewState, hs.imgData, hs.canvas, hs.northUp, hs.timer⟩

theorem Typestate.timer_isLive (hs : s.Typestate) :
    s.scene.frame.timer.isLive = true ↔ s.HasTimer := by
  rw [Ptr.isLive_iff_misuse?, hs.timer, HasTimer]
  obtain hlife | ⟨hmem, hlife⟩ := hs.life
  · by_cases hmem : CreateStmt.newTimer ∈ s.todo <;> simp [hmem, hlife]
  · simp [hmem, hlife]

theorem Typestate.canvas_cases (hs : s.Typestate) :
    (.newCanvas ∈ s.todo ∧ s.scene.frame.pCanvas = .null) ∨
      .newCanvas ∉ s.todo ∧ ∃ c, s.scene.frame.pCanvas = .live c := by
  have hc := hs.canvas
  by_cases hmem : CreateStmt.newCanvas ∈ s.todo
  · refine .inl ⟨hmem, ?_⟩
    cases hp : s.scene.frame.pCanvas with
    | null => rfl
    | _ => simp [hp, hmem] at hc
  · refine .inr ⟨hmem, ?_⟩
    rw [if_neg hmem, ← Ptr.isLive_iff_misuse?] at hc
    exact Ptr.isLive_iff.mp hc

theorem handle_total (build : Build) {e : FrameEvent} (hs : s.Typestate) (he : s.allows (.event e) = true)
    (hn : s.NeedsTimer e → s.HasTimer) : ∃ u, e.handle build s.scene = .ok u := by
  obtain ⟨v, hv⟩ := Ptr.isLive_iff.mp (Ptr.isLive_iff_misuse?.mpr hs.viewState)
  rw [← hs.timer_isLive] at hn
  simp only [allows, Bool.and_eq_true] at he
  obtain ⟨⟨-, hlife⟩, he⟩ := he
  cases e with
  | move p => exact ⟨_, by rw [FrameEvent.handle, Scene.onMove, hv]; rfl⟩
  | size client window disk =>
    obtain ⟨-, hc⟩ | ⟨hmem, c, hc⟩ := hs.canvas_cases
    · exact ⟨s.scene, by rw [FrameEvent.handle, Scene.onSize, hc]⟩
    · obtain ⟨t, ht⟩ := render_total build disk
        (s := { s.scene with
          frame.pViewState := .live ⟨v.handle, v.value.record build.platform client window⟩ })
        (hn hmem) (Ptr.isLive_iff.mpr ⟨c, hc⟩) hs.imgData
      refine ⟨t, ?_⟩
      rw [FrameEvent.handle, Scene.onSize, hc, hv]
      exact ht
  | paint disk =>
    obtain ⟨t, ht⟩ := render_total build disk
      (s := { s.scene with frame.repaintDue := false }) (hn trivial) he hs.imgData
    obtain ⟨c, hc⟩ := Ptr.isLive_iff.mp he
    refine ⟨t, ?_⟩
    rw [FrameEvent.handle, Scene.paintEvent, hc]
    exact ht
  | timer => exact ⟨_, rfl⟩
  | northUp value =>
    obtain ⟨b, hb⟩ := Ptr.isLive_iff.mp he
    exact ⟨_, by rw [FrameEvent.handle, Scene.checkNorthUp, hb]; rfl⟩
  | close => exact onClose_total (hn trivial) (Ptr.isLive_iff.mpr ⟨v, hv⟩)
  | _ => cases hlife

theorem handle_fault (build : Build) {e : FrameEvent} (hs : s.Typestate) (he : s.allows (.event e) = true)
    (hn : s.NeedsTimer e) (ht : ¬ s.HasTimer) :
    ∃ site x, e.handle build s.scene = .error (.member s.scene.frame.this site .timer x) := by
  obtain ⟨v, hv⟩ := Ptr.isLive_iff.mp (Ptr.isLive_iff_misuse?.mpr hs.viewState)
  obtain ⟨x, hx⟩ : ∃ x, s.scene.frame.timer.misuse? = some x := by
    cases hx : s.scene.frame.timer.misuse? with
    | none => exact absurd (hs.timer_isLive.mp (Ptr.isLive_iff_misuse?.mpr hx)) ht
    | some x => exact ⟨x, rfl⟩
  simp only [allows, Bool.and_eq_true] at he
  cases e with
  | size client window disk =>
    obtain ⟨hmem, -⟩ | ⟨-, c, hc⟩ := hs.canvas_cases
    · exact absurd hmem hn
    · refine ⟨.render, x, ?_⟩
      rw [FrameEvent.handle, Scene.onSize, hc, hv]
      exact render_fault hx
  | paint disk =>
    obtain ⟨c, hc⟩ := Ptr.isLive_iff.mp he.2
    refine ⟨.render, x, ?_⟩
    rw [FrameEvent.handle, Scene.paintEvent, hc]
    exact render_fault hx
  | close => exact ⟨.onClose, x, onClose_fault hx⟩
  | _ => exact hn.elim

theorem exec_log {c : CreateStmt} {u v : Scene} (h : c.exec build u = .ok v) :
    v.frame.this = u.frame.this ∧ v.frame.life = u.frame.life ∧
      ∀ i, v.app.log.count (.deleteTimer i) = u.app.log.count (.deleteTimer i) := by
  cases c with
  | layout | newNorthUp | newTimer =>
    cases h
    exact ⟨rfl, rfl, fun _ => rfl⟩
  | newCanvas =>
    obtain ⟨x, -, h⟩ := bind_eq_ok.mp h
    cases h
    exact ⟨rfl, rfl, fun i => List.count_cons_of_ne (by simp)⟩
  | myFit =>
    cases h
    exact ⟨rfl, rfl, fun i => List.count_cons_of_ne (by simp)⟩
  | useCanvas | setNorthUp | useNorthUp | startTimer =>
    obtain ⟨x, -, h⟩ := bind_eq_ok.mp h
    cases h
    exact ⟨rfl, rfl, fun _ => rfl⟩

theorem kept_deletions {u v : Scene} (h : Kept u v) (i : FrameId) :
    v.app.log.count (.deleteTimer i) = u.app.log.count (.deleteTimer i) := by
  obtain ⟨calls, hlog, hcalls⟩ := h.log
  have hnot : Call.deleteTimer i ∉ calls := by
    intro hmem
    cases hcalls _ hmem
  rw [hlog, List.count_append, List.count_eq_zero.mpr hnot, Nat.zero_add]

theorem step_timerDeletions {e : LifeEvent} {n : Nat} (hs : s.Typestate)
    (he : s.allows e = true) (h : step build e s = .ok t)
    (hn : s.timerDeletions = n + if s.scene.frame.life = .closed then 1 else 0) :
    t.timerDeletions = n + if t.scene.frame.life = .closed then 1 else 0 := by
  cases e with
  | statement =>
    dsimp only [step] at h
    split at h
    next =>
      cases h
      exact hn
    next c rest htodo =>
      obtain ⟨u, hu, h⟩ := bind_eq_ok.mp h
      cases h
      obtain ⟨hthis, hlife, hcount⟩ := exec_log hu
      unfold timerDeletions at hn ⊢
      dsimp only
      rw [hthis, hlife, hcount, hn]
  | event e =>
    obtain ⟨u, hu, h⟩ := bind_eq_ok.mp h
    cases h
    unfold timerDeletions at hn ⊢
    dsimp only
    by_cases hclose : e = .close
    · subst hclose
      have hc := onClose_ok hu
      have hlife : s.scene.frame.life = .created := (hs.timer_isLive.mp hc.timer).2
      rw [hlife] at hn
      have hsaves : (App.saves u.app.pi).count (.deleteTimer s.scene.frame.this) = 0 := by
        apply List.count_eq_zero.mpr
        intro hmem
        cases App.eq_of_mem_saves hmem
      rw [hc.frame, hc.log, List.count_append, List.count_append, hsaves]
      simp [hn, add_comm]
    · have hk : Kept s.scene u := by
        refine handle_kept hu hclose ?_
        rintro cs dilg1 rfl
        simp [allows, FrameEvent.isLife] at he
      rw [hk.this, hk.life, kept_deletions hk, hn]
  | deletion =>
    cases h
    exact hn

end

end FrameLife

/-- At every point of a frame's life an event is handled without the use of a
null or deleted member exactly if it needs no timer or comes between the creation
of the timer and the close event. It is the timer alone that is misused, and
it is never deleted twice. -/
theorem handler_safe_iff (env : Env) {i : FrameId} {pos : Point Int32} {size : Size Int32}
    {a : App} {es : List LifeEvent} {s : FrameLife}
    (h : (lifeCycle env.build).Run (FrameLife.start env i pos size a) es s) :
    (∀ e, (lifeCycle env.build).allowed s (.event e) →
        ((∃ u, e.handle env.build s.scene = .ok u) ↔ (s.NeedsTimer e → s.HasTimer)) ∧
        ∀ x, e.handle env.build s.scene = .error x →
          ∃ site m, x = .member s.scene.frame.this site .timer m) ∧
      s.timerDeletions ≤ (FrameLife.start env i pos size a).timerDeletions + 1 := by
  obtain ⟨hs, hn⟩ : s.Typestate ∧ s.timerDeletions =
      (FrameLife.start env i pos size a).timerDeletions +
        if s.scene.frame.life = .closed then 1 else 0 := by
    refine h.invariant (fun s => s.Typestate ∧ s.timerDeletions = _ +
      if s.scene.frame.life = .closed then 1 else 0) ⟨FrameLife.start_typestate .., rfl⟩ ?_
    rintro t e u ⟨ht, hn⟩ he hstep
    exact ⟨FrameLife.step_typestate ht he hstep, FrameLife.step_timerDeletions ht he hstep hn⟩
  refine ⟨fun e he => ⟨⟨?_, FrameLife.handle_total _ hs he⟩, ?_⟩, ?_⟩
  · rintro ⟨u, hu⟩ hneeds
    by_contra ht
    obtain ⟨site, x, hx⟩ := FrameLife.handle_fault env.build hs he hneeds ht
    rw [hx] at hu
    cases hu
  · intro x hx
    have hneeds : s.NeedsTimer e ∧ ¬ s.HasTimer := by
      by_contra hnot
      obtain ⟨u, hu⟩ := FrameLife.handle_total env.build hs he (by tauto)
      rw [hu] at hx
      cases hx
    obtain ⟨site, m, hm⟩ := FrameLife.handle_fault env.build hs he hneeds.1 hneeds.2
    rw [hm] at hx
    cases hx
    exact ⟨site, m, rfl⟩
  · rw [hn]
    split <;> omega

def FrameLife.desktop : FrameLife :=
  .start .desktop 0 ⟨50, 170⟩ ⟨300, 300⟩ (World.blank .desktop).toApp

theorem paint_safe_after_create :
    ∃ s, (lifeCycle Env.desktop.build).Run .desktop (createBody.map fun _ => .statement) s ∧
      ∃ u, (FrameEvent.paint fun _ => ⟨1, 1⟩).handle Env.desktop.build s.scene = .ok u := by
  obtain ⟨s, hrun, hp⟩ := System.exists_run_of_exec (lifeCycle Env.desktop.build) .desktop
    (createBody.map fun _ => .statement)
    (fun s => !s.deleted && s.scene.frame.pCanvas.isLive && s.todo.isEmpty &&
      decide (s.scene.frame.life = .created)) (by decide +kernel)
  simp only [Bool.and_eq_true, decide_eq_true_eq, List.isEmpty_iff, Bool.not_eq_true'] at hp
  obtain ⟨⟨⟨hd, hc⟩, ht⟩, hl⟩ := hp
  have hsafe := handler_safe_iff .desktop hrun
  have hallowed : (lifeCycle Env.desktop.build).allowed s (.event (.paint fun _ => ⟨1, 1⟩)) := by
    simp [lifeCycle, FrameLife.allows, FrameEvent.isLife, hc, hd]
  refine ⟨s, hrun, (hsafe.1 _ hallowed).1.mpr fun _ => ⟨?_, hl⟩⟩
  simp [ht]

theorem size_faults_before_timer :
    ∃ s, (lifeCycle Env.desktop.build).Run .desktop (List.replicate 8 .statement) s ∧
      (lifeCycle Env.desktop.build).allowed s (.event (.size ⟨280, 280⟩ ⟨300, 300⟩ fun _ => ⟨1, 1⟩)) ∧
      ∀ u, (FrameEvent.size ⟨280, 280⟩ ⟨300, 300⟩ fun _ => ⟨1, 1⟩).handle Env.desktop.build s.scene ≠
        .ok u := by
  let e : FrameEvent := .size ⟨280, 280⟩ ⟨300, 300⟩ fun _ => ⟨1, 1⟩
  obtain ⟨s, hrun, hp⟩ := System.exists_run_of_exec (lifeCycle Env.desktop.build) .desktop
    (List.replicate 8 .statement)
    (fun s => s.allows (.event e) && !(e.handle Env.desktop.build s.scene).isOk) (by decide +kernel)
  simp only [Bool.and_eq_true, Bool.not_eq_true'] at hp
  refine ⟨s, hrun, hp.1, fun u hu => ?_⟩
  have hok : (e.handle Env.desktop.build s.scene).isOk = true := by
    rw [hu]
    rfl
  simp [hp.2] at hok

end SonarPlugin
