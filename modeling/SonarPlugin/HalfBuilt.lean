import SonarPlugin.WellFormed

namespace SonarPlugin

open Library

def Call.concerns (i : FrameId) : Call → Bool
  | .onClose j | .refresh j | .setColourScheme j _ | .showFrame j => j = i
  | _ => false

/-- The entry points that trust `m_pSonarFrame`. -/
def Event.trustsPointer : Event → Bool
  | .toolbar _ | .deInit | .aisSentence _ | .positionFix _ | .colorScheme .. => true
  | e => e.mayToggle

/-- No later call works on frame `i`, not even an `OnClose` that faults. -/
def World.LeavesAlone (env : Env) (i : FrameId) (w : World) : Prop :=
  ∀ es v, ((hosted env).restrict fun _ e => e.trustsPointer = true).Run w es v →
    v.log.countP (Call.concerns i) = w.log.countP (Call.concerns i) ∧
      ∀ e, (hosted env).allowed v e → e.trustsPointer = true →
        ∀ m x, World.step env e v ≠ .error (.member i .onClose m x)

/-- A toggle whose `Create` fails leaves the plug-in as it was. -/
def World.FailsAtomically (env : Env) (w : World) : Prop :=
  ∃ w', w.toggleSonarFrame env = .ok w' ∧ w'.pi.pSonarFrame = none ∧
    w'.pi.toSettings = w.pi.toSettings ∧ w'.LeavesAlone env w.nextFrame

section

variable {env : Env} {w w' : World}

theorem failed_create (hp : w.pi.pSonarFrame = none)
    (hfail : env.dialogOk w.nextFrame = false) (h : w.toggleSonarFrame env = .ok w') :
    w'.pi = { w.pi with pSonarFrame := some w.nextFrame } ∧ w'.host = w.host ∧
      ∃ f, w'.frames w.nextFrame = some f ∧ f.this = w.nextFrame ∧
        f.timer = .null ∧ f.pCanvas = .null ∧ f.pNorthUp = .null := by
  obtain ⟨-, s, hnew, rfl⟩ | ⟨i, f, s, hp', -⟩ := toggle_cases h
  · exact ⟨hnew.pi, hnew.host, s.frame, put_frames_self w w.nextFrame s, hnew.this,
      hnew.halfBuilt hfail⟩
  · simp [hp] at hp'

theorem halfBuilt_onClose {i : FrameId} {f : SonarFrame} (hf : w.frames i = some f)
    (hthis : f.this = i) (ht : f.timer = .null) :
    w.onFrame i Scene.onClose = .error (.member i .onClose .timer .null) := by
  simp only [World.onFrame, hf]
  rw [onClose_fault (x := .null) (by simp [ht]), hthis]
  rfl

theorem halfBuilt_toggle {i : FrameId} {f : SonarFrame} (hp : w.pi.pSonarFrame = some i)
    (hf : w.frames i = some f) (hthis : f.this = i) (ht : f.timer = .null) :
    w.toggleSonarFrame env = .error (.member i .onClose .timer .null) := by
  simp only [World.toggleSonarFrame, App.note, hp]
  exact halfBuilt_onClose hf hthis ht

theorem halfBuilt_deInit {i : FrameId} {f : SonarFrame} (hp : w.pi.pSonarFrame = some i)
    (hf : w.frames i = some f) (hthis : f.this = i) (ht : f.timer = .null) :
    w.deInit = .error (.member i .onClose .timer .null) := by
  simp only [World.deInit, World.onSonarFrame, hp]
  exact halfBuilt_onClose hf hthis ht

theorem failed_create_pointer (hw : w.WellFormed) (ho : ∀ i, ¬ w.IsOpen i)
    (hfail : env.dialogOk w.nextFrame = false) : ¬ w.FailsAtomically env := by
  rintro ⟨w', h, hnull, -, -⟩
  obtain ⟨hpi, -⟩ := failed_create (hw.pointer_none ho) hfail h
  rw [hpi] at hnull
  cases hnull

theorem failed_create_touched (hw : w.WellFormed) (ho : ∀ i, ¬ w.IsOpen i)
    (hfail : env.dialogOk w.nextFrame = false) (hs : w.host.initialised = true)
    (halive : w.host.alive = true) (h : w.toggleSonarFrame env = .ok w') :
    ¬ w'.LeavesAlone env w.nextFrame := by
  intro halone
  obtain ⟨hpi, hhost, f, hf, hthis, ht, -⟩ := failed_create (hw.pointer_none ho) hfail h
  have hp : w'.pi.pSonarFrame = some w.nextFrame := by rw [hpi]
  have hallowed : (hosted env).allowed w' .deInit := by
    constructor
    · simp [machine, World.allows, hhost, halive]
    · change w'.host.initialised = true
      rw [hhost, hs]
  refine (halone [] w' .nil).2 .deInit hallowed rfl .timer .null ?_
  simp only [World.step, halfBuilt_deInit hp hf hthis ht]
  rfl

end

/-- In no reachable state without an open frame does a failed `Create` leave
the pointer null, and in a session the next calls run on the half-built frame. -/
theorem failed_create_never_atomic {env : Env} {config : FileConfig} {dilg1 : Colour}
    {es : List Event} {w : World}
    (h : (hosted env).Run (World.construct env config dilg1) es w)
    (ho : ∀ i, ¬ w.IsOpen i) (hfail : env.dialogOk w.nextFrame = false) :
    ¬ w.FailsAtomically env ∧
      (w.host.initialised = true → w.host.alive = true →
        ∀ w', w.toggleSonarFrame env = .ok w' → ¬ w'.LeavesAlone env w.nextFrame) := by
  have hw := run_wellFormed h.of_restrict
  exact ⟨failed_create_pointer hw ho hfail, fun hs ha _ => failed_create_touched hw ho hfail hs ha⟩

def Env.exhausted : Env := { Env.desktop with dialogOk := fun _ => false }

theorem exists_exhausted_session :
    ∃ w, (hosted .exhausted).Run (World.blank .exhausted) [.init true] w ∧
      ∀ i, ¬ w.IsOpen i := by
  obtain ⟨w, hrun, hn⟩ := System.exists_run_of_exec (hosted .exhausted)
    (World.blank .exhausted) [.init true] (fun w => w.nextFrame = 0) (by decide +kernel)
  refine ⟨w, hrun, ?_⟩
  rintro i ⟨f, hf, -⟩
  rw [(run_wellFormed hrun.of_restrict).fresh i (by simp [of_decide_eq_true hn])] at hf
  cases hf

theorem first_create_fails :
    ∃ w, (hosted .exhausted).Run (World.blank .exhausted) [.init true] w ∧
      (∀ i, ¬ w.IsOpen i) ∧ Env.exhausted.dialogOk w.nextFrame = false ∧
      ¬ w.FailsAtomically .exhausted := by
  obtain ⟨w, hrun, ho⟩ := exists_exhausted_session
  exact ⟨w, hrun, ho, rfl, failed_create_pointer (run_wellFormed hrun.of_restrict) ho rfl⟩

theorem first_create_never_atomic :
    ∃ w : World, ¬ w.FailsAtomically .exhausted := by
  obtain ⟨w, hrun, ho⟩ := exists_exhausted_session
  exact ⟨w, (failed_create_never_atomic hrun ho rfl).1⟩

end SonarPlugin
