import SonarPlugin.HalfBuilt
import SonarPlugin.OwnEvents
import SonarPlugin.Ownership

namespace SonarPlugin

open Library

def Call.frame? : Call → Option FrameId
  | .create i .. | .dialogCreate i .. | .newCanvas i _ | .fit i _ | .showFrame i | .refresh i
  | .setColourScheme i _ | .onClose i | .deleteTimer i => some i
  | _ => none

/-- How far the calls on one frame have got. A frame is shown half-built if
its window could not be created. -/
inductive Phase
  | unborn
  | constructed
  | dialog
  | canvas
  | fitted
  | halfBuilt
  | shown
  | closing
  | closed
deriving DecidableEq

def Phase.next : Phase → Call → Option Phase
  | .unborn, .create .. => some .constructed
  | .constructed, .dialogCreate .. => some .dialog
  | .dialog, .newCanvas .. => some .canvas
  | .dialog, .showFrame _ => some .halfBuilt
  | .canvas, .fit .. => some .fitted
  | .fitted, .showFrame _ => some .shown
  | .halfBuilt, .refresh _ | .halfBuilt, .setColourScheme .. => some .halfBuilt
  | .shown, .refresh _ | .shown, .setColourScheme .. => some .shown
  | .shown, .onClose _ => some .closing
  | .closing, .deleteTimer _ => some .closed
  | .closed, .refresh _ => some .closed
  | _, _ => none

def Phase.nextOf (i : FrameId) (p : Phase) (c : Call) : Option Phase :=
  if c.frame? = some i then p.next c else some p

def phaseAfter (i : FrameId) (log : List Call) : Option Phase := reached (Phase.nextOf i) .unborn log

def Life.phase : Life → Phase
  | .raw => .halfBuilt
  | .created => .shown
  | .closed => .closed

/-- The phase that a frame's existence and window show. -/
def World.phase (w : World) (i : FrameId) : Phase :=
  if w.nextFrame ≤ i then .unborn else (w.frames i).elim .closed fun f => f.life.phase

def World.Scripted (w : World) : Prop := ∀ i, phaseAfter i w.log = some (w.phase i)

def Unframed (a b : App) : Prop := ∃ calls, b.log = calls ++ a.log ∧ ∀ c ∈ calls, c.frame? = none

section

variable {env : Env} {build : Build} {w w' : World} {i : FrameId} {f : SonarFrame} {s t : Scene}
  {a b : App} {p q : Phase} {c : Call} {log : List Call}

theorem nextOf_other (h : c.frame? ≠ some i) : p.nextOf i c = some p := if_neg h

theorem nextOf_self (h : c.frame? = some i) : p.nextOf i c = p.next c := if_pos h

theorem phaseAfter_cons (h : phaseAfter i log = some p) (hc : c.frame? = some i)
    (hnext : p.next c = some q) : phaseAfter i (c :: log) = some q := by
  rw [← hnext, ← nextOf_self hc]
  exact reached_cons h

theorem Unframed.trans {d : App} (h : Unframed a b) (h' : Unframed b d) : Unframed a d :=
  prepended_trans h h'

theorem Unframed.phaseAfter (h : Unframed a b) (hp : phaseAfter i a.log = some p) :
    phaseAfter i b.log = some p := by
  obtain ⟨calls, hlog, hcalls⟩ := h
  rw [hlog]
  apply reached_append hp
  intro c hc
  apply nextOf_other
  simp [hcalls c hc]

theorem Unframed.scripted (h : Unframed w.toApp a) (hw : w.Scripted) :
    World.Scripted { w with toApp := a } :=
  fun i => h.phaseAfter (hw i)

theorem deleteSonarTargets_unframed (h : a.deleteSonarTargets = .ok b) : Unframed a b := by
  unfold App.deleteSonarTargets at h
  split at h
  · cases h
    exact ⟨[], rfl, by simp⟩
  · cases h
    exact ⟨[_], rfl, by simp [Call.frame?]⟩
  · cases h

theorem getAISTargetArray_unframed (answer : Bool) (a : App) :
    Unframed a (a.getAISTargetArray answer) := by
  unfold App.getAISTargetArray
  split <;> exact ⟨[_], rfl, by simp [Call.frame?]⟩

theorem getSonarTargets_unframed {answer : Bool} (h : a.getSonarTargets answer = .ok b) :
    Unframed a b := by
  obtain ⟨d, hd, h⟩ := bind_eq_ok.mp h
  cases h
  exact (deleteSonarTargets_unframed hd).trans (getAISTargetArray_unframed answer d)

theorem init_unframed {answer : Bool} (h : a.init env answer = .ok b) : Unframed a b := by
  unfold App.init at h
  obtain ⟨d, hd, h⟩ := bind_eq_ok.mp h
  cases h
  have hload (a : App) : a.loadConfig.2.log = a.log := by
    unfold App.loadConfig
    split <;> rfl
  have hdelete : Unframed a d := by
    obtain ⟨calls, hlog, hcalls⟩ := deleteSonarTargets_unframed hd
    rw [hload] at hlog
    exact ⟨calls, hlog, hcalls⟩
  refine Unframed.trans ?_ (getAISTargetArray_unframed answer _)
  apply hdelete.trans
  dsimp only
  split <;> exact ⟨[], rfl, by simp⟩

theorem destroy_unframed (h : a.destroy = .ok b) : Unframed a b := by
  obtain ⟨d, hd, h⟩ := bind_eq_ok.mp h
  cases h
  obtain ⟨calls, hlog, hcalls⟩ := deleteSonarTargets_unframed hd
  exact ⟨calls, hlog, hcalls⟩

theorem phase_put_of_ne {j : FrameId} (s : Scene) (h : j ≠ i) : (w.put i s).phase j = w.phase j := by
  unfold World.phase
  rw [put_frames_of_ne w s h]
  rfl

theorem phase_put_self (hi : i < w.nextFrame) (s : Scene) :
    (w.put i s).phase i = s.frame.life.phase := by
  have hnot : ¬ (w.put i s).nextFrame ≤ i := Nat.not_le_of_lt hi
  unfold World.phase
  rw [put_frames_self, if_neg hnot]
  rfl

theorem phase_of_frame (hi : i < w.nextFrame) (hf : w.frames i = some f) :
    w.phase i = f.life.phase := by
  unfold World.phase
  rw [hf, if_neg (Nat.not_le_of_lt hi)]
  rfl

theorem phase_deleted (hi : i < w.nextFrame) (hf : w.frames i = some f) (hlife : f.life = .closed)
    (j : FrameId) :
    World.phase { w with frames := Function.update w.frames i none } j = w.phase j := by
  by_cases hj : j = i
  · subst hj
    have hnot : ¬ w.nextFrame ≤ j := Nat.not_le_of_lt hi
    rw [phase_of_frame hi hf, hlife]
    simp [World.phase, hnot, Life.phase]
  · simp [World.phase, hj]

theorem put_scripted {calls : List Call} (hw : w.Scripted) (hi : i < w.nextFrame)
    (hlog : s.app.log = calls ++ w.log) (hcalls : ∀ c ∈ calls, ∀ j, c.frame? = some j → j = i)
    (hself : phaseAfter i (calls ++ w.log) = some s.frame.life.phase) : (w.put i s).Scripted := by
  intro j
  change phaseAfter j s.app.log = _
  rw [hlog]
  by_cases hj : j = i
  · subst hj
    rw [phase_put_self hi]
    exact hself
  · rw [phase_put_of_ne s hj]
    apply reached_append (hw j)
    intro c hc
    apply nextOf_other
    intro hframe
    exact hj (hcalls c hc j hframe)

/-- A handler that makes no calls on frames but requests to repaint its own. -/
def Requests (s t : Scene) : Prop :=
  t.frame.life = s.frame.life ∧ ∃ calls, t.app.log = calls ++ s.app.log ∧
    ∀ c ∈ calls, c.frame? = none ∨ c = .refresh s.frame.this

theorem Requests.scripted (h : Requests ⟨f, w.toApp⟩ s) (hw : w.Scripted) (hi : i < w.nextFrame)
    (hf : w.frames i = some f) (hthis : f.this = i) : (w.put i s).Scripted := by
  obtain ⟨hlife, calls, hlog, hcalls⟩ := h
  subst hthis
  refine put_scripted hw hi hlog (fun c hc j hj => ?_) ?_
  · obtain hnone | rfl := hcalls c hc
    · simp [hnone] at hj
    · exact (Option.some.inj hj).symm
  · rw [hlife]
    have hphase := hw f.this
    rw [phase_of_frame hi hf] at hphase
    apply reached_append hphase
    intro c hc
    obtain hnone | rfl := hcalls c hc
    · apply nextOf_other
      simp [hnone]
    · rw [nextOf_self rfl]
      cases f.life <;> rfl

theorem Rendered.requests {disk : String → Bitmap} (h : Rendered build disk s t) : Requests s t := by
  refine ⟨by rw [h.frame], [_], h.log, ?_⟩
  simp [Scene.rescaleCall, Call.frame?]

theorem Steered.requests (h : Steered s t) : Requests s t := by
  obtain ⟨calls, hlog, hcalls⟩ := h.log
  exact ⟨by rw [h.frame], calls, hlog, fun c hc => .inr (hcalls c hc)⟩

theorem handle_requests {e : FrameEvent} (hclose : e ≠ .close)
    (hcolours : ∀ cs dilg1, e ≠ .colours cs dilg1) (h : e.handle build s = .ok t) :
    Requests s t := by
  cases e with
  | close => exact absurd rfl hclose
  | colours cs dilg1 => exact absurd rfl (hcolours cs dilg1)
  | move p =>
    obtain ⟨v, -, rfl⟩ := onMove_ok h
    exact ⟨rfl, [], rfl, by simp⟩
  | size client window disk =>
    obtain ⟨-, rfl⟩ | ⟨v, -, -, hr⟩ := onSize_ok h
    · exact ⟨rfl, [], rfl, by simp⟩
    · exact hr.requests
  | paint disk => exact (paintEvent_ok h).2.requests
  | northUp value =>
    obtain ⟨-, ebl, rfl⟩ := checkNorthUp_ok h
    exact ⟨rfl, [_], rfl, by simp⟩
  | _ => exact (handle_steered rfl h).requests

theorem closed_scripted (h : Closed ⟨f, w.toApp⟩ s) (hw : w.Scripted) (hwf : w.WellFormed)
    (hn : w.Numbered) (hf : w.frames i = some f) : (w.put i s).Scripted := by
  have hi := hwf.lt_nextFrame hf
  have hthis := (hn i f hf).1
  subst hthis
  have hlife : f.life = .created := (hwf.sound _ f hf).life_of_timer h.timer
  refine put_scripted hw hi h.log (fun c hmem j hj => ?_) ?_
  · obtain hsave | hclose := List.mem_append.mp hmem
    · rw [App.eq_of_mem_saves hsave] at hj
      cases hj
    · simp only [List.mem_cons, List.not_mem_nil, or_false] at hclose
      obtain rfl | rfl | rfl := hclose
      · cases hj
      · exact (Option.some.inj hj).symm
      · exact (Option.some.inj hj).symm
  · have hphase := hw f.this
    rw [phase_of_frame hi hf, hlife] at hphase
    have hclosing : phaseAfter f.this (.onClose f.this :: w.log) = some .closing :=
      phaseAfter_cons hphase rfl rfl
    have hclosed : phaseAfter f.this (.deleteTimer f.this :: .onClose f.this :: w.log) =
        some .closed := phaseAfter_cons hclosing rfl rfl
    rw [h.frame, List.append_assoc]
    refine reached_append ((reached_cons hclosed).trans (nextOf_other (by simp [Call.frame?]))) _ ?_
    intro c hc
    rw [App.eq_of_mem_saves hc]
    exact nextOf_other (by simp [Call.frame?])

theorem opened_phaseAfter (env : Env) (hw : phaseAfter w.nextFrame w.log = some .unborn) :
    phaseAfter w.nextFrame (Scene.opened env w).app.log =
      some (Scene.opened env w).frame.life.phase := by
  unfold Scene.opened
  dsimp only
  split
  · refine phaseAfter_cons (p := .fitted) ?_ rfl rfl
    refine phaseAfter_cons (p := .canvas) ?_ rfl rfl
    refine phaseAfter_cons (p := .dialog) ?_ rfl rfl
    refine phaseAfter_cons (p := .constructed) ?_ rfl rfl
    exact phaseAfter_cons hw rfl rfl
  · refine phaseAfter_cons (p := .dialog) ?_ rfl rfl
    refine phaseAfter_cons (p := .constructed) ?_ rfl rfl
    exact phaseAfter_cons hw rfl rfl

theorem opened_frames_log (env : Env) (w : World) :
    ∃ calls, (Scene.opened env w).app.log = calls ++ w.log ∧
      ∀ c ∈ calls, c.frame? = some w.nextFrame := by
  unfold Scene.opened
  dsimp only
  split
  · refine ⟨[_, _, _, _, _], rfl, ?_⟩
    simp only [List.forall_mem_cons]
    exact ⟨rfl, rfl, rfl, rfl, rfl, by simp⟩
  · refine ⟨[_, _, _], rfl, ?_⟩
    simp only [List.forall_mem_cons]
    exact ⟨rfl, rfl, rfl, by simp⟩

theorem opened_scripted (env : Env) (hw : w.Scripted) :
    World.Scripted { w.put w.nextFrame (Scene.opened env w) with nextFrame := w.nextFrame + 1 } := by
  -- as if the number had been given before the frame is put in place
  let v : World := { w with nextFrame := w.nextFrame + 1 }
  have hunborn : phaseAfter w.nextFrame w.log = some .unborn := by
    rw [hw w.nextFrame, World.phase, if_pos le_rfl]
  intro j
  change phaseAfter j (Scene.opened env w).app.log = _
  by_cases hj : j = w.nextFrame
  · subst hj
    have hphase : (v.put w.nextFrame (Scene.opened env w)).phase w.nextFrame =
        (Scene.opened env w).frame.life.phase := phase_put_self (Nat.lt_succ_self _) _
    exact (opened_phaseAfter env hunborn).trans (congrArg some hphase.symm)
  · have hphase : (v.put w.nextFrame (Scene.opened env w)).phase j = w.phase j := by
      rw [phase_put_of_ne _ hj, World.phase, World.phase]
      have hiff : w.nextFrame + 1 ≤ j ↔ w.nextFrame ≤ j := by
        have hne : j ≠ w.nextFrame := hj
        exact ⟨Nat.le_of_succ_le, fun h => Nat.lt_of_le_of_ne h (Ne.symm hne)⟩
      exact if_congr hiff rfl rfl
    obtain ⟨calls, hlog, hcalls⟩ := opened_frames_log env w
    rw [hlog]
    refine Eq.trans ?_ (congrArg some hphase.symm)
    apply reached_append (hw j)
    intro c hc
    apply nextOf_other
    intro hframe
    exact hj (Option.some.inj (hframe.symm.trans (hcalls c hc)))

structure World.OnScript (w : World) : Prop where
  coherent : w.Coherent
  scripted : w.Scripted

theorem toggle_scripted (hw : w.OnScript) (h : w.toggleSonarFrame env = .ok w') : w'.OnScript := by
  refine ⟨toggle_coherent hw.coherent h, ?_⟩
  have hnote : World.Scripted { w with toApp := w.toApp.note .toggleSonarFrame } :=
    Unframed.scripted ⟨[_], rfl, by simp [Call.frame?]⟩ hw.scripted
  cases hp : w.pi.pSonarFrame with
  | none =>
    simp only [World.toggleSonarFrame, App.note, hp] at h
    rw [openFrame_eq] at h
    cases h
    exact opened_scripted env hnote
  | some i =>
    obtain ⟨hnone, -⟩ | ⟨j, f, s, hj, hf, hclosed, rfl⟩ := toggle_cases h
    · cases hp.symm.trans hnone
    · exact closed_scripted hclosed hnote (wellFormed_app hw.coherent.wellFormed (note_kept rfl _))
        hw.coherent.numbered hf

theorem toggleOnKey_scripted {k : Key} {ctrl : Bool} (hw : w.OnScript)
    (h : w.toggleOnKey env k ctrl = .ok w') : w'.OnScript := by
  obtain ⟨-, h⟩ | ⟨-, rfl⟩ := toggleOnKey_inv h
  · exact toggle_scripted hw h
  · exact hw

theorem refresh_scripted (hw : w.Scripted) (hwf : w.WellFormed) (hn : w.Numbered)
    (h : w.onSonarFrame (fun s => .ok s.refresh) = .ok w') : w'.Scripted := by
  obtain ⟨-, rfl⟩ | ⟨i, f, s, -, hf, hs, rfl⟩ := onSonarFrame_eq_ok.mp h
  · exact hw
  · cases hs
    exact (Steered.refresh _).requests.scripted hw (hwf.lt_nextFrame hf) hf (hn i f hf).1

theorem colours_scripted {cs : ColorScheme} (hw : w.Scripted) (hwf : w.WellFormed)
    (hn : w.Numbered) (h : World.setColorScheme cs w = .ok w') : w'.Scripted := by
  obtain ⟨-, rfl⟩ | ⟨i, f, s, hp, hf, hs, rfl⟩ := onSonarFrame_eq_ok.mp h
  · exact hw
  · cases hs
    obtain ⟨g, hg, hopen⟩ := hwf.pointer i hp
    obtain rfl : f = g := Option.some.inj (hf.symm.trans hg)
    have hthis := (hn i f hf).1
    subst hthis
    have hphase := hw f.this
    rw [phase_of_frame (hwf.lt_nextFrame hf) hf] at hphase
    have hlog : (Scene.setColourScheme cs ⟨f, w.toApp⟩).app.log =
        [.refresh f.this, .setColourScheme f.this cs] ++ w.log := rfl
    refine put_scripted hw (hwf.lt_nextFrame hf) hlog ?_ ?_
    · simp [Call.frame?, eq_comm]
    · apply reached_append hphase
      simp only [List.forall_mem_cons]
      cases hlife : f.life with
      | closed => exact absurd hlife hopen
      | raw | created => exact ⟨nextOf_self rfl, nextOf_self rfl, by simp⟩

theorem step_scripted {e : Event} (hw : w.OnScript) (he : w.allows e = true)
    (h : World.step env e w = .ok w') : w'.OnScript := by
  refine ⟨step_coherent hw.coherent he h, ?_⟩
  have hwf := hw.coherent.wellFormed
  have hn := hw.coherent.numbered
  cases e with
  | init answer =>
    obtain ⟨a, ha, rfl⟩ := init_inv h
    obtain ⟨calls, hlog, hcalls⟩ := init_unframed ha
    exact Unframed.scripted ⟨calls, hlog, hcalls⟩ hw.scripted
  | deInit =>
    obtain ⟨v, hv, rfl⟩ := deInit_inv h
    change v.Scripted
    obtain ⟨-, rfl⟩ | ⟨i, f, s, -, hf, hs, rfl⟩ := onSonarFrame_eq_ok.mp hv
    · exact hw.scripted
    · exact closed_scripted (onClose_ok hs) hw.scripted hwf hn hf
  | toolbar id => exact (toggle_scripted hw h).scripted
  | aisSentence answer =>
    obtain ⟨v, hv, hr⟩ := aisSentence_inv h
    obtain rfl | ⟨a, ha, rfl⟩ := hv
    · exact refresh_scripted hw.scripted hwf hn hr
    · exact refresh_scripted ((getSonarTargets_unframed ha).scripted hw.scripted)
        (wellFormed_app hwf (getSonarTargets_kept ha)) hn hr
  | positionFix x =>
    obtain rfl | h := positionFix_inv h
    · exact hw.scripted
    · have hstore : World.Scripted { w with toApp := w.toApp.storeFix x } :=
        Unframed.scripted ⟨[], rfl, by simp⟩ hw.scripted
      exact refresh_scripted hstore (wellFormed_app hwf (storeFix_kept x _)) hn h
  | colorScheme cs dilg1 =>
    have hcol : World.Scripted { w with host.dilg1 := dilg1 } :=
      Unframed.scripted ⟨[], rfl, by simp⟩ hw.scripted
    exact colours_scripted hcol (wellFormed_app hwf (dilg1_kept dilg1 _)) hn h
  | getSonarTargets answer =>
    obtain ⟨a, ha, rfl⟩ := withApp_eq_ok.mp h
    exact (getSonarTargets_unframed ha).scripted hw.scripted
  | preferences r =>
    obtain rfl := preferences_inv h
    obtain ⟨calls, hlog, hcalls⟩ := (dialog_spec r w.toApp).calls
    refine Unframed.scripted ⟨calls, hlog, fun c hc => ?_⟩ hw.scripted
    rw [hcalls c hc]
    rfl
  | chartKey k ctrl =>
    have hend := repeatStep_invariant World.OnScript (fun u v hu huv => toggleOnKey_scripted hu huv) hw h
    exact hend.scripted
  | frame i e =>
    cases e with
    | key k ctrl =>
      obtain ⟨v, f, hv, hf, rfl⟩ := key_inv h
      have hscript := toggleOnKey_scripted hw hv
      exact (Steered.zoomKey env.build _ k).requests.scripted hscript.scripted
        (hscript.coherent.wellFormed.lt_nextFrame hf) hf (hscript.coherent.numbered i f hf).1
    | close =>
      obtain ⟨f, s, hf, hs, rfl⟩ := onFrame_eq_ok.mp h
      exact closed_scripted (onClose_ok hs) hw.scripted hwf hn hf
    | colours cs dilg1 =>
      obtain ⟨f, hf, hacc⟩ := allows_frame he
      simp [SonarFrame.accepts] at hacc
    | _ =>
      obtain ⟨f, s, hf, hs, rfl⟩ := onFrame_eq_ok.mp h
      exact (handle_requests (by simp) (by simp) hs).scripted hw.scripted
        (hwf.lt_nextFrame hf) hf (hn i f hf).1
  | deleteFrame i =>
    cases hf : w.frames i with
    | none => simp [World.allows, hf] at he
    | some f =>
      have hlife : f.life = .closed := by
        simp only [World.allows, hf, Option.any_some, Bool.and_eq_true, decide_eq_true_eq] at he
        exact he.2
      cases h
      intro j
      exact (hw.scripted j).trans (congrArg some (phase_deleted (hwf.lt_nextFrame hf) hf hlife j).symm)
  | destroy =>
    obtain ⟨a, ha, rfl⟩ := withApp_eq_ok.mp h
    exact (destroy_unframed ha).scripted hw.scripted

end

/-- In every run, which the first fault ends, the calls on each frame come in the
order of its life, with no call left out, made twice or made too late: it is
constructed, its dialog and canvas are created, it is shown, then coloured and repainted
at will until it is closed, which deletes its timer, and asked for nothing but to repaint
from then on. A half-built frame has no canvas, and the toggle or `DeInit` that is to
close it faults. -/
theorem calls_in_order {env : Env} {config : FileConfig} {dilg1 : Colour} {es : List Event}
    {w : World} (h : (machine env).Run (World.construct env config dilg1) es w) (i : FrameId) :
    phaseAfter i w.log = some (w.phase i) ∧
      (w.phase i = .halfBuilt → w.pi.pSonarFrame = some i →
        w.toggleSonarFrame env = .error (.member i .onClose .timer .null) ∧
          w.deInit = .error (.member i .onClose .timer .null)) := by
  have hstart : (World.construct env config dilg1).OnScript :=
    ⟨construct_coherent env config dilg1, fun j => (congrArg some (if_pos (Nat.zero_le j))).symm⟩
  have hend : w.OnScript :=
    h.invariant World.OnScript hstart fun _ _ _ hu he hs => step_scripted hu he hs
  refine ⟨hend.scripted i, fun hphase hp => ?_⟩
  have hwf := hend.coherent.wellFormed
  obtain ⟨f, hf, -⟩ := hwf.pointer i hp
  rw [phase_of_frame (hwf.lt_nextFrame hf) hf] at hphase
  have hraw : f.life = .raw := by
    cases hlife : f.life with
    | raw => rfl
    | created | closed => simp [hlife, Life.phase] at hphase
  have htimer : f.timer = .null := Ptr.misuse?_eq_null.mp ((hwf.sound i f hf).raw hraw)
  have hthis := (hend.coherent.numbered i f hf).1
  exact ⟨halfBuilt_toggle hp hf hthis htimer, halfBuilt_deInit hp hf hthis htimer⟩

theorem first_frame_in_order :
    ∃ w, (machine .desktop).Run (World.blank .desktop)
        [.init true, .toolbar 1, .colorScheme .night ⟨1, 2, 3⟩, .toolbar 1, .frame 0 .timer,
          .deleteFrame 0, .toolbar 1] w ∧
      phaseAfter 0 w.log = some .closed ∧ phaseAfter 1 w.log = some .shown ∧
      phaseAfter 2 w.log = some .unborn := by
  obtain ⟨w, hrun, hp⟩ := System.exists_run_of_exec (machine .desktop) (World.blank .desktop)
    [.init true, .toolbar 1, .colorScheme .night ⟨1, 2, 3⟩, .toolbar 1, .frame 0 .timer,
      .deleteFrame 0, .toolbar 1]
    (fun w => decide (w.phase 0 = .closed ∧ w.phase 1 = .shown ∧ w.phase 2 = .unborn))
    (by decide +kernel)
  obtain ⟨h0, h1, h2⟩ := of_decide_eq_true hp
  rw [← h0, ← h1, ← h2]
  exact ⟨w, hrun, (calls_in_order hrun 0).1, (calls_in_order hrun 1).1, (calls_in_order hrun 2).1⟩

end SonarPlugin
