import SonarPlugin.Opening
import SonarPlugin.Machine
import Mathlib.Logic.Relation

namespace SonarPlugin

open Library Relation

/-- A change outside the frames that touches neither the settings nor what
the host keeps for the plug-in. -/
structure AppKept (a b : App) : Prop where
  settings : b.pi.toSettings = a.pi.toSettings
  pconfig : b.pi.pconfig = a.pi.pconfig
  pSonarFrame : b.pi.pSonarFrame = a.pi.pSonarFrame
  leftclickToolId : b.pi.leftclickToolId = a.pi.leftclickToolId
  config : b.host.config = a.host.config
  handlers : b.host.handlers = a.host.handlers
  tools : b.host.tools = a.host.tools
  nextTool : b.host.nextTool = a.host.nextTool
  initialised : b.host.initialised = a.host.initialised
  statics : b.statics = a.statics
  heap : b.heap = a.heap
  log : ∃ calls, b.log = calls ++ a.log ∧ ∀ c ∈ calls, c.image? = none

/-- What the preference dialog does: OK takes over both flags, inserts or
removes the tool if the first has changed, and saves. -/
structure Dialog (result : Option (Bool × Bool)) (a b : App) : Prop where
  settings : b.pi.toSettings = result.elim a.pi.toSettings fun r =>
    { a.pi.toSettings with sonarShowIcon := r.1, sonarUseSonar := r.2 }
  pconfig : b.pi.pconfig = a.pi.pconfig
  pSonarFrame : b.pi.pSonarFrame = a.pi.pSonarFrame
  config : b.host.config = result.elim a.host.config fun _ =>
    if a.pi.pconfig then writeSettings b.pi.toSettings (a.host.config.setPath configPath)
    else a.host.config
  toolbar :
    (b.pi.sonarShowIcon = a.pi.sonarShowIcon ∧ b.host.tools = a.host.tools ∧
        b.host.nextTool = a.host.nextTool ∧ b.pi.leftclickToolId = a.pi.leftclickToolId) ∨
      (a.pi.sonarShowIcon = false ∧ b.pi.sonarShowIcon = true ∧
        b.host.tools = a.host.tools ++ [⟨a.host.nextTool, preferencesIcons a.statics.svg⟩] ∧
        b.host.nextTool = a.host.nextTool + 1 ∧ b.pi.leftclickToolId = a.host.nextTool) ∨
      (a.pi.sonarShowIcon = true ∧ b.pi.sonarShowIcon = false ∧
        b.host.tools = a.host.tools.filter (fun t => t.id ≠ a.pi.leftclickToolId) ∧
        b.host.nextTool = a.host.nextTool ∧ b.pi.leftclickToolId = a.pi.leftclickToolId)
  handlers : b.host.handlers = a.host.handlers
  initialised : b.host.initialised = a.host.initialised
  heap : b.heap = a.heap
  statics : b.statics = a.statics
  log : b.log = result.elim a.log fun _ => App.saves b.pi ++ a.log

/-- The single changes that events are made of. Only those under `true`
open frames. -/
inductive Effect (env : Env) : Bool → World → World → Prop
  | app {b : Bool} {w : World} {a : App} (h : AppKept w.toApp a) :
      Effect env b w { w with toApp := a }
  | handled {b : Bool} {w : World} {i : FrameId} {f : SonarFrame} {s : Scene}
      (hf : w.frames i = some f) (h : Kept ⟨f, w.toApp⟩ s) : Effect env b w (w.put i s)
  | closed {b : Bool} {w : World} {i : FrameId} {f : SonarFrame} {s : Scene}
      (hf : w.frames i = some f) (h : Closed ⟨f, w.toApp⟩ s) : Effect env b w (w.put i s)
  | opened {w : World} {s : Scene} (hp : w.pi.pSonarFrame = none) (h : NewFrame env w s) :
      Effect env true w { w.put w.nextFrame s with nextFrame := w.nextFrame + 1 }
  | deleted {b : Bool} {w : World} {i : FrameId} {f : SonarFrame} (hf : w.frames i = some f)
      (hlife : f.life = .closed) :
      Effect env b w { w with frames := Function.update w.frames i none }

abbrev Effects (env : Env) (b : Bool) : World → World → Prop := ReflTransGen (Effect env b)

def Event.isPlain : Event → Bool
  | .init _ | .deInit | .preferences _ => false
  | _ => true

def Event.isInit : Event → Bool
  | .init _ => true
  | _ => false

def Event.mayToggle : Event → Bool
  | .toolbar _ => true
  | .chartKey k ctrl => decide (k = .one) && ctrl
  | .frame _ e => e.isToggle
  | _ => false

theorem onFrame_eq_ok {i : FrameId} {h : Scene → Except Fault Scene} {w w' : World} :
    w.onFrame i h = .ok w' ↔
      ∃ f s, w.frames i = some f ∧ h ⟨f, w.toApp⟩ = .ok s ∧ w' = w.put i s := by
  unfold World.onFrame
  cases hf : w.frames i with
  | none => simp
  | some f =>
    simp only [bind_eq_ok]
    constructor
    · rintro ⟨s, hs, h⟩
      cases h
      exact ⟨f, s, rfl, hs, rfl⟩
    · rintro ⟨g, s, hg, hs, rfl⟩
      cases hg
      exact ⟨s, hs, rfl⟩

theorem onSonarFrame_eq_ok {h : Scene → Except Fault Scene} {w w' : World} :
    w.onSonarFrame h = .ok w' ↔
      (w.pi.pSonarFrame = none ∧ w' = w) ∨
        ∃ i f s, w.pi.pSonarFrame = some i ∧ w.frames i = some f ∧ h ⟨f, w.toApp⟩ = .ok s ∧
          w' = w.put i s := by
  unfold World.onSonarFrame
  cases hp : w.pi.pSonarFrame with
  | none => simp [eq_comm]
  | some i => simp [onFrame_eq_ok]

theorem withApp_eq_ok {f : App → Except Fault App} {w w' : World} :
    w.withApp f = .ok w' ↔ ∃ a, f w.toApp = .ok a ∧ w' = { w with toApp := a } := by
  unfold World.withApp
  rw [bind_eq_ok]
  constructor
  · rintro ⟨a, ha, h⟩
    cases h
    exact ⟨a, ha, rfl⟩
  · rintro ⟨a, ha, rfl⟩
    exact ⟨a, ha, rfl⟩

section

variable {env : Env} {b : Bool} {w w' : World}

theorem init_inv {answer : Bool} (h : World.step env (.init answer) w = .ok w') :
    ∃ a, w.toApp.init env answer = .ok a ∧
      w' = { w with toApp := { a with host.initialised := true } } := by
  obtain ⟨v, hv, h⟩ := bind_eq_ok.mp h
  cases h
  obtain ⟨a, ha, rfl⟩ := withApp_eq_ok.mp hv
  exact ⟨a, ha, rfl⟩

theorem deInit_inv (h : World.step env .deInit w = .ok w') :
    ∃ v, w.deInit = .ok v ∧ w' = { v with host.initialised := false } := by
  obtain ⟨v, hv, h⟩ := bind_eq_ok.mp h
  cases h
  exact ⟨v, hv, rfl⟩

theorem preferences_inv {r : Option (Bool × Bool)}
    (h : World.step env (.preferences r) w = .ok w') :
    w' = { w with toApp := w.toApp.showPreferencesDialog r } := by
  change w.withApp (fun a => .ok (a.showPreferencesDialog r)) = .ok w' at h
  obtain ⟨a, ha, rfl⟩ := withApp_eq_ok.mp h
  cases ha
  rfl

theorem aisSentence_inv {answer : Bool} (h : World.step env (.aisSentence answer) w = .ok w') :
    ∃ v, (v = w ∨ ∃ a, w.toApp.getSonarTargets answer = .ok a ∧ v = { w with toApp := a }) ∧
      v.onSonarFrame (fun s => .ok s.refresh) = .ok w' := by
  obtain ⟨v, hv, h⟩ := bind_eq_ok.mp h
  refine ⟨v, ?_, h⟩
  unfold World.updateTargets at hv
  split at hv
  · exact .inr (withApp_eq_ok.mp hv)
  · cases hv
    exact .inl rfl

theorem positionFix_inv {fix : PositionFix} (h : World.step env (.positionFix fix) w = .ok w') :
    w' = w ∨ World.onSonarFrame (fun s => .ok s.refresh)
      { w with toApp := w.toApp.storeFix fix } = .ok w' := by
  change w.setPositionFix fix = .ok w' at h
  unfold World.setPositionFix at h
  split at h
  · exact .inr h
  · cases h
    exact .inl rfl

theorem toggleOnKey_inv {k : Key} {ctrl : Bool} (h : w.toggleOnKey env k ctrl = .ok w') :
    ((decide (k = .one) && ctrl) = true ∧ w.toggleSonarFrame env = .ok w') ∨
      ((decide (k = .one) && ctrl) = false ∧ w' = w) := by
  unfold World.toggleOnKey at h
  split at h
  next hkey => exact .inl ⟨hkey, h⟩
  next hkey =>
    cases h
    exact .inr ⟨by simpa using hkey, rfl⟩

theorem key_inv {i : FrameId} {k : Key} {ctrl : Bool}
    (h : World.step env (.frame i (.key k ctrl)) w = .ok w') :
    ∃ v f, w.toggleOnKey env k ctrl = .ok v ∧ v.frames i = some f ∧
      w' = v.put i (Scene.zoomKey env.build k ⟨f, v.toApp⟩) := by
  obtain ⟨v, hv, h⟩ := bind_eq_ok.mp h
  obtain ⟨f, s, hf, hs, rfl⟩ := onFrame_eq_ok.mp h
  cases hs
  exact ⟨v, f, hv, hf, rfl⟩

theorem deleteSonarTargets_kept {a c : App} (h : a.deleteSonarTargets = .ok c) :
    AppKept a c := by
  unfold App.deleteSonarTargets at h
  split at h
  · cases h
    exact ⟨rfl, rfl, rfl, rfl, rfl, rfl, rfl, rfl, rfl, rfl, rfl, [], rfl, nofun⟩
  · cases h
    exact ⟨rfl, rfl, rfl, rfl, rfl, rfl, rfl, rfl, rfl, rfl, rfl, [_], rfl, by simp [Call.image?]⟩
  · cases h

theorem getAISTargetArray_kept (answer : Bool) (a : App) :
    AppKept a (a.getAISTargetArray answer) := by
  unfold App.getAISTargetArray
  split <;>
    exact ⟨rfl, rfl, rfl, rfl, rfl, rfl, rfl, rfl, rfl, rfl, rfl, [_], rfl, by simp [Call.image?]⟩

theorem AppKept.trans {a b c : App} (h : AppKept a b) (h' : AppKept b c) : AppKept a c where
  settings := h'.settings.trans h.settings
  pconfig := h'.pconfig.trans h.pconfig
  pSonarFrame := h'.pSonarFrame.trans h.pSonarFrame
  leftclickToolId := h'.leftclickToolId.trans h.leftclickToolId
  config := h'.config.trans h.config
  handlers := h'.handlers.trans h.handlers
  tools := h'.tools.trans h.tools
  nextTool := h'.nextTool.trans h.nextTool
  initialised := h'.initialised.trans h.initialised
  statics := h'.statics.trans h.statics
  heap := h'.heap.trans h.heap
  log := prepended_trans h.log h'.log

theorem getSonarTargets_kept {answer : Bool} {a c : App}
    (h : a.getSonarTargets answer = .ok c) : AppKept a c := by
  obtain ⟨b, hb, h⟩ := bind_eq_ok.mp h
  cases h
  exact (deleteSonarTargets_kept hb).trans (getAISTargetArray_kept answer b)

theorem destroy_kept {a c : App} (h : a.destroy = .ok c) : AppKept a c := by
  obtain ⟨b, hb, h⟩ := bind_eq_ok.mp h
  cases h
  have hkept := deleteSonarTargets_kept hb
  exact ⟨hkept.settings, hkept.pconfig, hkept.pSonarFrame, hkept.leftclickToolId,
    hkept.config, hkept.handlers, hkept.tools, hkept.nextTool, hkept.initialised, hkept.statics,
    hkept.heap, hkept.log⟩

theorem storeFix_kept (fix : PositionFix) (a : App) : AppKept a (a.storeFix fix) :=
  ⟨rfl, rfl, rfl, rfl, rfl, rfl, rfl, rfl, rfl, rfl, rfl, [], rfl, nofun⟩

theorem dilg1_kept (dilg1 : Colour) (a : App) : AppKept a { a with host.dilg1 := dilg1 } :=
  ⟨rfl, rfl, rfl, rfl, rfl, rfl, rfl, rfl, rfl, rfl, rfl, [], rfl, nofun⟩

theorem note_kept {c : Call} (hc : c.image? = none) (a : App) : AppKept a (a.note c) :=
  ⟨rfl, rfl, rfl, rfl, rfl, rfl, rfl, rfl, rfl, rfl, rfl, [c], rfl, by simpa using hc⟩

theorem dialog_spec (result : Option (Bool × Bool)) (a : App) :
    Dialog result a (a.showPreferencesDialog result) := by
  cases result with
  | none => exact ⟨rfl, rfl, rfl, rfl, .inl ⟨rfl, rfl, rfl, rfl⟩, rfl, rfl, rfl, rfl, rfl⟩
  | some r =>
    obtain ⟨icon, use⟩ := r
    simp only [App.showPreferencesDialog, App.saveConfig_eq]
    by_cases hicon : a.pi.sonarShowIcon = icon
    · subst hicon
      simp only [ne_eq, not_true_eq_false, if_false]
      exact ⟨rfl, rfl, rfl, rfl, .inl ⟨rfl, rfl, rfl, rfl⟩, rfl, rfl, rfl, rfl, rfl⟩
    · simp only [ne_eq, hicon, not_false_eq_true, if_true]
      cases icon with
      | true =>
        have ha : a.pi.sonarShowIcon = false := by simpa using hicon
        exact ⟨rfl, rfl, rfl, rfl, .inr (.inl ⟨ha, rfl, rfl, rfl, rfl⟩), rfl, rfl, rfl, rfl, rfl⟩
      | false =>
        have ha : a.pi.sonarShowIcon = true := by simpa using hicon
        exact ⟨rfl, rfl, rfl, rfl, .inr (.inr ⟨ha, rfl, rfl, rfl, rfl⟩), rfl, rfl, rfl, rfl, rfl⟩

theorem Dialog.calls {r : Option (Bool × Bool)} {a b : App} (h : Dialog r a b) :
    ∃ calls, b.log = calls ++ a.log ∧ ∀ c ∈ calls, c = .saveConfig b.pi.toSettings := by
  have hlog := h.log
  cases r with
  | none => exact ⟨[], hlog, by simp⟩
  | some r => exact ⟨_, hlog, fun c hc => App.eq_of_mem_saves hc⟩

theorem toggle_opens (env : Env) (hp : w.pi.pSonarFrame = none) :
    let v := { w with toApp := w.toApp.note .toggleSonarFrame }
    ∃ s, NewFrame env v s ∧ w.toggleSonarFrame env =
      .ok { v.put w.nextFrame s with nextFrame := w.nextFrame + 1 } := by
  obtain ⟨s, hs, hnew⟩ := openFrame_spec env { w with toApp := w.toApp.note .toggleSonarFrame }
  refine ⟨s, hnew, Eq.trans ?_ hs⟩
  simp [World.toggleSonarFrame, App.note, hp]

theorem toggle_cases (h : w.toggleSonarFrame env = .ok w') :
    let v := { w with toApp := w.toApp.note .toggleSonarFrame }
    (w.pi.pSonarFrame = none ∧ ∃ s, NewFrame env v s ∧
        w' = { v.put w.nextFrame s with nextFrame := w.nextFrame + 1 }) ∨
      ∃ i f s, w.pi.pSonarFrame = some i ∧ w.frames i = some f ∧
        Closed ⟨f, v.toApp⟩ s ∧ w' = v.put i s := by
  cases hp : w.pi.pSonarFrame with
  | none =>
    obtain ⟨s, hnew, hs⟩ := toggle_opens env hp
    rw [hs] at h
    cases h
    exact .inl ⟨rfl, s, hnew, rfl⟩
  | some i =>
    simp only [World.toggleSonarFrame, App.note, hp] at h
    obtain ⟨f, s, hf, hs, rfl⟩ := onFrame_eq_ok.mp h
    exact .inr ⟨i, f, s, rfl, hf, onClose_ok hs, rfl⟩

theorem toggle_effects (h : w.toggleSonarFrame env = .ok w') : Effects env true w w' := by
  have hnote : Effect env true w { w with toApp := w.toApp.note .toggleSonarFrame } :=
    .app (note_kept rfl _)
  refine .head hnote ?_
  obtain ⟨hp, s, hnew, rfl⟩ | ⟨i, f, s, -, hf, hclosed, rfl⟩ := toggle_cases h
  · exact .single (.opened hp hnew)
  · exact .single (.closed hf hclosed)

theorem onSonarFrame_effects {g : Scene → Scene} (hg : ∀ s, Kept s (g s))
    (h : w.onSonarFrame (fun s => .ok (g s)) = .ok w') : Effects env b w w' := by
  obtain ⟨-, rfl⟩ | ⟨i, f, s, -, hf, hs, rfl⟩ := onSonarFrame_eq_ok.mp h
  · exact .refl
  · cases hs
    exact .single (.handled hf (hg _))

theorem setColourScheme_kept (cs : ColorScheme) (s : Scene) : Kept s (s.setColourScheme cs) := by
  have hnote : Kept s (s.note (.setColourScheme s.frame.this cs)) :=
    ⟨rfl, rfl, fun _ _ => rfl, id, fun _ => id, rfl, rfl, ⟨[_], rfl, by simp [Call.isRoutine]⟩,
      Quiet.remembers ⟨rfl, [_], rfl, by simp [Call.image?]⟩, rfl⟩
  exact (hnote.trans (Steered.setPicture _ _).kept).trans (Steered.refresh _).kept

theorem aisSentence_effects {answer : Bool}
    (h : World.step env (.aisSentence answer) w = .ok w') : Effects env b w w' := by
  obtain ⟨v, hv, h⟩ := aisSentence_inv h
  have hw : Effects env b w v := by
    obtain rfl | ⟨a, ha, rfl⟩ := hv
    · exact .refl
    · exact .single (.app (getSonarTargets_kept ha))
  exact hw.trans (onSonarFrame_effects (fun s => (Steered.refresh s).kept) h)

theorem positionFix_effects {fix : PositionFix}
    (h : World.step env (.positionFix fix) w = .ok w') : Effects env b w w' := by
  obtain rfl | h := positionFix_inv h
  · exact .refl
  · have hfix : Effect env b w { w with toApp := w.toApp.storeFix fix } :=
      .app (storeFix_kept fix _)
    exact .head hfix (onSonarFrame_effects (fun s => (Steered.refresh s).kept) h)

theorem toggleOnKey_effects {k : Key} {ctrl : Bool} (h : w.toggleOnKey env k ctrl = .ok w') :
    Effects env (decide (k = .one) && ctrl) w w' := by
  obtain ⟨hkey, h⟩ | ⟨-, rfl⟩ := toggleOnKey_inv h
  · rw [hkey]
    exact toggle_effects h
  · exact .refl

theorem allows_frame {i : FrameId} {e : FrameEvent} (he : w.allows (.frame i e) = true) :
    ∃ f, w.frames i = some f ∧ f.accepts e = true := by
  simp only [World.allows, Bool.and_eq_true] at he
  cases hf : w.frames i with
  | none => simp [hf] at he
  | some f => exact ⟨f, rfl, by simpa [hf] using he.2⟩

theorem frame_effects {i : FrameId} {e : FrameEvent} (he : w.allows (.frame i e) = true)
    (h : w.onFrame i (e.handle env.build) = .ok w') : Effects env b w w' := by
  obtain ⟨f, s, hf, hs, rfl⟩ := onFrame_eq_ok.mp h
  have hacc : f.accepts e = true := by
    obtain ⟨g, hg, hacc⟩ := allows_frame he
    obtain rfl : f = g := Option.some.inj (hf.symm.trans hg)
    exact hacc
  by_cases hc : e = .close
  · subst hc
    exact .single (.closed hf (onClose_ok hs))
  · refine .single (.handled hf (handle_kept hs hc ?_))
    rintro cs dilg1 rfl
    simp [SonarFrame.accepts] at hacc

/-- All that an event can do. `Init` and `DeInit`, which alone change the
session, and the dialog, which alone sets flags, are singled out. -/
theorem step_cases {e : Event} (he : w.allows e = true) (h : World.step env e w = .ok w') :
    (∃ answer a, e = .init answer ∧ w.toApp.init env answer = .ok a ∧
        w' = { w with toApp := { a with host.initialised := true } }) ∨
      (∃ v, e = .deInit ∧ w.deInit = .ok v ∧ w' = { v with host.initialised := false }) ∨
      (∃ r a, e = .preferences r ∧ Dialog r w.toApp a ∧ w' = { w with toApp := a }) ∨
      (e.isPlain = true ∧ Effects env e.mayToggle w w') := by
  cases e with
  | init answer =>
    obtain ⟨a, ha, rfl⟩ := init_inv h
    exact .inl ⟨answer, a, rfl, ha, rfl⟩
  | deInit =>
    obtain ⟨v, hv, rfl⟩ := deInit_inv h
    exact .inr (.inl ⟨v, rfl, hv, rfl⟩)
  | toolbar id => exact .inr (.inr (.inr ⟨rfl, toggle_effects h⟩))
  | aisSentence answer => exact .inr (.inr (.inr ⟨rfl, aisSentence_effects h⟩))
  | positionFix fix => exact .inr (.inr (.inr ⟨rfl, positionFix_effects h⟩))
  | colorScheme cs dilg1 =>
    refine .inr (.inr (.inr ⟨rfl, ?_⟩))
    have hcol : Effect env false w { w with host.dilg1 := dilg1 } := .app (dilg1_kept dilg1 _)
    exact .head hcol (onSonarFrame_effects (setColourScheme_kept cs) h)
  | getSonarTargets answer =>
    obtain ⟨a, ha, rfl⟩ := withApp_eq_ok.mp h
    exact .inr (.inr (.inr ⟨rfl, .single (.app (getSonarTargets_kept ha))⟩))
  | preferences r =>
    obtain rfl := preferences_inv h
    exact .inr (.inr (.inl ⟨r, _, rfl, dialog_spec r w.toApp, rfl⟩))
  | chartKey k ctrl =>
    refine .inr (.inr (.inr ⟨rfl, ?_⟩))
    exact repeatStep_invariant (Effects env (decide (k = .one) && ctrl) w)
      (fun u v hu huv => hu.trans (toggleOnKey_effects huv)) .refl h
  | frame i e =>
    refine .inr (.inr (.inr ⟨rfl, ?_⟩))
    cases e with
    | key k ctrl =>
      obtain ⟨v, f, hv, hf, rfl⟩ := key_inv h
      exact .tail (toggleOnKey_effects hv) (.handled hf (Steered.zoomKey env.build _ k).kept)
    | _ => exact frame_effects he h
  | deleteFrame i =>
    cases h
    refine .inr (.inr (.inr ⟨rfl, ?_⟩))
    cases hf : w.frames i with
    | none => simp [World.allows, hf] at he
    | some f =>
      simp only [World.allows, hf, Option.any_some, Bool.and_eq_true, decide_eq_true_eq] at he
      exact .single (.deleted hf he.2)
  | destroy =>
    obtain ⟨a, ha, rfl⟩ := withApp_eq_ok.mp h
    exact .inr (.inr (.inr ⟨rfl, .single (.app (destroy_kept ha))⟩))

end

end SonarPlugin
