import SonarPlugin.Toolbar
import SonarPlugin.Recovery
import SonarPlugin.Library.Registry

namespace SonarPlugin

open Library

/-- All that a step can do to the tools and the id the plug-in keeps. -/
inductive ToolStep (a b : App) : Prop
  | kept (htools : b.host.tools = a.host.tools) (hnext : b.host.nextTool = a.host.nextTool)
      (hid : b.pi.leftclickToolId = a.pi.leftclickToolId)
  | inserted {icons : ToolIcons} (htools : b.host.tools = a.host.tools ++ [⟨a.host.nextTool, icons⟩])
      (hnext : b.host.nextTool = a.host.nextTool + 1)
      (hid : b.pi.leftclickToolId = a.host.nextTool)
  | removed (htools : b.host.tools = a.host.tools.filter fun t => t.id ≠ a.pi.leftclickToolId)
      (hnext : b.host.nextTool = a.host.nextTool)
      (hid : b.pi.leftclickToolId = a.pi.leftclickToolId)

/-- The icon flag, and how many tools nobody can remove any more. -/
structure Tray where
  icon : Bool
  strays : Nat

namespace Tray

def next (y : Tray) : Event → Tray
  | .init _ => { y with strays := y.strays + if y.icon then 1 else 0 }
  | .preferences (some r) => { y with icon := r.1 }
  | _ => y

def tools (y : Tray) : Nat := y.strays + if y.icon then 1 else 0

end Tray

/-- The toolbar from the first `Init` on. -/
structure World.Counted (env : Env) (w : World) (y : Tray) : Prop where
  icon : w.pi.sonarShowIcon = y.icon
  count : w.host.tools.length = y.tools
  own : y.icon = true → ∃ t ∈ w.host.tools, t.id = w.pi.leftclickToolId
  pconfig : w.pi.pconfig = env.configObject
  backed : w.Backed

abbrev App.Registers (a : App) : Prop := Registered Tool.id a.host.nextTool a.host.tools

structure App.Forgets (t : Tool) (a : App) : Prop where
  present : t ∈ a.host.tools
  other : t.id ≠ a.pi.leftclickToolId

section

variable {env : Env} {q : Bool} {w w' : World} {a b : App} {t : Tool} {y : Tray}

theorem ToolStep.registers (h : ToolStep a b) (ha : a.Registers) : b.Registers := by
  cases h with
  | kept htools hnext hid =>
    rw [App.Registers, htools, hnext]
    exact ha
  | inserted htools hnext hid =>
    rw [App.Registers, htools, hnext]
    exact ha.insert rfl
  | removed htools hnext hid =>
    rw [App.Registers, htools, hnext]
    exact ha.remove _

theorem ToolStep.forgets (h : ToolStep a b) (hreg : a.Registers) (ha : a.Forgets t) :
    b.Forgets t := by
  cases h with
  | kept htools hnext hid => exact ⟨htools ▸ ha.present, hid ▸ ha.other⟩
  | inserted htools hnext hid =>
    constructor
    · rw [htools]
      exact List.mem_append_left _ ha.present
    · rw [hid]
      exact Nat.ne_of_lt (hreg.below t ha.present)
  | removed htools hnext hid =>
    constructor
    · rw [htools]
      exact List.mem_filter.mpr ⟨ha.present, by simpa using ha.other⟩
    · rw [hid]
      exact ha.other

theorem Effect.nextTool (h : Effect env q w w') : w'.host.nextTool = w.host.nextTool := by
  cases h with
  | app h => exact h.nextTool
  | handled hf h => rw [World.put_toApp, h.host]
  | closed hf h => rw [World.put_toApp, h.host]
  | opened hp h =>
    dsimp only [World.put_toApp]
    rw [h.host]
  | deleted hf hlife => rfl

theorem Effects.toolStep (h : Effects env q w w') : ToolStep w.toApp w'.toApp := by
  have hnext : w'.host.nextTool = w.host.nextTool := by
    induction h with
    | refl => rfl
    | tail _ h ih => exact h.nextTool.trans ih
  exact .kept h.toolbarKept.tools hnext h.toolbarKept.leftclickToolId

theorem init_leftclickToolId {answer : Bool} (h : a.init env answer = .ok b)
    (hhidden : b.pi.sonarShowIcon = false) : b.pi.leftclickToolId = a.pi.leftclickToolId := by
  have hget (x : App) : (x.getAISTargetArray answer).pi.leftclickToolId = x.pi.leftclickToolId ∧
      (x.getAISTargetArray answer).pi.sonarShowIcon = x.pi.sonarShowIcon := by
    unfold App.getAISTargetArray
    split <;> exact ⟨rfl, rfl⟩
  have hload (x : App) : x.loadConfig.2.pi.leftclickToolId = x.pi.leftclickToolId := by
    unfold App.loadConfig
    split <;> rfl
  unfold App.init at h
  obtain ⟨d, hd, h⟩ := bind_eq_ok.mp h
  have hid : d.pi.leftclickToolId = a.pi.leftclickToolId :=
    (deleteSonarTargets_kept hd).leftclickToolId.trans (hload _)
  clear hd
  cases h
  rw [(hget _).2] at hhidden
  rw [(hget _).1]
  dsimp only at hhidden ⊢
  by_cases hshow : d.pi.sonarShowIcon = true
  · rw [if_pos hshow] at hhidden
    simp [App.insertTool, hshow] at hhidden
  · rw [if_neg hshow]
    exact hid

theorem init_toolStep {answer : Bool} (h : a.init env answer = .ok b) : ToolStep a b := by
  have hi := init_ok h
  have htools := hi.tools
  have hnext := hi.nextTool
  cases hshow : b.pi.sonarShowIcon with
  | true =>
    rw [if_pos hshow] at htools hnext
    exact .inserted htools hnext (hi.leftclickToolId hshow)
  | false =>
    rw [if_neg (by simp [hshow])] at htools hnext
    exact .kept htools hnext (init_leftclickToolId h hshow)

theorem Dialog.toolStep {r : Option (Bool × Bool)} (h : Dialog r a b) : ToolStep a b := by
  obtain ⟨-, htools, hnext, hid⟩ | ⟨-, -, htools, hnext, hid⟩ | ⟨-, -, htools, hnext, hid⟩ :=
    h.toolbar
  · exact .kept htools hnext hid
  · exact .inserted htools hnext hid
  · exact .removed htools hnext hid

theorem step_toolStep {e : Event} (he : w.allows e = true) (h : World.step env e w = .ok w') :
    ToolStep w.toApp w'.toApp := by
  obtain ⟨answer, a, rfl, ha, rfl⟩ | ⟨v, rfl, hv, rfl⟩ | ⟨r, a, rfl, hd, rfl⟩ | ⟨-, h⟩ :=
    step_cases he h
  · cases init_toolStep ha with
    | kept htools hnext hid => exact .kept htools hnext hid
    | inserted htools hnext hid => exact .inserted htools hnext hid
    | removed htools hnext hid => exact .removed htools hnext hid
  · have hclose : Effects env false w v := deInit_effects hv
    cases hclose.toolStep with
    | kept htools hnext hid => exact .kept htools hnext hid
    | inserted htools hnext hid => exact .inserted htools hnext hid
    | removed htools hnext hid => exact .removed htools hnext hid
  · exact hd.toolStep
  · exact h.toolStep

theorem Effects.counted (h : Effects env q w w') (hw : w.Counted env y) (hb : w'.Backed) :
    w'.Counted env y := by
  have hk := h.toolbarKept
  refine ⟨hk.sonarShowIcon.trans hw.icon, ?_, ?_, h.store.1.trans hw.pconfig, hb⟩
  · rw [hk.tools, hw.count]
  · rw [hk.tools, hk.leftclickToolId]
    exact hw.own

theorem Inited.icon (h : Inited env w.toApp a) (hw : w.Counted env y) :
    a.pi.sonarShowIcon = y.icon := by
  have hset := congrArg Settings.sonarShowIcon h.settings
  cases hc : env.configObject with
  | true =>
    rw [hc, if_pos rfl] at hset
    have hback := congrArg Settings.sonarShowIcon (hw.backed (hw.pconfig.trans hc))
    exact hset.trans (hback.trans hw.icon)
  | false =>
    rw [hc] at hset
    exact hset.trans hw.icon

theorem inited_counted {answer : Bool} (hw : w.Counted env y) (h : Inited env w.toApp a)
    (hb : World.Backed { w with toApp := { a with host.initialised := true } }) :
    World.Counted env { w with toApp := { a with host.initialised := true } }
      (y.next (.init answer)) := by
  have hicon := h.icon hw
  have htools := h.tools
  refine ⟨hicon, ?_, fun hy => ?_, h.pconfig, hb⟩
  · change a.host.tools.length = _
    rw [htools, Tray.tools, Tray.next, ← hicon]
    split
    · rw [List.length_append, hw.count, Tray.tools, ← hicon, if_pos ‹_›]
      rfl
    · rw [hw.count, Tray.tools, ← hicon, if_neg ‹_›]
      rfl
  · have hshow : a.pi.sonarShowIcon = true := hicon.trans hy
    change ∃ t ∈ a.host.tools, t.id = a.pi.leftclickToolId
    rw [htools, if_pos hshow, h.leftclickToolId hshow]
    exact ⟨_, List.mem_append_right _ (List.mem_singleton_self _), rfl⟩

theorem dialog_counted {r : Option (Bool × Bool)} (hw : w.Counted env y) (hreg : w.Registers)
    (h : Dialog r w.toApp a) (hb : World.Backed { w with toApp := a }) :
    World.Counted env { w with toApp := a } (y.next (.preferences r)) := by
  have hicon : a.pi.sonarShowIcon = (y.next (.preferences r)).icon := by
    have hset := congrArg Settings.sonarShowIcon h.settings
    cases r with
    | none => exact hset.trans hw.icon
    | some r => exact hset
  have hstrays : (y.next (.preferences r)).strays = y.strays := by
    cases r <;> rfl
  have hpconfig : a.pi.pconfig = env.configObject := h.pconfig.trans hw.pconfig
  obtain ⟨hsame, htools, -, hid⟩ | ⟨hoff, hon, htools, -, hid⟩ | ⟨hon, hoff, htools, -, -⟩ := h.toolbar
  · have hy : (y.next (.preferences r)).icon = y.icon := hicon.symm.trans (hsame.trans hw.icon)
    refine ⟨hicon, ?_, fun htrue => ?_, hpconfig, hb⟩
    · change a.host.tools.length = _
      rw [htools, hw.count, Tray.tools, Tray.tools, hstrays, hy]
    · change ∃ t ∈ a.host.tools, t.id = a.pi.leftclickToolId
      rw [htools, hid]
      exact hw.own (hy.symm.trans htrue)
  · have hy : y.icon = false := hw.icon.symm.trans hoff
    have hy' : (y.next (.preferences r)).icon = true := hicon.symm.trans hon
    refine ⟨hicon, ?_, fun _ => ?_, hpconfig, hb⟩
    · change a.host.tools.length = _
      rw [htools, List.length_append, hw.count, Tray.tools, Tray.tools, hstrays, hy, hy']
      rfl
    · change ∃ t ∈ a.host.tools, t.id = a.pi.leftclickToolId
      rw [htools, hid]
      exact ⟨_, List.mem_append_right _ (List.mem_singleton_self _), rfl⟩
  · have hy : y.icon = true := hw.icon.symm.trans hon
    have hy' : (y.next (.preferences r)).icon = false := hicon.symm.trans hoff
    obtain ⟨t, ht, hid⟩ := hw.own hy
    refine ⟨hicon, ?_, fun htrue => ?_, hpconfig, hb⟩
    · change a.host.tools.length = _
      have hone := hreg.length_remove ht
      rw [hid, hw.count, Tray.tools, hy] at hone
      rw [htools, Tray.tools, hstrays, hy']
      exact Nat.succ.inj hone
    · rw [hy'] at htrue
      cases htrue

theorem step_counted {e : Event} (hw : w.Counted env y) (hreg : w.Registers)
    (he : w.allows e = true) (h : World.step env e w = .ok w') : w'.Counted env (y.next e) := by
  have hb := step_backed hw.backed he h
  obtain ⟨answer, a, rfl, ha, rfl⟩ | ⟨v, rfl, hv, rfl⟩ | ⟨r, a, rfl, hd, rfl⟩ | ⟨hplain, h⟩ :=
    step_cases he h
  · exact inited_counted hw (init_ok ha) hb
  · have hclose : Effects env false w v := deInit_effects hv
    have hv' := hclose.counted hw hb
    exact ⟨hv'.icon, hv'.count, hv'.own, hv'.pconfig, hb⟩
  · exact dialog_counted hw hreg hd hb
  · have hnext : y.next e = y := by
      cases e <;> first | rfl | cases hplain
    rw [hnext]
    exact h.counted hw hb

theorem first_init_counted {config : FileConfig} {dilg1 : Colour} {answer : Bool}
    (h : World.step env (.init answer) (World.construct env config dilg1) = .ok w) :
    w.Counted env ⟨w.pi.sonarShowIcon, 0⟩ := by
  have hb : w.Backed := step_backed (fun hc => by cases hc) rfl h
  obtain ⟨a, ha, rfl⟩ := init_inv h
  have hi := init_ok ha
  have htools := hi.tools
  refine ⟨rfl, ?_, fun hshow => ?_, hi.pconfig, hb⟩
  · change a.host.tools.length = Tray.tools ⟨a.pi.sonarShowIcon, 0⟩
    rw [htools, Tray.tools]
    split <;> rfl
  · change a.pi.sonarShowIcon = true at hshow
    change ∃ t ∈ a.host.tools, t.id = a.pi.leftclickToolId
    rw [htools, if_pos hshow, hi.leftclickToolId hshow]
    exact ⟨_, List.mem_append_right _ (List.mem_singleton_self _), rfl⟩

theorem run_registers {es : List Event} (hw : w.Registers) (h : (machine env).Run w es w') :
    w'.Registers := by
  apply h.invariant (fun u => u.Registers) hw
  intro u e v hu he hs
  exact (step_toolStep he hs).registers hu

end

/-- The toolbar after any run that begins with `Init`: one tool for each later
`Init` that found the icon shown, and one more while it is shown. `DeInit`, the frames and
the store have no part in it. -/
theorem tools_counted {env : Env} {config : FileConfig} {dilg1 : Colour} {answer : Bool}
    {es : List Event} {u w : World}
    (h : (machine env).Run (World.construct env config dilg1) [.init answer] u)
    (h' : (machine env).Run u es w) :
    w.host.tools.length = (es.foldl Tray.next ⟨u.pi.sonarShowIcon, 0⟩).tools ∧
      w.pi.sonarShowIcon = (es.foldl Tray.next ⟨u.pi.sonarShowIcon, 0⟩).icon ∧
      (w.host.tools.map Tool.id).Nodup := by
  obtain ⟨-, hs⟩ := System.Run.single_iff.mp h
  have hreg : u.Registers := run_registers .nil h
  have hw := h'.refines Tray.next (fun v y => v.Registers ∧ v.Counted env y)
    ⟨hreg, first_init_counted hs⟩ ?_
  · exact ⟨hw.2.count, hw.2.icon, hw.1.distinct⟩
  · rintro v y e v' ⟨hr, hv⟩ he hs
    exact ⟨(step_toolStep he hs).registers hr, step_counted hv hr he hs⟩

theorem tools_counted_over_sessions :
    ∃ u w, (machine .desktop).Run (World.blank .desktop) [.init true] u ∧
      (machine .desktop).Run u [.deInit, .init true, .deInit, .init true,
        .preferences (some (false, true)), .deInit, .init true] w ∧
      w.host.tools.length = 2 := by
  let fs : List Event := [.deInit, .init true, .deInit, .init true,
    .preferences (some (false, true)), .deInit, .init true]
  obtain ⟨u, hu, hp⟩ := System.exists_run_of_exec (machine .desktop) (World.blank .desktop)
    [.init true] (fun u => u.pi.sonarShowIcon && ((machine .desktop).exec fs u).isSome)
    (by decide +kernel)
  obtain ⟨hicon, hexec⟩ := Bool.and_eq_true_iff.mp hp
  obtain ⟨w, hw⟩ := Option.isSome_iff_exists.mp hexec
  have hrun := System.run_of_exec hw
  refine ⟨u, w, hu, hrun, ?_⟩
  rw [(tools_counted hu hrun).1, hicon]
  rfl

/-- A tool other than the one whose id the plug-in keeps is never removed again. -/
theorem stray_tool_stays {env : Env} {config : FileConfig} {dilg1 : Colour} {es fs : List Event}
    {u w : World} {t : Tool} (h : (machine env).Run (World.construct env config dilg1) es u)
    (h' : (machine env).Run u fs w) (ht : t ∈ u.host.tools) (hid : t.id ≠ u.pi.leftclickToolId) :
    t ∈ w.host.tools := by
  have hw : w.Registers ∧ w.Forgets t := by
    apply h'.invariant (fun v => v.Registers ∧ v.Forgets t) ⟨run_registers .nil h, ht, hid⟩
    rintro v e v' ⟨hreg, hv⟩ he hs
    have hstep := step_toolStep he hs
    exact ⟨hstep.registers hreg, hstep.forgets hreg hv⟩
  exact hw.2.present

theorem first_tool_stays :
    ∃ u w t, (machine .desktop).Run (World.blank .desktop) [.init true, .deInit, .init true] u ∧
      (machine .desktop).Run u [.preferences (some (false, true)), .preferences (some (true, true)),
        .deInit, .destroy] w ∧
      t ∈ u.host.tools ∧ t.id = 1 ∧ t ∈ w.host.tools := by
  let fs : List Event := [.preferences (some (false, true)), .preferences (some (true, true)),
    .deInit, .destroy]
  obtain ⟨u, hu, hp⟩ := System.exists_run_of_exec (machine .desktop) (World.blank .desktop)
    [.init true, .deInit, .init true]
    (fun u => u.host.tools.any (fun t => decide (t.id = 1)) && decide (u.pi.leftclickToolId = 2) &&
      ((machine .desktop).exec fs u).isSome) (by decide +kernel)
  simp only [Bool.and_eq_true, List.any_eq_true, decide_eq_true_eq] at hp
  obtain ⟨⟨⟨t, ht, hid⟩, hown⟩, hexec⟩ := hp
  obtain ⟨w, hw⟩ := Option.isSome_iff_exists.mp hexec
  have hrun := System.run_of_exec hw
  exact ⟨u, w, t, hu, hrun, ht, hid, stray_tool_stays hu hrun ht (by simp [hid, hown])⟩

end SonarPlugin
