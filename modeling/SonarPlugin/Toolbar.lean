import SonarPlugin.WellFormed

namespace SonarPlugin

open Library Relation

/-- In a session there is one tool if the icon is shown and none otherwise,
outside there is none. A tool carries the id kept for it and `Init`'s icons. -/
structure World.ToolAccounted (w : World) : Prop where
  count : w.host.tools.length = if w.host.initialised && w.pi.sonarShowIcon then 1 else 0
  id : ∀ t ∈ w.host.tools, t.id = w.pi.leftclickToolId
  icons : ∀ t ∈ w.host.tools, t.icons = initIcons w.statics.svg

def World.DialogInSession (w : World) : Event → Prop
  | .preferences _ => w.host.initialised = true
  | _ => True

/-- A session ends only while the icon is hidden, and no dialog switches the
icon on. -/
def World.KeepsTool (w : World) : Event → Prop
  | .deInit => w.pi.sonarShowIcon = false
  | .preferences (some (true, _)) => w.pi.sonarShowIcon = true
  | _ => True

def sessions (env : Env) : System World Event Fault :=
  (hosted env).restrict World.DialogInSession

section

variable {env : Env} {b : Bool} {w w' : World}

structure ToolbarKept (w w' : World) : Prop where
  tools : w'.host.tools = w.host.tools
  leftclickToolId : w'.pi.leftclickToolId = w.pi.leftclickToolId
  sonarShowIcon : w'.pi.sonarShowIcon = w.pi.sonarShowIcon
  svg : w'.statics.svg = w.statics.svg
  initialised : w'.host.initialised = w.host.initialised

theorem Effect.toolbarKept (h : Effect env b w w') : ToolbarKept w w' := by
  have hinit := h.host_kept.1
  cases h with
  | app h =>
    exact ⟨h.tools, h.leftclickToolId, congrArg Settings.sonarShowIcon h.settings,
      congrArg Statics.svg h.statics, hinit⟩
  | @handled _ _ j f s hf h =>
    refine ⟨congrArg Host.tools h.host, ?_, ?_, h.svg, hinit⟩
    all_goals
      rw [World.put_toApp, h.pi]
  | @closed _ _ j f s hf h =>
    obtain ⟨v, -, hpi⟩ := h.pi
    refine ⟨?_, ?_, ?_, congrArg Statics.svg h.statics, hinit⟩
    · rw [World.put_toApp, h.host]
    · rw [World.put_toApp, hpi]
    · rw [World.put_toApp, hpi]
  | @opened _ s hp h =>
    have hid : s.app.pi.leftclickToolId = w.pi.leftclickToolId := by rw [h.pi]
    have hshow : s.app.pi.sonarShowIcon = w.pi.sonarShowIcon := by rw [h.pi]
    exact ⟨congrArg Host.tools h.host, hid, hshow, congrArg Statics.svg h.statics, hinit⟩
  | deleted hf hlife => exact ⟨rfl, rfl, rfl, rfl, hinit⟩

theorem Effects.toolbarKept (h : Effects env b w w') : ToolbarKept w w' := by
  induction h with
  | refl => exact ⟨rfl, rfl, rfl, rfl, rfl⟩
  | tail _ h ih =>
    have hk := h.toolbarKept
    exact ⟨hk.tools.trans ih.tools, hk.leftclickToolId.trans ih.leftclickToolId,
      hk.sonarShowIcon.trans ih.sonarShowIcon, hk.svg.trans ih.svg,
      hk.initialised.trans ih.initialised⟩

theorem ToolbarKept.accounted (h : ToolbarKept w w') (hw : w.ToolAccounted) :
    w'.ToolAccounted where
  count := by rw [h.tools, h.initialised, h.sonarShowIcon, hw.count]
  id t ht := by
    rw [h.leftclickToolId]
    exact hw.id t (h.tools ▸ ht)
  icons t ht := by
    rw [h.svg]
    exact hw.icons t (h.tools ▸ ht)

theorem Inited.accounted {a : App} (h : Inited env w.toApp a) (hw : w.ToolAccounted)
    (hs : w.host.initialised = false) :
    World.ToolAccounted { w with toApp := { a with host.initialised := true } } := by
  have hnil : w.host.tools = [] := by
    apply List.eq_nil_of_length_eq_zero
    rw [hw.count, hs]
    rfl
  have htools := h.tools
  rw [hnil, List.nil_append] at htools
  cases hshow : a.pi.sonarShowIcon with
  | true =>
    rw [hshow, if_pos rfl] at htools
    have hid := h.leftclickToolId hshow
    refine ⟨?_, ?_, ?_⟩
    · simp [htools, hshow]
    · simp [htools, hid]
    · simp [htools, h.statics]
  | false =>
    rw [hshow] at htools
    refine ⟨?_, ?_, ?_⟩
    · simp [htools, hshow]
    · simp [htools]
    · simp [htools]

theorem Dialog.accounted {r : Option (Bool × Bool)} {a : App} (h : Dialog r w.toApp a)
    (hw : w.ToolAccounted)
    (hoff : w.pi.sonarShowIcon = false → a.pi.sonarShowIcon = false) :
    World.ToolAccounted { w with toApp := a } := by
  obtain ⟨hshow, htools, -, hid⟩ | ⟨hfalse, htrue, -⟩ | ⟨-, hfalse, htools, -, hid⟩ := h.toolbar
  · refine ⟨?_, ?_, ?_⟩
    · change a.host.tools.length = if a.host.initialised && a.pi.sonarShowIcon then 1 else 0
      rw [htools, h.initialised, hshow, hw.count]
    · intro t ht
      exact (hw.id t (htools ▸ ht)).trans hid.symm
    · intro t ht
      change t.icons = initIcons a.statics.svg
      rw [h.statics]
      exact hw.icons t (htools ▸ ht)
  · rw [hoff hfalse] at htrue
    cases htrue
  · have hnil : a.host.tools = [] := by
      rw [htools, List.filter_eq_nil_iff]
      intro t ht
      simp [hw.id t ht]
    refine ⟨?_, ?_, ?_⟩
    · simp [hnil, hfalse]
    · simp [hnil]
    · simp [hnil]

theorem construct_accounted (env : Env) (config : FileConfig) (dilg1 : Colour) :
    (World.construct env config dilg1).ToolAccounted := ⟨rfl, nofun, nofun⟩

theorem step_accounted {e : Event} (hw : w.ToolAccounted) (he : (sessions env).allowed w e)
    (hc : w.KeepsTool e) (h : World.step env e w = .ok w') : w'.ToolAccounted := by
  obtain ⟨answer, a, rfl, ha, rfl⟩ | ⟨v, rfl, hv, rfl⟩ | ⟨r, a, rfl, hd, rfl⟩ | ⟨-, h⟩ :=
    step_cases he.1.1 h
  · have hs : w.host.initialised = false := by simpa [World.inOrder] using he.1.2
    exact (init_ok ha).accounted hw hs
  · have hk : Effects env false w v := deInit_effects hv
    have hv' := hk.toolbarKept.accounted hw
    have hnil : v.host.tools = [] := by
      apply List.eq_nil_of_length_eq_zero
      rw [hv'.count, hk.toolbarKept.sonarShowIcon, show w.pi.sonarShowIcon = false from hc]
      simp
    refine ⟨?_, ?_, ?_⟩
    · simp [hnil]
    · simp [hnil]
    · simp [hnil]
  · refine hd.accounted hw fun hfalse => ?_
    have hset : a.pi.sonarShowIcon = _ := congrArg Settings.sonarShowIcon hd.settings
    cases r with
    | none => exact hset.trans hfalse
    | some r =>
      obtain ⟨icon, use⟩ := r
      cases icon with
      | false => exact hset
      | true =>
        have htrue : w.pi.sonarShowIcon = true := hc
        simp [hfalse] at htrue
  · exact h.toolbarKept.accounted hw

theorem step_not_accounted {e : Event} (hw : w.ToolAccounted)
    (hsvg : w.statics.svg = initializeImages env.pluginDataDir)
    (he : (sessions env).allowed w e) (hc : ¬ w.KeepsTool e)
    (h : World.step env e w = .ok w') : ¬ w'.ToolAccounted := by
  intro hw'
  have hevent : e = .deInit ∨ ∃ use, e = .preferences (some (true, use)) := by
    rcases e with _ | _ | _ | _ | _ | _ | _ | (_ | ⟨_ | _, use⟩) | _ | _ | _ | _
    all_goals first | exact absurd trivial hc | exact .inl rfl | exact .inr ⟨use, rfl⟩
  obtain ⟨answer, a, rfl, -⟩ | ⟨v, rfl, hv, rfl⟩ | ⟨r, a, rfl, hd, rfl⟩ | ⟨hplain, -⟩ :=
    step_cases he.1.1 h
  · simp at hevent
  · have hk : Effects env false w v := deInit_effects hv
    have hshow : w.pi.sonarShowIcon = true := by simpa [World.KeepsTool] using hc
    have hs : w.host.initialised = true := he.1.2
    have hone : v.host.tools.length = 1 := by
      rw [hk.toolbarKept.tools, hw.count, hs, hshow]
      rfl
    have hzero : v.host.tools.length = 0 := hw'.count
    omega
  · obtain ⟨use, hr⟩ : ∃ use, r = some (true, use) := by simpa using hevent
    subst hr
    have hshow : w.pi.sonarShowIcon = false := by simpa [World.KeepsTool] using hc
    have htrue : a.pi.sonarShowIcon = true := congrArg Settings.sonarShowIcon hd.settings
    obtain ⟨hsame, -⟩ | ⟨-, -, htools, -⟩ | ⟨hon, -⟩ := hd.toolbar
    · rw [htrue, hshow] at hsame
      cases hsame
    · have hicons := hw'.icons ⟨w.host.nextTool, preferencesIcons w.statics.svg⟩
        (by simp [htools])
      have hsvg' : a.statics.svg = initializeImages env.pluginDataDir := by rw [hd.statics, hsvg]
      apply preferencesIcons_ne_initIcons env.pluginDataDir
      rw [← hsvg', ← hicons, hd.statics]
    · rw [hshow] at hon
      cases hon
  · obtain rfl | ⟨use, rfl⟩ := hevent <;> cases hplain

theorem run_svg {config : FileConfig} {dilg1 : Colour} {es : List Event}
    (h : (machine env).Run (World.construct env config dilg1) es w) :
    w.statics.svg = initializeImages env.pluginDataDir := by
  refine (construct_wellFormed env config dilg1).run_rule
    (fun w => w.statics.svg = initializeImages env.pluginDataDir) rfl ?_ ?_ h
  · intro u a _ hstatics _ hu
    rw [← hu, ← hstatics]
  · intro b u v _ h hu
    exact h.toolbarKept.svg.trans hu

theorem run_accounted {config : FileConfig} {dilg1 : Colour} {es : List Event}
    (h : ((sessions env).restrict World.KeepsTool).Run (World.construct env config dilg1) es w) :
    w.ToolAccounted := by
  refine h.invariant World.ToolAccounted (construct_accounted env config dilg1) ?_
  intro v e u hv he hs
  exact step_accounted hv he.1 he.2 hs

end

/-- The tools are accounted for along every run that ends its sessions with
the icon hidden and switches it on in no dialog, and the first step that does
otherwise breaks the accounting. -/
theorem accounted_until_tool_lost (env : Env) (config : FileConfig) (dilg1 : Colour) :
    (∀ es w, ((sessions env).restrict World.KeepsTool).Run (World.construct env config dilg1) es w →
        w.ToolAccounted) ∧
      ∀ es w e w',
        ((sessions env).restrict World.KeepsTool).Run (World.construct env config dilg1) es w →
        (sessions env).allowed w e → ¬ w.KeepsTool e → World.step env e w = .ok w' →
        ¬ w'.ToolAccounted := by
  refine ⟨fun es w h => run_accounted h, ?_⟩
  intro es w e w' h he hc hs
  have hsvg := run_svg h.of_restrict.of_restrict.of_restrict
  exact step_not_accounted (run_accounted h) hsvg he hc hs

theorem tool_left_after_deInit :
    ∃ w, (sessions .desktop).Run (World.blank .desktop) [.init true, .deInit] w ∧
      w.host.initialised = false ∧ w.host.tools.length = 1 ∧ ¬ w.ToolAccounted := by
  obtain ⟨w, hrun, hp⟩ := System.exists_run_of_exec (hosted .desktop) (World.blank .desktop)
    [.init true, .deInit]
    (fun w => decide (w.host.initialised = false) && decide (w.host.tools.length = 1))
    (by decide +kernel)
  simp only [Bool.and_eq_true, decide_eq_true_eq] at hp
  refine ⟨w, hrun.to_restrict (by simp [World.DialogInSession]), hp.1, hp.2, fun h => ?_⟩
  have hcount := h.count
  rw [hp.1, hp.2] at hcount
  cases hcount

end SonarPlugin
