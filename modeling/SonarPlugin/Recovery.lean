import SonarPlugin.Windows
import SonarPlugin.Matching

namespace SonarPlugin

open Library Relation

def settingsPaths : List String :=
  ["ShowRADARIcon", "UseSonarRadar", "NorthUp", "RADARDialogSizeX", "RADARDialogSizeY",
    "RADARDialogPosX", "RADARDialogPosY", "RADARRange"].map (configPath ++ "/" ++ ·)

def saved (s : Settings) (c : ConfigFile) : ConfigFile := (writeSettings s ⟨configPath, c⟩).entries

/-- What becomes of the entries by the saves among `calls`: nothing, or what one
of them writes. -/
def ConfigFile.Kept (calls : List Call) (c c' : ConfigFile) : Prop :=
  c' = c ∨ ∃ s, .saveConfig s ∈ calls ∧ c' = saved s c

namespace ConfigFile

variable {c c' c'' : ConfigFile} {s : Settings} {k : String} {calls calls' : List Call}

theorem saved_foreign (hk : k ∉ settingsPaths) : saved s c k = c k := by
  simp only [settingsPaths, List.map_cons, List.map_nil, List.mem_cons, List.not_mem_nil, or_false,
    not_or] at hk
  simp only [saved, writeSettings, FileConfig.writeBool, FileConfig.writeLong, FileConfig.fullPath,
    hk, if_false]

theorem saved_congr (hforeign : ∀ k ∉ settingsPaths, c k = c' k) : saved s c = saved s c' := by
  funext k
  simp only [saved, writeSettings, FileConfig.writeBool, FileConfig.writeLong, FileConfig.fullPath]
  iterate 8 refine ite_congr rfl (fun _ => rfl) fun _ => ?_
  refine hforeign k ?_
  simp only [settingsPaths, List.map_cons, List.map_nil, List.mem_cons, List.not_mem_nil, or_false]
  tauto

namespace Kept

protected theorem refl (calls : List Call) (c : ConfigFile) : c.Kept calls c := .inl rfl

theorem foreign (h : c.Kept calls c') (hk : k ∉ settingsPaths) : c' k = c k := by
  obtain rfl | ⟨s, -, rfl⟩ := h
  · rfl
  · exact saved_foreign hk

theorem mono (h : c.Kept calls c') (hsub : ∀ d ∈ calls, d ∈ calls') : c.Kept calls' c' :=
  h.imp_right fun ⟨s, hs, heq⟩ => ⟨s, hsub _ hs, heq⟩

theorem trans (h : c.Kept calls c') (h' : c'.Kept calls' c'') : c.Kept (calls' ++ calls) c'' := by
  obtain rfl | ⟨s, hs, rfl⟩ := h'
  · exact h.mono fun d hd => List.mem_append_right _ hd
  · refine .inr ⟨s, List.mem_append_left _ hs, saved_congr fun k hk => ?_⟩
    exact h.foreign hk

end Kept

end ConfigFile

def Booked (a b : App) : Prop :=
  ∃ calls, b.log = calls ++ a.log ∧ a.host.config.entries.Kept calls b.host.config.entries

def App.Saved (a : App) : Prop := storedSettings a.host.config = a.pi.toSettings

/-- Neither the settings nor the store change, or a save or a load is the last
thing that happens to them. -/
def Filed (a b : App) : Prop :=
  (b.pi.toSettings = a.pi.toSettings ∧ b.pi.pconfig = a.pi.pconfig ∧ b.host.config = a.host.config) ∨
    (b.pi.pconfig = true → b.Saved)

section

variable {env : Env} {w w' : World} {a b c : App} {s t : Scene}

theorem Filed.refl (a : App) : Filed a a := .inl ⟨rfl, rfl, rfl⟩

theorem Filed.trans (h : Filed a b) (h' : Filed b c) : Filed a c := by
  obtain ⟨hs, hp, hc⟩ | h' := h'
  · obtain ⟨hs', hp', hc'⟩ | h := h
    · exact .inl ⟨hs.trans hs', hp.trans hp', hc.trans hc'⟩
    · refine .inr fun hconf => ?_
      rw [App.Saved, hs, hc]
      exact h (hp ▸ hconf)
  · exact .inr h'

theorem AppKept.filed (h : AppKept a b) : Filed a b := .inl ⟨h.settings, h.pconfig, h.config⟩

theorem Closed.filed (h : Closed s t) : Filed s.app t.app := by
  obtain ⟨v, -, hpi⟩ := h.pi
  refine .inr fun hconf => ?_
  have hconf' : s.app.pi.pconfig = true := by
    rw [hpi] at hconf
    exact hconf
  rw [App.Saved, h.host, if_pos hconf', storedSettings_writeSettings]

theorem NewFrame.filed (h : NewFrame env w s) : Filed w.toApp s.app := by
  refine .inl ?_
  rw [h.pi, h.host]
  exact ⟨rfl, rfl, rfl⟩

theorem Inited.filed (h : Inited env a b) : Filed a b := by
  refine .inr fun hconf => ?_
  rw [h.pconfig] at hconf
  rw [App.Saved, h.config, h.settings, if_pos hconf, if_pos hconf, storedSettings_setPath]

theorem Dialog.filed {r : Option (Bool × Bool)} (h : Dialog r a b) : Filed a b := by
  cases r with
  | none => exact .inl ⟨h.settings, h.pconfig, h.config⟩
  | some r =>
    refine .inr fun hconf => ?_
    have hconfig := h.config
    rw [Option.elim_some, if_pos (h.pconfig ▸ hconf)] at hconfig
    rw [App.Saved, hconfig, storedSettings_writeSettings]

theorem toggle_filed (h : w.toggleSonarFrame env = .ok w') : Filed w.toApp w'.toApp := by
  have hnote : Filed w.toApp (w.toApp.note .toggleSonarFrame) := .refl _
  obtain ⟨-, s, hnew, rfl⟩ | ⟨i, f, s, -, -, hclosed, rfl⟩ := toggle_cases h
  · exact hnote.trans hnew.filed
  · exact hnote.trans hclosed.filed

theorem toggleOnKey_filed {k : Key} {ctrl : Bool} (h : w.toggleOnKey env k ctrl = .ok w') :
    Filed w.toApp w'.toApp := by
  obtain ⟨-, h⟩ | ⟨-, rfl⟩ := toggleOnKey_inv h
  · exact toggle_filed h
  · exact .refl _

theorem handle_filed {build : Build} {e : FrameEvent} (h : e.handle build s = .ok t)
    (hnorth : ∀ value, e ≠ .northUp value) (hcolours : ∀ cs dilg1, e ≠ .colours cs dilg1) :
    Filed s.app t.app := by
  by_cases hclose : e = .close
  · subst hclose
    exact (onClose_ok h).filed
  have hpi : t.app.pi = s.app.pi := by
    cases e with
    | move p =>
      obtain ⟨v, -, rfl⟩ := onMove_ok h
      rfl
    | size client window disk =>
      obtain ⟨-, rfl⟩ | ⟨v, -, -, hr⟩ := onSize_ok h
      · rfl
      · rw [hr.app]
    | northUp value => exact absurd rfl (hnorth value)
    | colours cs dilg1 => exact absurd rfl (hcolours cs dilg1)
    | close => exact absurd rfl hclose
    | _ => exact (handle_settles rfl h).2
  have hhost := (handle_kept h hclose hcolours).host
  exact .inl ⟨by rw [hpi], by rw [hpi], by rw [hhost]⟩

theorem onSonarFrame_filed {g : Scene → Scene} (hg : ∀ s, Filed s.app (g s).app)
    (h : w.onSonarFrame (fun s => .ok (g s)) = .ok w') : Filed w.toApp w'.toApp := by
  obtain ⟨-, rfl⟩ | ⟨i, f, s, -, -, hs, rfl⟩ := onSonarFrame_eq_ok.mp h
  · exact .refl _
  · cases hs
    exact hg _

theorem step_filed {e : Event} (hnorth : ∀ i value, e ≠ .frame i (.northUp value))
    (he : w.allows e = true) (h : World.step env e w = .ok w') : Filed w.toApp w'.toApp := by
  have hrefresh (s : Scene) : Filed s.app s.refresh.app := .inl ⟨rfl, rfl, rfl⟩
  cases e with
  | init answer =>
    obtain ⟨a, ha, rfl⟩ := init_inv h
    exact (init_ok ha).filed
  | deInit =>
    obtain ⟨v, hv, rfl⟩ := deInit_inv h
    obtain ⟨-, rfl⟩ | ⟨i, f, s, -, -, hs, rfl⟩ := onSonarFrame_eq_ok.mp hv
    · exact .refl _
    · exact (onClose_ok hs).filed
  | toolbar id => exact toggle_filed h
  | aisSentence answer =>
    obtain ⟨v, hv, h⟩ := aisSentence_inv h
    refine Filed.trans ?_ (onSonarFrame_filed hrefresh h)
    obtain rfl | ⟨a, ha, rfl⟩ := hv
    · exact .refl _
    · exact (getSonarTargets_kept ha).filed
  | positionFix x =>
    obtain rfl | h := positionFix_inv h
    · exact .refl _
    · have hfix : Filed (w.toApp.storeFix x) w'.toApp :=
        onSonarFrame_filed (w := { w with toApp := w.toApp.storeFix x }) hrefresh h
      exact (storeFix_kept x w.toApp).filed.trans hfix
  | colorScheme cs dilg1 =>
    have hscheme (s : Scene) : Filed s.app (s.setColourScheme cs).app := .inl ⟨rfl, rfl, rfl⟩
    have hpass : Filed { w.toApp with host.dilg1 := dilg1 } w'.toApp :=
      onSonarFrame_filed (w := { w with host.dilg1 := dilg1 }) hscheme h
    exact (dilg1_kept dilg1 w.toApp).filed.trans hpass
  | getSonarTargets answer =>
    obtain ⟨a, ha, rfl⟩ := withApp_eq_ok.mp h
    exact (getSonarTargets_kept ha).filed
  | preferences r =>
    obtain rfl := preferences_inv h
    exact (dialog_spec r w.toApp).filed
  | chartKey k ctrl =>
    exact repeatStep_invariant (fun u : World => Filed w.toApp u.toApp)
      (fun u v hu huv => hu.trans (toggleOnKey_filed huv)) (.refl _) h
  | frame i e =>
    cases e with
    | key k ctrl =>
      obtain ⟨v, f, hv, -, rfl⟩ := key_inv h
      have hzoom : FrameEvent.handle env.build (.key k ctrl) ⟨f, v.toApp⟩ =
          .ok (Scene.zoomKey env.build k ⟨f, v.toApp⟩) := rfl
      exact (toggleOnKey_filed hv).trans (handle_filed hzoom (by simp) (by simp))
    | northUp value => exact absurd rfl (hnorth i value)
    | colours cs dilg1 => simp [World.allows, SonarFrame.accepts] at he
    | _ =>
      obtain ⟨f, s, hf, hs, rfl⟩ := onFrame_eq_ok.mp h
      exact handle_filed (s := ⟨f, w.toApp⟩) hs (by simp) (by simp)
  | deleteFrame i =>
    cases h
    exact .refl _
  | destroy =>
    obtain ⟨a, ha, rfl⟩ := withApp_eq_ok.mp h
    exact (destroy_kept ha).filed

theorem northUp_unsaved {i : FrameId} {value : Bool}
    (h : World.step env (.frame i (.northUp value)) w = .ok w') :
    w'.pi.toSettings = { w.pi.toSettings with sonarNorthUp := value } ∧
      w'.pi.pconfig = w.pi.pconfig ∧ w'.host.config = w.host.config := by
  obtain ⟨f, s, -, hs, rfl⟩ := onFrame_eq_ok.mp h
  obtain ⟨-, ebl, rfl⟩ := checkNorthUp_ok hs
  exact ⟨rfl, rfl, rfl⟩

/-- Apart from North-Up, memory and store agree. -/
def World.Backed (w : World) : Prop :=
  w.pi.pconfig = true →
    { storedSettings w.host.config with sonarNorthUp := w.pi.sonarNorthUp } = w.pi.toSettings

theorem step_backed {e : Event} (hw : w.Backed) (he : w.allows e = true)
    (h : World.step env e w = .ok w') : w'.Backed := by
  intro hconf
  by_cases hnorth : ∃ i value, e = .frame i (.northUp value)
  · obtain ⟨i, value, rfl⟩ := hnorth
    obtain ⟨hs, hp, hc⟩ := northUp_unsaved h
    rw [hs, hc, ← hw (hp ▸ hconf)]
  · simp only [not_exists] at hnorth
    obtain ⟨hs, hp, hc⟩ | hsaved := step_filed hnorth he h
    · rw [hs, hc]
      exact hw (hp ▸ hconf)
    · rw [hsaved hconf]

/-- Where memory and store differ, the check-box has been clicked and neither
has changed since. -/
theorem run_unsaved {es : List Event} (hw : ¬ w.pi.pconfig = true)
    (h : (machine env).Run w es w') (hconf : w'.pi.pconfig = true) :
    w'.Saved ∨ ∃ es₁ i value es₂ u, es = es₁ ++ .frame i (.northUp value) :: es₂ ∧
      (machine env).Run w (es₁ ++ [.frame i (.northUp value)]) u ∧ (machine env).Run u es₂ w' ∧
      w'.pi.toSettings = u.pi.toSettings ∧ w'.pi.sonarNorthUp = value ∧
      w'.host.config = u.host.config := by
  induction h with
  | nil => exact absurd hconf hw
  | @snoc es e v x hrun ha hs ih =>
    by_cases hnorth : ∃ i value, e = .frame i (.northUp value)
    · obtain ⟨i, value, rfl⟩ := hnorth
      obtain ⟨hset, -, -⟩ := northUp_unsaved hs
      exact .inr ⟨es, i, value, [], x, rfl, hrun.snoc ha hs, .nil, rfl, by rw [hset], rfl⟩
    · simp only [not_exists] at hnorth
      obtain ⟨hset, hp, hc⟩ | hsaved := step_filed hnorth ha hs
      · obtain hsaved | ⟨es₁, i, value, es₂, u, rfl, hrun₁, hrun₂, hset', hvalue, hc'⟩ :=
          ih (hp ▸ hconf)
        · refine .inl ?_
          rw [App.Saved, hset, hc]
          exact hsaved
        · have hvalue' : x.pi.sonarNorthUp = value := by rw [hset, hvalue]
          exact .inr ⟨es₁, i, value, es₂ ++ [e], u, by simp, hrun₁, hrun₂.snoc ha hs,
            hset.trans hset', hvalue', hc.trans hc'⟩
      · exact .inl (hsaved hconf)

theorem Booked.refl (a : App) : Booked a a := ⟨[], rfl, .refl ..⟩

theorem Booked.trans (h : Booked a b) (h' : Booked b c) : Booked a c := by
  obtain ⟨calls, hlog, hkept⟩ := h
  obtain ⟨calls', hlog', hkept'⟩ := h'
  exact ⟨calls' ++ calls, by rw [hlog', hlog, List.append_assoc], hkept.trans hkept'⟩

theorem Booked.of_config (hlog : ∃ calls, b.log = calls ++ a.log)
    (hconfig : b.host.config.entries = a.host.config.entries) : Booked a b := by
  obtain ⟨calls, hlog⟩ := hlog
  exact ⟨calls, hlog, .inl hconfig⟩

theorem Booked.of_save (others : List Call) (hlog : b.log = App.saves b.pi ++ others ++ a.log)
    (hconfig : b.host.config = if b.pi.pconfig then
      writeSettings b.pi.toSettings (a.host.config.setPath configPath) else a.host.config) :
    Booked a b := by
  refine ⟨_, hlog, ?_⟩
  by_cases hp : b.pi.pconfig = true
  · rw [hconfig, if_pos hp]
    exact .inr ⟨b.pi.toSettings, by simp [App.saves, hp], rfl⟩
  · rw [hconfig, if_neg hp]
    exact .refl ..

theorem Closed.booked (h : Closed s t) : Booked s.app t.app := by
  have hpconfig : t.app.pi.pconfig = s.app.pi.pconfig := by
    obtain ⟨v, -, hpi⟩ := h.pi
    rw [hpi]
  refine .of_save _ h.log ?_
  rw [h.host, hpconfig]

theorem Dialog.booked {r : Option (Bool × Bool)} (h : Dialog r a b) : Booked a b := by
  cases r with
  | none => exact .of_config ⟨[], h.log⟩ (congrArg FileConfig.entries h.config)
  | some r =>
    refine .of_save [] (by simpa using h.log) ?_
    have hconfig := h.config
    rw [Option.elim_some, ← h.pconfig] at hconfig
    exact hconfig

theorem Effect.store {q : Bool} (h : Effect env q w w') :
    w'.pi.pconfig = w.pi.pconfig ∧ Booked w.toApp w'.toApp := by
  cases h with
  | app h =>
    obtain ⟨calls, hlog, -⟩ := h.log
    exact ⟨h.pconfig, .of_config ⟨calls, hlog⟩ (congrArg FileConfig.entries h.config)⟩
  | handled hf h =>
    obtain ⟨calls, hlog, -⟩ := h.log
    rw [World.put_toApp]
    exact ⟨by rw [h.pi], .of_config ⟨calls, hlog⟩ (by rw [h.host])⟩
  | closed hf h =>
    obtain ⟨v, -, hpi⟩ := h.pi
    rw [World.put_toApp]
    exact ⟨by rw [hpi], h.booked⟩
  | opened hp h =>
    obtain ⟨calls, hlog, -⟩ := h.log
    dsimp only [World.put_toApp]
    exact ⟨by rw [h.pi], .of_config ⟨calls, hlog⟩ (by rw [h.host])⟩
  | deleted hf hlife => exact ⟨rfl, .refl _⟩

theorem Effects.store {q : Bool} (h : Effects env q w w') :
    w'.pi.pconfig = w.pi.pconfig ∧ Booked w.toApp w'.toApp := by
  induction h with
  | refl => exact ⟨rfl, .refl _⟩
  | tail _ h ih => exact ⟨h.store.1.trans ih.1, ih.2.trans h.store.2⟩

theorem step_store {e : Event} (he : w.allows e = true) (h : World.step env e w = .ok w') :
    w'.pi.pconfig = (if e.isInit then env.configObject else w.pi.pconfig) ∧
      Booked w.toApp w'.toApp := by
  obtain ⟨answer, a, rfl, ha, rfl⟩ | ⟨v, rfl, hv, rfl⟩ | ⟨r, a, rfl, hd, rfl⟩ |
    ⟨hplain, h⟩ := step_cases he h
  · have hi := init_ok ha
    obtain ⟨calls, hlog, -⟩ := hi.log
    refine ⟨hi.pconfig, .of_config ⟨calls, hlog⟩ ?_⟩
    change a.host.config.entries = _
    rw [hi.config]
    split <;> rfl
  · have hclose : Effects env false w v := deInit_effects hv
    exact hclose.store
  · exact ⟨hd.pconfig, hd.booked⟩
  · have hnot : e.isInit = false := by
      cases e <;> first | rfl | cases hplain
    rw [hnot]
    exact h.store

theorem run_pconfig {es : List Event} (hw : w.pi.pconfig = false) (h : (machine env).Run w es w') :
    w'.pi.pconfig = (es.any Event.isInit && env.configObject) := by
  induction h with
  | nil => simpa using hw
  | @snoc es e v x hrun ha hs ih =>
    rw [(step_store ha hs).1, ih, List.any_append, List.any_cons, List.any_nil]
    cases e.isInit <;> cases env.configObject <;> simp

end

/-- The plug-in with the config file. What it writes stays in the memory of the
host's config object until that is flushed, which replaces the file as a whole. -/
def flushed (env : Env) : System (World × ConfigFile) (Option Event) Fault :=
  (machine env).copied fun w => w.host.config.entries

instance (env : Env) (s : World × ConfigFile) (e : Option Event) :
    Decidable ((flushed env).allowed s e) :=
  inferInstanceAs (Decidable (((machine env).copied fun w => w.host.config.entries).allowed s e))

def restarted (env : Env) (c : ConfigFile) (path : String) (dilg1 : Colour) : World × ConfigFile :=
  (World.construct env ⟨path, c⟩ dilg1, c)

/-- Processes one after another over one config file, which make `calls`. Each is
killed at any point, and the host flushes its config object when it likes. -/
inductive Lifetimes (c : ConfigFile) : List Call → ConfigFile → Prop
  | none : Lifetimes c [] c
  | snoc {d : ConfigFile} {calls : List Call} {env : Env} {path : String} {dilg1 : Colour}
      {es : List (Option Event)} {s : World × ConfigFile} (before : Lifetimes c calls d)
      (run : (flushed env).Run (restarted env d path dilg1) es s) :
      Lifetimes c (s.1.log ++ calls) s.2

section

variable {env : Env} {c d : ConfigFile} {path : String} {dilg1 : Colour}
  {es : List (Option Event)} {s : World × ConfigFile} {calls : List Call}

theorem flushed_booked (h : (flushed env).Run (restarted env c path dilg1) es s) :
    (restarted env c path dilg1).1.host.config.entries.Kept s.1.log s.1.host.config.entries ∧
      c.Kept s.1.log s.2 := by
  induction h with
  | nil => exact ⟨.refl .., .refl ..⟩
  | @snoc es e s t _ ha hs ih =>
    obtain ⟨rfl, rfl⟩ | ⟨e, rfl, hs, hcopy⟩ := System.Run.copied_step hs
    · exact ⟨ih.1, ih.1⟩
    · obtain ⟨calls, hlog, hkept⟩ := (step_store ha hs).2
      rw [hcopy, hlog]
      exact ⟨ih.1.trans hkept, ih.2.mono fun d hd => List.mem_append_right _ hd⟩

theorem Lifetimes.kept (h : Lifetimes c calls d) : c.Kept calls d := by
  induction h with
  | none => exact .refl ..
  | snoc _ run ih => exact ih.trans (flushed_booked run).2

end

theorem restart_loads (env : Env) (hconf : env.configObject = true) (config : FileConfig)
    (dilg1 : Colour) (answer : Bool) :
    ∃ v, (machine env).Run (World.construct env config dilg1) [.init answer] v ∧
      v.pi.toSettings = storedSettings config := by
  let start := World.construct env config dilg1
  obtain ⟨a, ha⟩ := init_total env answer (a := start.toApp) (fun hdangling => by cases hdangling)
  have hstep : World.step env (.init answer) start =
      .ok { start with toApp := { a with host.initialised := true } } := by
    change (start.withApp (App.init env answer) >>= _) = _
    rw [withApp_ok ha]
    rfl
  refine ⟨_, .single rfl hstep, ?_⟩
  change a.pi.toSettings = _
  rw [(init_ok ha).settings, if_pos hconf]
  rfl

/-- Over any number of processes, each with any events, flushed at any times and
killed at any point, the plug-in touches no entry of the config file but its own eight,
and these are all as they were or all as one of the saves made has written them. -/
theorem store_saved_whole {c c' : ConfigFile} {calls : List Call} (h : Lifetimes c calls c') :
    (∀ k ∉ settingsPaths, c' k = c k) ∧
      (c' = c ∨ ∃ s, .saveConfig s ∈ calls ∧ c' = saved s c) :=
  ⟨fun _ hk => h.kept.foreign hk, h.kept⟩

theorem foreign_entry_survives :
    let c : ConfigFile := fun k => if k = "/Other/Key" then some 7 else none
    ∃ calls c', Lifetimes c calls c' ∧ c' "/Other/Key" = some 7 := by
  intro c
  obtain ⟨s, hs, -⟩ := System.exists_run_of_exec (flushed .desktop)
    (restarted .desktop c "" ⟨0, 0, 0⟩)
    [some (.init true), some (.toolbar 1), some (.toolbar 1), none] (fun _ => true)
    (by decide +kernel)
  obtain ⟨t, ht⟩ :
      ∃ t, (flushed .desktop).Run (restarted .desktop s.2 "" ⟨0, 0, 0⟩) [none] t :=
    ⟨_, .single trivial rfl⟩
  have hlife : Lifetimes c (t.1.log ++ (s.1.log ++ [])) t.2 := .snoc (.snoc .none hs) ht
  refine ⟨_, t.2, hlife, ?_⟩
  rw [(store_saved_whole hlife).1 _ (by decide)]
  rfl

/-- Whenever a process is killed, the next one finds what was in memory at the last
flush. If that came after an `Init`, whether or not a frame was open, nothing of the
settings is lost but a North-Up that had been clicked since the last save or load. -/
theorem crash_loses_last_click {env : Env} {c : ConfigFile} {path : String} {dilg1 : Colour}
    {es : List (Option Event)} {s : World × ConfigFile} (path' : String) (dilg1' : Colour)
    (answer : Bool) (h : (flushed env).Run (restarted env c path dilg1) es s)
    (hconf : env.configObject = true) :
    ∃ v, (machine env).Run (restarted env s.2 path' dilg1').1 [.init answer] v ∧
      (none ∉ es → v.pi.toSettings = storedSettings ⟨path, c⟩) ∧
      ∀ fs gs, es = fs ++ none :: gs → none ∉ gs → fs.reduceOption.any Event.isInit = true →
        ∃ w, (machine env).Run (restarted env c path dilg1).1 fs.reduceOption w ∧
          (machine env).Run w gs.reduceOption s.1 ∧
          { v.pi.toSettings with sonarNorthUp := w.pi.sonarNorthUp } = w.pi.toSettings ∧
          (v.pi.toSettings = w.pi.toSettings ∨
            ∃ es₁ i value es₂ u, fs.reduceOption = es₁ ++ .frame i (.northUp value) :: es₂ ∧
              (machine env).Run (restarted env c path dilg1).1
                (es₁ ++ [.frame i (.northUp value)]) u ∧
              (machine env).Run u es₂ w ∧ w.pi.toSettings = u.pi.toSettings ∧
              w.pi.sonarNorthUp = value ∧ w.host.config = u.host.config) := by
  obtain ⟨v, hv, hloaded⟩ := restart_loads env hconf ⟨path', s.2⟩ dilg1' answer
  refine ⟨v, hv, fun hnever => ?_, ?_⟩
  · rw [hloaded, h.copied_kept hnever]
    rfl
  · rintro fs gs rfl hgs hinit
    obtain ⟨w, hw, hrest, hfile⟩ := h.copied_last hgs
    have hstart : (restarted env c path dilg1).1.pi.pconfig = false := rfl
    have hpconfig : w.pi.pconfig = true := by rw [run_pconfig hstart hw, hinit, hconf]; rfl
    have hbacked : w.Backed :=
      hw.invariant World.Backed (fun hc => by cases hc) fun _ _ _ hu he hs => step_backed hu he hs
    have hsettings : v.pi.toSettings = storedSettings w.host.config := by
      rw [hloaded, hfile]
      rfl
    refine ⟨w, hw, hrest, ?_, ?_⟩
    · rw [hsettings, hbacked hpconfig]
    · rw [hsettings]
      exact run_unsaved (by simp [hstart]) hw hpconfig

theorem click_lost_in_crash :
    ∃ s v, (flushed .desktop).Run (restarted .desktop (fun _ => none) "" ⟨0, 0, 0⟩)
        [some (.init true), some (.toolbar 1), some (.frame 0 (.northUp true)), none] s ∧
      (machine .desktop).Run (restarted .desktop s.2 "" ⟨0, 0, 0⟩).1 [.init true] v ∧
      s.1.pi.sonarNorthUp = true ∧
      { v.pi.toSettings with sonarNorthUp := s.1.pi.sonarNorthUp } = s.1.pi.toSettings := by
  obtain ⟨s, hrun, hp⟩ := System.exists_run_of_exec (flushed .desktop)
    (restarted .desktop (fun _ => none) "" ⟨0, 0, 0⟩)
    [some (.init true), some (.toolbar 1), some (.frame 0 (.northUp true)), none]
    (fun s => s.1.pi.sonarNorthUp) (by decide +kernel)
  obtain ⟨v, hv, -, hlast⟩ := crash_loses_last_click "" ⟨0, 0, 0⟩ true hrun rfl
  obtain ⟨w, -, hnothing, hsame, -⟩ := hlast
    [some (.init true), some (.toolbar 1), some (.frame 0 (.northUp true))] [] rfl (by simp) rfl
  obtain rfl := hnothing.eq_of_nil
  exact ⟨s, v, hrun, hv, hp, hsame⟩

end SonarPlugin
