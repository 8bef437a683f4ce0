import SonarPlugin.Transitions

namespace SonarPlugin

/-- An open frame as its user sees it: the geometry it was created with, and
the last position and size it was given since, if any. -/
structure OpenFrame where
  id : FrameId
  created : ViewState
  moved : Option (Point Int32)
  sized : Option (Size Int32)

def OpenFrame.geometry (o : OpenFrame) : ViewState :=
  ⟨o.moved.getD o.created.pos, o.sized.getD o.created.size⟩

/-- What a user of the plug-in may count on: the settings and the open frame.
Two counters number the sessions and the frames. -/
structure Expected where
  settings : Settings
  opened : Option OpenFrame
  inits : Nat
  created : Nat

def Settings.geometry (s : Settings) : ViewState :=
  ⟨⟨s.sonarFrameX, s.sonarFrameY⟩, ⟨s.sonarFrameSx, s.sonarFrameSy⟩⟩

def Settings.choices (s : Settings) : Bool × Bool × Bool :=
  (s.sonarNorthUp, s.sonarShowIcon, s.sonarUseSonar)

def Settings.withGeometry (v : ViewState) (s : Settings) : Settings :=
  { s with
    sonarFrameX := v.pos.x, sonarFrameY := v.pos.y
    sonarFrameSx := v.size.width, sonarFrameSy := v.size.height }

namespace Expected

def start (loaded : Settings) : Expected := ⟨loaded, none, 0, 0⟩

def close (x : Expected) : Expected :=
  match x.opened with
  | none => x
  | some o => { x with settings := x.settings.withGeometry o.geometry, opened := none }

def toggle (x : Expected) : Expected :=
  match x.opened with
  | none =>
    { x with
      opened := some ⟨x.created, x.settings.geometry, none, none⟩
      created := x.created + 1 }
  | some _ => x.close

def move (i : FrameId) (p : Point Int32) (x : Expected) : Expected :=
  { x with opened := x.opened.map fun o => if o.id = i then { o with moved := some p } else o }

def size (i : FrameId) (s : Size Int32) (x : Expected) : Expected :=
  { x with opened := x.opened.map fun o => if o.id = i then { o with sized := some s } else o }

def onFrame (build : Build) (i : FrameId) (x : Expected) : FrameEvent → Expected
  | .move p => x.move i p
  | .size client window _ => x.size i (ViewState.sizeOf client window build.platform)
  | .northUp value => { x with settings.sonarNorthUp := value }
  | .key k ctrl => if k = .one && ctrl then x.toggle else x
  | .close => x.close
  | _ => x

def next (build : Build) (x : Expected) : Event → Expected
  | .init _ => { x with inits := x.inits + 1 }
  | .deInit => x.close
  | .toolbar _ => x.toggle
  | .chartKey k ctrl => if k = .one && ctrl then toggle^[x.inits] x else x
  | .frame i e => x.onFrame build i e
  | .preferences (some (icon, use)) =>
    { x with settings.sonarShowIcon := icon, settings.sonarUseSonar := use }
  | _ => x

def after (build : Build) (loaded : Settings) (es : List Event) : Expected :=
  es.foldl (next build) (start loaded)

end Expected

def Event.northUp? : Event → Option Bool
  | .frame _ (.northUp value) => some value
  | _ => none

/-- The two flags with which the user ends a dialog by OK. -/
def Event.flags? : Event → Option (Bool × Bool)
  | .preferences r => r
  | _ => none

def lastOf {α : Type} (value? : Event → Option α) (es : List Event) : Option α :=
  (es.filterMap value?).getLast?

section

variable {build : Build} {x : Expected} {loaded : Settings} {es fs : List Event}

theorem lastOf_append_singleton {α : Type} (value? : Event → Option α) (es : List Event)
    (e : Event) : lastOf value? (es ++ [e]) = (value? e).or (lastOf value? es) := by
  unfold lastOf
  rw [List.filterMap_append]
  cases he : value? e with
  | none => simp [he]
  | some a => simp [he]

namespace Expected

theorem after_append (es fs : List Event) :
    after build loaded (es ++ fs) = fs.foldl (next build) (after build loaded es) :=
  List.foldl_append

theorem close_of_none (hx : x.opened = none) : x.close = x := by rw [close, hx]

theorem close_choices (x : Expected) : x.close.settings.choices = x.settings.choices := by
  unfold close
  split <;> rfl

theorem toggle_choices (x : Expected) : x.toggle.settings.choices = x.settings.choices := by
  unfold toggle
  split
  · rfl
  · exact close_choices x

theorem toggle_iterate_choices (n : Nat) (x : Expected) :
    (toggle^[n] x).settings.choices = x.settings.choices := by
  induction n generalizing x with
  | zero => rfl
  | succ n ih =>
    rw [Function.iterate_succ_apply, ih]
    exact toggle_choices x

theorem next_choices (x : Expected) (e : Event) :
    (x.next build e).settings.choices =
      (e.northUp?.getD x.settings.sonarNorthUp,
        (e.flags?.map Prod.fst).getD x.settings.sonarShowIcon,
        (e.flags?.map Prod.snd).getD x.settings.sonarUseSonar) := by
  cases e with
  | deInit => exact close_choices x
  | toolbar id => exact toggle_choices x
  | chartKey k ctrl =>
    dsimp only [next]
    split
    · exact toggle_iterate_choices _ x
    · rfl
  | frame i e =>
    cases e with
    | key k ctrl =>
      dsimp only [next, onFrame]
      split
      · exact toggle_choices x
      · rfl
    | close => exact close_choices x
    | _ => rfl
  | preferences r =>
    cases r with
    | none => rfl
    | some r => rfl
  | _ => rfl

theorem after_choices (es : List Event) :
    (after build loaded es).settings.choices =
      ((lastOf Event.northUp? es).getD loaded.sonarNorthUp,
        ((lastOf Event.flags? es).map Prod.fst).getD loaded.sonarShowIcon,
        ((lastOf Event.flags? es).map Prod.snd).getD loaded.sonarUseSonar) := by
  induction es using List.reverseRecOn with
  | nil => rfl
  | append_singleton es e ih =>
    simp only [Settings.choices, Prod.mk.injEq] at ih
    obtain ⟨hnorth, hicon, huse⟩ := ih
    rw [after_append, List.foldl_cons, List.foldl_nil, next_choices, hnorth, hicon, huse]
    simp only [lastOf_append_singleton]
    cases e.northUp? <;> cases e.flags? <;> rfl

theorem next_closed (build : Build) {e : Event} (hx : x.opened = none) (he : e.mayToggle = false) :
    (x.next build e).opened = none ∧
      (x.next build e).settings.geometry = x.settings.geometry := by
  have hclose := close_of_none hx
  have hmap (f : OpenFrame → OpenFrame) : x.opened.map f = none := by
    rw [hx]
    rfl
  cases e with
  | deInit =>
    dsimp only [next]
    rw [hclose]
    exact ⟨hx, rfl⟩
  | toolbar id => cases he
  | chartKey k ctrl =>
    dsimp only [Event.mayToggle] at he
    dsimp only [next]
    rw [he]
    exact ⟨hx, rfl⟩
  | frame i e =>
    cases e with
    | key k ctrl =>
      dsimp only [Event.mayToggle, FrameEvent.isToggle] at he
      dsimp only [next, onFrame]
      rw [he]
      exact ⟨hx, rfl⟩
    | close =>
      dsimp only [next, onFrame]
      rw [hclose]
      exact ⟨hx, rfl⟩
    | move p => exact ⟨hmap _, rfl⟩
    | size client window disk => exact ⟨hmap _, rfl⟩
    | _ => exact ⟨hx, rfl⟩
  | preferences r =>
    cases r with
    | none => exact ⟨hx, rfl⟩
    | some r => exact ⟨hx, rfl⟩
  | _ => exact ⟨hx, rfl⟩

theorem foldl_closed (build : Build) (hx : x.opened = none)
    (hfs : ∀ e ∈ fs, e.mayToggle = false) :
    (fs.foldl (next build) x).opened = none ∧
      (fs.foldl (next build) x).settings.geometry = x.settings.geometry := by
  induction fs generalizing x with
  | nil => exact ⟨hx, rfl⟩
  | cons e fs ih =>
    obtain ⟨ho, hg⟩ := next_closed build hx (hfs e List.mem_cons_self)
    obtain ⟨ho', hg'⟩ := ih ho fun e he => hfs e (List.mem_cons_of_mem _ he)
    exact ⟨ho', hg'.trans hg⟩

end Expected

end

end SonarPlugin
