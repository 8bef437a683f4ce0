import SonarPlugin.Transitions
import SonarPlugin.Library.Abstraction

namespace SonarPlugin

open Library Relation

/-- The plug-in as far as its windows go: the session, the handlers that the
sessions have left on the chart window, the life of every window, and the
one that the plug-in takes to be open. -/
structure Lifecycle where
  initialised : Bool
  alive : Bool
  handlers : Nat
  current : Option FrameId
  lives : FrameId → Option Life
  next : Nat

def Life.accepts (life : Life) : FrameEvent → Bool
  | .move _ | .timer | .size .. | .paint _ => life ≠ .raw
  | .colours .. => false
  | _ => life = .created

namespace Lifecycle

def start : Lifecycle := ⟨false, true, 0, none, fun _ => none, 0⟩

def setLife (i : FrameId) (life : Option Life) (L : Lifecycle) : Lifecycle :=
  { L with lives := Function.update L.lives i life }

/-- A window has a timer only from the end of its creation until it is closed. -/
def useTimer (site : Site) (i : FrameId) (L : Lifecycle) : Except Fault Lifecycle :=
  match L.lives i with
  | none => .error (.window i)
  | some .raw => .error (.member i site .timer .null)
  | some .created => .ok L
  | some .closed => .error (.member i site .timer .dangling)

def close (i : FrameId) (L : Lifecycle) : Except Fault Lifecycle := do
  let L ← L.useTimer .onClose i
  return { L.setLife i (some .closed) with current := none }

def openNext (ok : FrameId → Bool) (L : Lifecycle) : Lifecycle :=
  { L.setLife L.next (some (if ok L.next then .created else .raw)) with
    current := some L.next, next := L.next + 1 }

def toggle (ok : FrameId → Bool) (L : Lifecycle) : Except Fault Lifecycle :=
  match L.current with
  | none => .ok (L.openNext ok)
  | some i => L.close i

def toggleOnKey (ok : FrameId → Bool) (k : Key) (ctrl : Bool) (L : Lifecycle) :
    Except Fault Lifecycle :=
  if k = .one && ctrl then L.toggle ok else .ok L

def closeCurrent (L : Lifecycle) : Except Fault Lifecycle :=
  match L.current with
  | none => .ok L
  | some i => L.close i

def onFrame (ok : FrameId → Bool) (i : FrameId) : FrameEvent → Lifecycle → Except Fault Lifecycle
  | .size .., L => L.useTimer .render i
  | .paint _, L => L.useTimer .render i
  | .close, L => L.close i
  | .key k ctrl, L => L.toggleOnKey ok k ctrl
  | _, L => .ok L

def step (env : Env) : Event → Lifecycle → Except Fault Lifecycle
  | .init _, L =>
    .ok { L with initialised := true, handlers := L.handlers + 1, current := none }
  | .deInit, L => do
    let L ← L.closeCurrent
    return { L with initialised := false }
  | .toolbar _, L => L.toggle env.dialogOk
  | .chartKey k ctrl, L => repeatStep (toggleOnKey env.dialogOk k ctrl) L.handlers L
  | .frame i e, L => L.onFrame env.dialogOk i e
  | .deleteFrame i, L => .ok (L.setLife i none)
  | .destroy, L => .ok { L with alive := false }
  | _, L => .ok L

def allows (L : Lifecycle) (e : Event) : Bool :=
  L.alive &&
    match e with
    | .frame i e => (L.lives i).any fun life => life.accepts e
    | .deleteFrame i => (L.lives i).any fun life => life = .closed
    | _ => true

end Lifecycle

def lifecycles (env : Env) : System Lifecycle Event Fault where
  allowed L e := L.allows e = true
  step := Lifecycle.step env

namespace Lifecycle

section

variable {ok : FrameId → Bool} {L : Lifecycle} {i : FrameId}

@[simp] theorem setLife_self {life : Option Life} : (L.setLife i life).lives i = life := by
  simp [setLife]

theorem setLife_of_ne {j : FrameId} {life : Option Life} (h : j ≠ i) :
    (L.setLife i life).lives j = L.lives j := by
  simp [setLife, h]

theorem close_created (h : L.lives i = some .created) :
    L.close i = .ok { L.setLife i (some .closed) with current := none } := by
  simp [close, useTimer, h, bind, Except.bind, pure, Except.pure]

theorem close_raw (h : L.lives i = some .raw) :
    L.close i = .error (.member i .onClose .timer .null) := by
  simp [close, useTimer, h, bind, Except.bind]

theorem toggle_none (h : L.current = none) : L.toggle ok = .ok (L.openNext ok) := by
  rw [toggle, h]

theorem toggle_some (h : L.current = some i) : L.toggle ok = L.close i := by
  rw [toggle, h]

def cycles (k : Nat) (L : Lifecycle) : Lifecycle :=
  { L with
    lives := fun (i : Nat) => if L.next ≤ i ∧ i < L.next + k then some .closed else L.lives i
    next := L.next + k }

theorem cycles_zero : L.cycles 0 = L := by
  have hlives : (L.cycles 0).lives = L.lives := by
    funext (i : Nat)
    have hnot : ¬ (L.next ≤ i ∧ i < L.next + 0) := by omega
    exact if_neg hnot
  exact congrArg (fun lives => { L with lives }) hlives

theorem openNext_close (h : ok L.next = true) :
    (L.openNext ok).close L.next = .ok { L.cycles 1 with current := none } := by
  have hlife : (L.openNext ok).lives L.next = some .created := by
    simp [openNext, h]
  have hlives : Function.update (L.openNext ok).lives L.next (some .closed) = (L.cycles 1).lives := by
    funext (i : Nat)
    by_cases hi : i = L.next
    · subst hi
      simp [cycles]
    · have hnot : ¬ (L.next ≤ i ∧ i < L.next + 1) := by omega
      have hother : (L.cycles 1).lives i = L.lives i := if_neg hnot
      rw [hother, Function.update_of_ne hi]
      exact setLife_of_ne hi
  rw [close_created hlife, setLife, hlives]
  rfl

theorem cycles_succ (k : Nat) : (L.cycles k).cycles 1 = L.cycles (k + 1) := by
  have hlives : ((L.cycles k).cycles 1).lives = (L.cycles (k + 1)).lives := by
    funext (i : Nat)
    by_cases hlast : i = L.next + k
    · subst hlast
      simp [cycles]
    · have hiff : (L.next ≤ i ∧ i < L.next + (k + 1)) ↔ L.next ≤ i ∧ i < L.next + k := by omega
      have hnot : ¬ (L.next + k ≤ i ∧ i < L.next + k + 1) := by omega
      calc ((L.cycles k).cycles 1).lives i = (L.cycles k).lives i := if_neg hnot
        _ = (L.cycles (k + 1)).lives i := if_congr hiff.symm rfl rfl
  exact congrArg (fun lives => { L.cycles (k + 1) with lives }) hlives

theorem toggles_even (hc : L.current = none) (k : Nat)
    (hok : ∀ j < k, ok (L.next + j) = true) :
    repeatStep (toggle ok) (2 * k) L = .ok (L.cycles k) := by
  induction k with
  | zero => rw [cycles_zero]; rfl
  | succ k ih =>
    rw [Nat.mul_succ, repeatStep_add, ih fun j hj => hok j (Nat.lt_succ_of_lt hj)]
    have hcur : (L.cycles k).current = none := hc
    have hk : ok (L.cycles k).next = true := hok k (Nat.lt_succ_self k)
    change repeatStep (toggle ok) 2 (L.cycles k) = _
    rw [repeatStep, toggle_none hcur]
    change repeatStep (toggle ok) 1 ((L.cycles k).openNext ok) = _
    have hopen : ((L.cycles k).openNext ok).current = some (L.cycles k).next := rfl
    rw [repeatStep_one, toggle_some hopen, openNext_close hk, cycles_succ]
    congr 1
    exact congrArg (fun c => { L.cycles (k + 1) with current := c }) hc.symm

theorem toggles_odd (hc : L.current = none) (k : Nat) (hok : ∀ j < k, ok (L.next + j) = true) :
    repeatStep (toggle ok) (2 * k + 1) L = .ok ((L.cycles k).openNext ok) := by
  have hcur : (L.cycles k).current = none := hc
  rw [repeatStep_add, toggles_even hc k hok]
  change repeatStep (toggle ok) 1 (L.cycles k) = _
  rw [repeatStep_one, toggle_none hcur]

/-- The state after `n` toggles that begin with no current window. -/
def toggled (ok : FrameId → Bool) (n : Nat) (L : Lifecycle) : Lifecycle :=
  if n % 2 = 0 then L.cycles (n / 2) else (L.cycles (n / 2)).openNext ok

theorem toggles_ok (hc : L.current = none) (n : Nat)
    (hok : ∀ j, 2 * j + 2 ≤ n → ok (L.next + j) = true) :
    repeatStep (toggle ok) n L = .ok (L.toggled ok n) := by
  have hok' (j : Nat) (hj : j < n / 2) : ok (L.next + j) = true := hok j (by omega)
  unfold toggled
  split
  next hn =>
    have heven := toggles_even hc (n / 2) hok'
    have hdiv : 2 * (n / 2) = n := by omega
    rwa [hdiv] at heven
  next hn =>
    have hodd := toggles_odd hc (n / 2) hok'
    have hdiv : 2 * (n / 2) + 1 = n := by omega
    rwa [hdiv] at hodd

end

end Lifecycle

end SonarPlugin
