import Mathlib.Data.List.Induction
import Mathlib.Data.List.ReduceOption
import Mathlib.Logic.Function.Iterate
import Mathlib.Algebra.Group.Nat.Even
import Mathlib.Tactic.Cases

namespace SonarPlugin.Library

variable {σ ε φ α : Type}

theorem bind_eq_ok {β : Type} {x : Except φ α} {f : α → Except φ β} {b : β} :
    (x >>= f) = .ok b ↔ ∃ a, x = .ok a ∧ f a = .ok b := by
  cases x with
  | error e => constructor <;> simp [bind, Except.bind]
  | ok a => simp [bind, Except.bind]

/-- If the result is a fault, then one of those in `P`. -/
def FaultsIn (P : φ → Prop) (r : Except φ α) : Prop := ∀ x, r = .error x → P x

namespace FaultsIn

variable {β : Type} {P : φ → Prop}

theorem ok (a : α) : FaultsIn P (.ok a) := fun x h => (by cases h)

theorem error {x : φ} (hx : P x) : FaultsIn P (.error x : Except φ α) := by
  rintro y ⟨⟩
  exact hx

theorem bind {r : Except φ α} {f : α → Except φ β} (hr : FaultsIn P r)
    (hf : ∀ a, FaultsIn P (f a)) : FaultsIn P (r >>= f) := by
  cases r with
  | error e => exact error (hr e rfl)
  | ok a => exact hf a

end FaultsIn

theorem prepended_trans {P : α → Prop} {xs ys zs : List α}
    (h : ∃ cs, ys = cs ++ xs ∧ ∀ c ∈ cs, P c) (h' : ∃ ds, zs = ds ++ ys ∧ ∀ d ∈ ds, P d) :
    ∃ es, zs = es ++ xs ∧ ∀ e ∈ es, P e := by
  obtain ⟨cs, rfl, hcs⟩ := h
  obtain ⟨ds, rfl, hds⟩ := h'
  refine ⟨ds ++ cs, by rw [List.append_assoc], fun e he => ?_⟩
  obtain he | he := List.mem_append.mp he
  · exact hds e he
  · exact hcs e he

/-- A deterministic machine whose steps may fault. The relation `allowed`
says which events can arrive in a state; a fault ends the run. -/
structure System (σ ε φ : Type) where
  allowed : σ → ε → Prop
  step : ε → σ → Except φ σ

namespace System

inductive Run (M : System σ ε φ) (s : σ) : List ε → σ → Prop
  | nil : Run M s [] s
  | snoc {es : List ε} {e : ε} {t u : σ} (run : Run M s es t) (ha : M.allowed t e)
      (hs : M.step e t = .ok u) : Run M s (es ++ [e]) u

def restrict (M : System σ ε φ) (C : σ → ε → Prop) : System σ ε φ where
  allowed s e := M.allowed s e ∧ C s e
  step := M.step

variable {M : System σ ε φ} {C : σ → ε → Prop} {s t u : σ} {es fs : List ε}

namespace Run

theorem single {e : ε} (ha : M.allowed s e) (hs : M.step e s = .ok t) : M.Run s [e] t :=
  .snoc .nil ha hs

theorem invariant (P : σ → Prop) (h0 : P s)
    (hstep : ∀ t e u, P t → M.allowed t e → M.step e t = .ok u → P u)
    (h : M.Run s es t) : P t := by
  induction h with
  | nil => exact h0
  | snoc _ ha hs ih => exact hstep _ _ _ ih ha hs

/-- Refinement along a run: an abstract state updated by `spec` stays
related to the concrete one. -/
theorem refines (spec : α → ε → α) (R : σ → α → Prop) {a : α} (h0 : R s a)
    (hstep : ∀ t b e u, R t b → M.allowed t e → M.step e t = .ok u → R u (spec b e))
    (h : M.Run s es t) : R t (es.foldl spec a) := by
  induction h with
  | nil => exact h0
  | snoc _ ha hs ih =>
    rw [List.foldl_append]
    exact hstep _ _ _ _ ih ha hs

theorem of_restrict (h : (M.restrict C).Run s es t) : M.Run s es t := by
  induction h with
  | nil => exact .nil
  | snoc _ ha hs ih => exact .snoc ih ha.1 hs

theorem to_restrict (h : M.Run s es t) (hC : ∀ u, ∀ e ∈ es, C u e) :
    (M.restrict C).Run s es t := by
  induction h with
  | nil => exact .nil
  | snoc _ ha hs ih =>
    refine .snoc (ih fun u e he => hC u e (List.mem_append_left _ he)) ⟨ha, ?_⟩ hs
    exact hC _ _ (List.mem_append_right _ (List.mem_singleton_self _))

theorem append (h : M.Run s es t) (h' : M.Run t fs u) : M.Run s (es ++ fs) u := by
  induction h' with
  | nil => simpa using h
  | snoc _ ha hs ih =>
    rw [← List.append_assoc]
    exact .snoc ih ha hs

theorem unsnoc {e : ε} (h : M.Run s (es ++ [e]) u) :
    ∃ t, M.Run s es t ∧ M.allowed t e ∧ M.step e t = .ok u := by
  generalize hfs : es ++ [e] = fs at h
  cases h with
  | nil => simp at hfs
  | @snoc es' e' t u run ha hs =>
    obtain ⟨rfl, he⟩ := List.append_inj' hfs rfl
    obtain rfl : e = e' := by simpa using he
    exact ⟨t, run, ha, hs⟩

theorem split (h : M.Run s (es ++ fs) u) : ∃ t, M.Run s es t ∧ M.Run t fs u := by
  induction fs using List.reverseRecOn generalizing u with
  | nil => exact ⟨u, by simpa using h, .nil⟩
  | append_singleton fs f ih =>
    rw [← List.append_assoc] at h
    obtain ⟨v, hv, ha, hs⟩ := h.unsnoc
    obtain ⟨t, ht, hrest⟩ := ih hv
    exact ⟨t, ht, hrest.snoc ha hs⟩

theorem eq_of_nil (h : M.Run s [] t) : t = s := by
  generalize hes : [] = es at h
  cases h with
  | nil => rfl
  | snoc => simp at hes

theorem single_iff {e : ε} : M.Run s [e] t ↔ M.allowed s e ∧ M.step e s = .ok t := by
  constructor
  · intro h
    have h' : M.Run s ([] ++ [e]) t := h
    obtain ⟨u, hu, ha, hs⟩ := h'.unsnoc
    obtain rfl := hu.eq_of_nil
    exact ⟨ha, hs⟩
  · rintro ⟨ha, hs⟩
    exact .single ha hs

theorem uncons {e : ε} (h : M.Run s (e :: es) u) :
    ∃ t, M.allowed s e ∧ M.step e s = .ok t ∧ M.Run t es u := by
  have h' : M.Run s ([e] ++ es) u := h
  obtain ⟨t, ht, hrest⟩ := h'.split
  obtain ⟨ha, hs⟩ := single_iff.mp ht
  exact ⟨t, ha, hs, hrest⟩

end Run

/-- Run the machine on a list of events, stopping at an event that is not
allowed or that faults. -/
def exec (M : System σ ε φ) [∀ s e, Decidable (M.allowed s e)] : List ε → σ → Option σ
  | [], s => some s
  | e :: es, s =>
    if M.allowed s e then
      match M.step e s with
      | .ok t => exec M es t
      | .error _ => none
    else none

theorem run_of_exec [∀ s e, Decidable (M.allowed s e)] (h : M.exec es s = some t) :
    M.Run s es t := by
  induction es generalizing s with
  | nil =>
    obtain rfl : s = t := by simpa [exec] using h
    exact .nil
  | cons e es ih =>
    by_cases ha : M.allowed s e
    · cases hs : M.step e s with
      | error x => simp [exec, ha, hs] at h
      | ok v =>
        have hv : M.exec es v = some t := by simpa [exec, ha, hs] using h
        exact (Run.single ha hs).append (ih hv)
    · simp [exec, ha] at h

theorem exists_run_of_exec (M : System σ ε φ) [∀ s e, Decidable (M.allowed s e)] (s : σ)
    (es : List ε) (p : σ → Bool) (h : (M.exec es s).any p = true) :
    ∃ t, M.Run s es t ∧ p t = true := by
  cases ht : M.exec es s with
  | none => simp [ht] at h
  | some t => exact ⟨t, run_of_exec ht, by simpa [ht] using h⟩

/-- The machine with a copy of part of its state, which is brought up to date
at each `none`. -/
def copied {δ : Type} (M : System σ ε φ) (part : σ → δ) : System (σ × δ) (Option ε) φ where
  allowed s
    | none => True
    | some e => M.allowed s.1 e
  step
    | none, s => .ok (s.1, part s.1)
    | some e, s => (M.step e s.1).map fun t => (t, s.2)

instance {δ : Type} (M : System σ ε φ) [∀ s e, Decidable (M.allowed s e)] (part : σ → δ)
    (s : σ × δ) (e : Option ε) : Decidable ((M.copied part).allowed s e) :=
  match e with
  | none => isTrue trivial
  | some e => inferInstanceAs (Decidable (M.allowed s.1 e))

namespace Run

variable {δ : Type} {part : σ → δ} {p q : σ × δ} {xs : List (Option ε)} {x : Option ε}

theorem copied_step (hs : (M.copied part).step x p = .ok q) :
    (x = none ∧ q = (p.1, part p.1)) ∨
      ∃ e, x = some e ∧ M.step e p.1 = .ok q.1 ∧ q.2 = p.2 := by
  cases x with
  | none =>
    cases hs
    exact .inl ⟨rfl, rfl⟩
  | some e =>
    refine .inr ⟨e, rfl, ?_⟩
    change (M.step e p.1).map _ = .ok q at hs
    cases hr : M.step e p.1 with
    | error y =>
      rw [hr] at hs
      cases hs
    | ok t =>
      rw [hr] at hs
      cases hs
      exact ⟨rfl, rfl⟩

theorem of_copied (h : (M.copied part).Run p xs q) : M.Run p.1 xs.reduceOption q.1 := by
  induction h with
  | nil => exact .nil
  | @snoc xs x q r _ ha hs ih =>
    rw [List.reduceOption_append, List.reduceOption_singleton]
    obtain ⟨rfl, rfl⟩ | ⟨e, rfl, hs, -⟩ := copied_step hs
    · rw [Option.toList_none, List.append_nil]
      exact ih
    · exact ih.snoc ha hs

theorem copied_kept (h : (M.copied part).Run p xs q) (hxs : none ∉ xs) : q.2 = p.2 := by
  induction h with
  | nil => rfl
  | @snoc xs x q r _ _ hs ih =>
    rw [List.mem_append, not_or] at hxs
    obtain ⟨rfl, -⟩ | ⟨e, -, -, hcopy⟩ := copied_step hs
    · simp at hxs
    · exact hcopy.trans (ih hxs.1)

/-- The copy shows the state at the last of the times it was made. -/
theorem copied_last {ys : List (Option ε)} (h : (M.copied part).Run p (xs ++ none :: ys) q)
    (hys : none ∉ ys) :
    ∃ u, M.Run p.1 xs.reduceOption u ∧ M.Run u ys.reduceOption q.1 ∧ q.2 = part u := by
  obtain ⟨r, hr, hrest⟩ := h.split
  obtain ⟨v, -, hs, hlast⟩ := hrest.uncons
  obtain ⟨-, rfl⟩ | ⟨e, hnone, -⟩ := copied_step hs
  · exact ⟨r.1, hr.of_copied, hlast.of_copied, hlast.copied_kept hys⟩
  · cases hnone

end Run

end System

def repeatStep (f : σ → Except φ σ) : Nat → σ → Except φ σ
  | 0, s => .ok s
  | n + 1, s => f s >>= repeatStep f n

variable {f : σ → Except φ σ} {s t : σ} {n : Nat}

theorem repeatStep_one : repeatStep f 1 s = f s := by
  cases h : f s <;> simp [repeatStep, h, bind, Except.bind]

theorem repeatStep_faultsIn {P : φ → Prop} (hf : ∀ s, FaultsIn P (f s)) (n : Nat) (s : σ) :
    FaultsIn P (repeatStep f n s) := by
  induction n generalizing s with
  | zero => exact .ok s
  | succ n ih => exact .bind (hf s) ih

theorem repeatStep_invariant (P : σ → Prop) (hf : ∀ s t, P s → f s = .ok t → P t) (h0 : P s)
    (h : repeatStep f n s = .ok t) : P t := by
  induction n generalizing s with
  | zero =>
    obtain rfl : s = t := by simpa [repeatStep] using h
    exact h0
  | succ n ih =>
    obtain ⟨u, hu, ht⟩ := bind_eq_ok.mp h
    exact ih (hf s u h0 hu) ht

theorem repeatStep_refines (R : σ → α → Prop) (g : α → α)
    (hf : ∀ s t a, R s a → f s = .ok t → R t (g a)) {a : α} (h0 : R s a)
    (h : repeatStep f n s = .ok t) : R t (g^[n] a) := by
  induction n generalizing s a with
  | zero =>
    obtain rfl : s = t := by simpa [repeatStep] using h
    exact h0
  | succ n ih =>
    obtain ⟨u, hu, ht⟩ := bind_eq_ok.mp h
    rw [Function.iterate_succ_apply]
    exact ih (hf s u a h0 hu) ht

theorem repeatStep_count (c : σ → Nat) (hf : ∀ s t, f s = .ok t → c t = c s + 1)
    (h : repeatStep f n s = .ok t) : c t = c s + n := by
  induction n generalizing s with
  | zero =>
    obtain rfl : s = t := by simpa [repeatStep] using h
    rfl
  | succ n ih =>
    obtain ⟨u, hu, ht⟩ := bind_eq_ok.mp h
    rw [ih ht, hf s u hu]
    omega

/-- An operation that negates `b` leaves it as it was after an even number
of rounds, and only then. -/
theorem repeatStep_flip (P b : σ → Prop)
    (hf : ∀ s t, P s → f s = .ok t → P t ∧ (b t ↔ ¬ b s)) (h0 : P s)
    (h : repeatStep f n s = .ok t) : (b t ↔ b s) ↔ Even n := by
  induction n generalizing s with
  | zero =>
    obtain rfl : s = t := by simpa [repeatStep] using h
    simp
  | succ n ih =>
    obtain ⟨u, hu, ht⟩ := bind_eq_ok.mp h
    obtain ⟨hp, hb⟩ := hf s u h0 hu
    rw [Nat.even_add_one, ← ih hp ht, hb]
    tauto

/-- The state in which a log, newest entry first, leaves an automaton, if the
automaton accepts every entry in its turn. -/
def reached (next : σ → α → Option σ) (start : σ) : List α → Option σ
  | [] => some start
  | a :: log => (reached next start log).bind fun s => next s a

section

variable {next : σ → α → Option σ} {start : σ} {log : List α} {a : α}

theorem reached_cons (h : reached next start log = some s) :
    reached next start (a :: log) = next s a := by
  rw [reached, h, Option.bind_some]

theorem reached_append (h : reached next start log = some s) (entries : List α)
    (hloop : ∀ a ∈ entries, next s a = some s) :
    reached next start (entries ++ log) = some s := by
  induction entries with
  | nil => exact h
  | cons a entries ih =>
    have hrest := ih fun a ha => hloop a (List.mem_cons_of_mem _ ha)
    exact (reached_cons hrest).trans (hloop a (List.mem_cons_self ..))

end

end SonarPlugin.Library
