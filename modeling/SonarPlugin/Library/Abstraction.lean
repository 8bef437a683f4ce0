import SonarPlugin.Library.System

namespace SonarPlugin.Library

variable {σ τ ε φ α β γ : Type}

theorem map_eq_ok {r : Except φ α} {f : α → β} {b : β} :
    r.map f = .ok b ↔ ∃ a, r = .ok a ∧ f a = b := by
  cases r with
  | error x => simp [Except.map]
  | ok a => simp [Except.map]

theorem map_eq_error {r : Except φ α} {f : α → β} {x : φ} :
    r.map f = .error x ↔ r = .error x := by
  cases r with
  | error y => simp [Except.map]
  | ok a => simp [Except.map]

theorem map_bind (r : Except φ α) (k : α → Except φ β) (f : β → γ) :
    (r >>= k).map f = r >>= fun a => (k a).map f := by
  cases r <;> rfl

theorem repeatStep_add (f : σ → Except φ σ) (m n : Nat) (s : σ) :
    repeatStep f (m + n) s = repeatStep f m s >>= repeatStep f n := by
  induction m generalizing s with
  | zero => rw [Nat.zero_add]; rfl
  | succ m ih =>
    rw [Nat.succ_add, repeatStep, repeatStep]
    cases hr : f s with
    | error x => rfl
    | ok t => exact ih t

theorem repeatStep_map {P : σ → Prop} {f : σ → Except φ σ} {g : τ → Except φ τ} {abs : σ → τ}
    (hP : ∀ s t, P s → f s = .ok t → P t) (hf : ∀ s, P s → g (abs s) = (f s).map abs)
    (n : Nat) {s : σ} (hs : P s) :
    repeatStep g n (abs s) = (repeatStep f n s).map abs := by
  induction n generalizing s with
  | zero => rfl
  | succ n ih =>
    rw [repeatStep, repeatStep, map_bind, hf s hs]
    cases hr : f s with
    | error x => rfl
    | ok t => exact ih (hP s t hs hr)

namespace System

/-- In the states where `I` holds, machine `N` is all that `abs` shows of
machine `M`: the same events can arrive, and each ends the same way. -/
structure Shows (M : System σ ε φ) (N : System τ ε φ) (I : σ → Prop) (abs : σ → τ) : Prop where
  allowed : ∀ s e, I s → (N.allowed (abs s) e ↔ M.allowed s e)
  step : ∀ s e, I s → M.allowed s e → N.step e (abs s) = (M.step e s).map abs
  keeps : ∀ s e t, I s → M.allowed s e → M.step e s = .ok t → I t

namespace Shows

variable {M : System σ ε φ} {N : System τ ε φ} {I : σ → Prop} {abs : σ → τ}
  {s t : σ} {u : τ} {es : List ε} {e : ε}

theorem run (h : M.Shows N I abs) (hs : I s) (hrun : M.Run s es t) :
    I t ∧ N.Run (abs s) es (abs t) := by
  induction hrun with
  | nil => exact ⟨hs, .nil⟩
  | @snoc es e t u _ ha hstep ih =>
    obtain ⟨ht, hrun'⟩ := ih
    refine ⟨h.keeps _ _ _ ht ha hstep, hrun'.snoc ((h.allowed t e ht).mpr ha) ?_⟩
    rw [h.step t e ht ha, hstep]
    rfl

theorem lift (h : M.Shows N I abs) (hs : I s) (hrun : N.Run (abs s) es u) :
    ∃ t, M.Run s es t ∧ abs t = u := by
  generalize hv : abs s = v at hrun
  induction hrun with
  | nil => exact ⟨s, .nil, hv⟩
  | @snoc es e v' u _ ha hstep ih =>
    obtain ⟨t, hrun', rfl⟩ := ih
    have ht := (h.run hs hrun').1
    have ha' := (h.allowed t e ht).mp ha
    rw [h.step t e ht ha'] at hstep
    obtain ⟨t', ht', rfl⟩ := map_eq_ok.mp hstep
    exact ⟨t', hrun'.snoc ha' ht', rfl⟩

theorem fault_iff (h : M.Shows N I abs) (hs : I s) (ha : M.allowed s e) {x : φ} :
    M.step e s = .error x ↔ N.step e (abs s) = .error x := by
  rw [h.step s e hs ha, map_eq_error]

end Shows

end System

end SonarPlugin.Library
