import SonarPlugin.Library.Abstraction

namespace SonarPlugin.Library

variable {σ ε φ : Type}

/-- What `view` shows of `f s` depends on nothing but what it shows of `s`. -/
def Seen (view f : σ → σ) : Prop := ∀ s, view (f (view s)) = view (f s)

namespace Seen

variable {view f g : σ → σ}

theorem congr {s t : σ} (hf : Seen view f) (h : view s = view t) : view (f s) = view (f t) := by
  rw [← hf s, h, hf t]

theorem comp (hg : Seen view g) (hf : Seen view f) : Seen view fun s => g (f s) :=
  fun s => hg.congr (hf s)

theorem ite {c : σ → Prop} [∀ s, Decidable (c s)] (hc : ∀ s, c (view s) ↔ c s) (hf : Seen view f)
    (hg : Seen view g) : Seen view fun s => if c s then f s else g s := by
  intro s
  dsimp only
  by_cases h : c s
  · rw [if_pos h, if_pos ((hc s).mpr h)]
    exact hf s
  · rw [if_neg h, if_neg fun h' => h ((hc s).mp h')]
    exact hg s

end Seen

/-- The same for a step that may fault. -/
def Sees (view : σ → σ) (f : σ → Except φ σ) : Prop := ∀ s, (f (view s)).map view = (f s).map view

namespace Sees

variable {view : σ → σ} {f g : σ → Except φ σ}

theorem ok {h : σ → σ} (hh : Seen view h) : Sees view (fun s => (.ok (h s) : Except φ σ)) :=
  fun s => congrArg Except.ok (hh s)

theorem congr {s t : σ} (hf : Sees view f) (h : view s = view t) :
    (f s).map view = (f t).map view := by
  rw [← hf s, h, hf t]

theorem bind_congr {r r' : Except φ σ} (hg : Sees view g) (h : r.map view = r'.map view) :
    (r >>= g).map view = (r' >>= g).map view := by
  have hview (r : Except φ σ) :
      (r >>= g).map view = (r.map view) >>= fun t => (g t).map view := by
    cases r with
    | error x => rfl
    | ok t => exact (hg t).symm
  rw [hview, h, ← hview]

theorem bind (hf : Sees view f) (hg : Sees view g) : Sees view fun s => f s >>= g :=
  fun s => hg.bind_congr (hf s)

theorem ite {c : σ → Prop} [∀ s, Decidable (c s)] (hc : ∀ s, c (view s) ↔ c s)
    (hf : Sees view f) (hg : Sees view g) : Sees view fun s => if c s then f s else g s := by
  intro s
  dsimp only
  by_cases h : c s
  · rw [if_pos h, if_pos ((hc s).mpr h)]
    exact hf s
  · rw [if_neg h, if_neg fun h' => h ((hc s).mp h')]
    exact hg s

theorem repeated (hview : ∀ s, view (view s) = view s) (hf : Sees view f) (n : Nat) :
    Sees view (repeatStep f n) := by
  induction n with
  | zero => exact ok hview
  | succ n ih => exact hf.bind ih

end Sees

namespace System

theorem Run.unique {M : System σ ε φ} {s t u : σ} {es : List ε} (h : M.Run s es t)
    (h' : M.Run s es u) : t = u := by
  induction h generalizing u with
  | nil => exact h'.eq_of_nil.symm
  | @snoc es e t v _ _ hs ih =>
    obtain ⟨t', ht', -, hs'⟩ := h'.unsnoc
    obtain rfl := ih ht'
    exact Except.ok.inj (hs.symm.trans hs')

/-- The events of kind `hidden` change nothing that `view` shows, and every
other event depends on nothing else, in the states where `I` holds. -/
structure Unseen (M : System σ ε φ) (I : σ → Prop) (hidden : ε → Bool) (view : σ → σ) : Prop where
  keeps : ∀ s e t, I s → M.allowed s e → M.step e s = .ok t → I t
  unseen : ∀ s e t, I s → hidden e = true → M.allowed s e → M.step e s = .ok t → view t = view s
  allowed : ∀ s t e, I s → I t → hidden e = false → view s = view t →
    (M.allowed s e ↔ M.allowed t e)
  step : ∀ s t e, I s → I t → hidden e = false → M.allowed s e → view s = view t →
    (M.step e s).map view = (M.step e t).map view

namespace Unseen

variable {M : System σ ε φ} {I : σ → Prop} {hidden : ε → Bool} {view : σ → σ} {s s' t t' : σ}
  {es es' : List ε} {e : ε}

theorem run_keeps (h : M.Unseen I hidden view) (hs : I s) (hrun : M.Run s es t) : I t :=
  hrun.invariant I hs h.keeps

/-- A run goes through without its hidden events, and ends where `view`
shows no difference. -/
theorem purge (h : M.Unseen I hidden view) (hs : I s) (hs' : I s') (hview : view s = view s')
    (hrun : M.Run s es t) : ∃ t', M.Run s' (es.filter fun e => !hidden e) t' ∧ view t = view t' := by
  induction hrun with
  | nil => exact ⟨s', .nil, hview⟩
  | @snoc es e t u hrun ha hstep ih =>
    obtain ⟨t', hrun', ht'⟩ := ih
    have hIt := h.run_keeps hs hrun
    have hIt' := h.run_keeps hs' hrun'
    rw [List.filter_append]
    cases he : hidden e with
    | true =>
      refine ⟨t', ?_, (h.unseen t e u hIt he ha hstep).trans ht'⟩
      simpa [he] using hrun'
    | false =>
      have hsame := h.step t t' e hIt hIt' he ha ht'
      rw [hstep] at hsame
      obtain ⟨u', hu', hview'⟩ := map_eq_ok.mp hsame.symm
      have hrun'' := hrun'.snoc ((h.allowed t t' e hIt hIt' he ht').mp ha) hu'
      exact ⟨u', by simpa [he] using hrun'', hview'.symm⟩

theorem same_view (h : M.Unseen I hidden view) (hs : I s) (hs' : I s') (hview : view s = view s')
    (hrun : M.Run s es t) (hrun' : M.Run s' es' t')
    (hes : (es.filter fun e => !hidden e) = es'.filter fun e => !hidden e) : view t = view t' := by
  obtain ⟨u, hu, htu⟩ := h.purge hs hs' hview hrun
  obtain ⟨u', hu', htu'⟩ := h.purge hs' hs' rfl hrun'
  rw [hes] at hu
  rw [htu, htu', hu.unique hu']

end Unseen

end System

end SonarPlugin.Library
