import SonarPlugin.Library.Ledger
import Mathlib.Data.List.Nodup
import Mathlib.Data.List.Range
import Mathlib.Data.Finset.Option

namespace SonarPlugin.Library.Ledger

/-- One holder has obtained all the handles of the ledger, in `xs` with the
newest first, and has given back once each, in `ys`, all but the one it may
still hold, which is the newest. -/
structure Custody (L : Ledger) (xs ys : List Nat) (held : Option Nat) : Prop where
  obtained : xs = (List.range L.next).reverse
  newest : ∀ k, held = some k → xs.head? = some k
  live : L.live = held.toFinset
  released : ∀ k, ys.count k = if k ∈ L.released then 1 else 0

namespace Custody

variable {L : Ledger} {xs ys : List Nat} {held : Option Nat} {h k : Nat}

theorem empty : Ledger.empty.Custody [] [] none := by
  refine ⟨rfl, by simp, ?_, ?_⟩
  · ext k
    simp [mem_live, Ledger.empty]
  · simp [Ledger.empty]

theorem release (hL : L.Custody xs ys (some h)) : (L.release h).Custody xs (h :: ys) none := by
  have hlive : h ∈ L.live := by
    rw [hL.live]
    simp
  obtain ⟨hlt, hnew⟩ := mem_live.mp hlive
  refine ⟨hL.obtained, by simp, ?_, ?_⟩
  · rw [live_release, hL.live]
    simp
  · intro k
    have hrel : (L.release h).released = insert h L.released := if_pos hlt
    simp only [hrel, Finset.mem_insert]
    by_cases hkh : k = h
    · subst hkh
      rw [List.count_cons_self, hL.released, if_neg hnew]
      simp
    · rw [List.count_cons_of_ne (Ne.symm hkh), hL.released]
      simp [hkh]

theorem obtain_fresh (hL : L.Custody xs ys none) :
    L.alloc.Custody (L.next :: xs) ys (some L.next) := by
  refine ⟨?_, ?_, ?_, hL.released⟩
  · rw [hL.obtained]
    change L.next :: (List.range L.next).reverse = (List.range (L.next + 1)).reverse
    rw [List.range_succ, List.reverse_append]
    simp
  · rintro k ⟨⟩
    rfl
  · rw [live_alloc, hL.live]
    rfl

theorem nodup (hL : L.Custody xs ys held) : xs.Nodup := by
  rw [hL.obtained, List.nodup_reverse]
  exact List.nodup_range

theorem mem_live_iff (hL : L.Custody xs ys held) : k ∈ L.live ↔ held = some k := by
  rw [hL.live]
  simp

theorem count_released (hL : L.Custody xs ys held) :
    ys.count k = if k ∈ xs ∧ held ≠ some k then 1 else 0 := by
  have hmem : k ∈ xs ↔ k < L.next := by
    rw [hL.obtained]
    simp
  have hrel : k ∈ L.released ↔ k ∈ xs ∧ held ≠ some k := by
    rw [hmem, ne_eq, ← hL.mem_live_iff, mem_live]
    constructor
    · intro hk
      exact ⟨L.released_lt k hk, fun hlive => hlive.2 hk⟩
    · rintro ⟨hlt, hk⟩
      by_contra hnew
      exact hk ⟨hlt, hnew⟩
  rw [hL.released]
  simp only [hrel]

end Custody

end SonarPlugin.Library.Ledger
