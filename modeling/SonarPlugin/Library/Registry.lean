import Mathlib.Data.List.Nodup

namespace SonarPlugin.Library

variable {α : Type} {key : α → Nat} {next k : Nat} {x : α} {xs : List α}

/-- A list whose entries have got distinct keys, all of them below the next. -/
structure Registered (key : α → Nat) (next : Nat) (xs : List α) : Prop where
  distinct : (xs.map key).Nodup
  below : ∀ x ∈ xs, key x < next

namespace Registered

theorem nil : Registered key next [] := ⟨List.nodup_nil, by simp⟩

theorem insert (h : Registered key next xs) (hx : key x = next) :
    Registered key (next + 1) (xs ++ [x]) where
  distinct := by
    rw [List.map_append, List.nodup_append]
    refine ⟨h.distinct, List.nodup_singleton _, fun a ha b hb => ?_⟩
    obtain ⟨y, hy, rfl⟩ := List.mem_map.mp ha
    obtain rfl : b = key x := by simpa using hb
    rw [hx]
    exact Nat.ne_of_lt (h.below y hy)
  below y hy := by
    obtain hy | hy := List.mem_append.mp hy
    · exact Nat.lt_succ_of_lt (h.below y hy)
    · rw [List.mem_singleton.mp hy, hx]
      exact Nat.lt_succ_self next

theorem remove (h : Registered key next xs) (k : Nat) :
    Registered key next (xs.filter fun y => key y ≠ k) where
  distinct := h.distinct.sublist (List.filter_sublist.map key)
  below y hy := h.below y (List.mem_filter.mp hy).1

theorem length_remove (h : Registered key next xs) (hx : x ∈ xs) :
    (xs.filter fun y => key y ≠ key x).length + 1 = xs.length := by
  have hone : xs.countP (fun y => decide (key y = key x)) = 1 := by
    have hcount := List.count_eq_one_of_mem h.distinct (List.mem_map_of_mem hx)
    rw [List.count, List.countP_map] at hcount
    exact hcount
  have hsplit := List.length_eq_countP_add_countP (fun y => decide (key y = key x)) (l := xs)
  rw [hone] at hsplit
  rw [← List.countP_eq_length_filter, hsplit, Nat.add_comm]
  simp

end Registered

end SonarPlugin.Library
