import Mathlib.Data.Finset.Card
import Mathlib.Algebra.Order.Group.Multiset
import Mathlib.Tactic.Abel
import SonarPlugin.Library.Pointer
import Mathlib.Data.Finset.SDiff
import Mathlib.Data.Finset.Range

namespace SonarPlugin.Library

/-- Handles are issued in order, so the allocated ones are those below
`next`. Only an allocated handle can have been released. -/
structure Ledger where
  next : Nat
  released : Finset Nat
  released_lt : ∀ h ∈ released, h < next
deriving DecidableEq

structure Owned (α : Type) where
  handle : Nat
  value : α
deriving DecidableEq, Repr

namespace Ledger

def empty : Ledger := ⟨0, ∅, by simp⟩

def allocated (L : Ledger) : Finset Nat := Finset.range L.next

def live (L : Ledger) : Finset Nat := L.allocated \ L.released

def alloc (L : Ledger) : Ledger where
  next := L.next + 1
  released := L.released
  released_lt h hh := Nat.lt_succ_of_lt (L.released_lt h hh)

/-- Release a handle. A handle that was never issued is ignored. -/
def release (L : Ledger) (h : Nat) : Ledger where
  next := L.next
  released := if h < L.next then insert h L.released else L.released
  released_lt k hk := by
    split at hk
    next hh =>
      obtain rfl | hk := Finset.mem_insert.mp hk
      · exact hh
      · exact L.released_lt k hk
    next => exact L.released_lt k hk

variable {L : Ledger} {h k : Nat}

theorem mem_live : h ∈ L.live ↔ h < L.next ∧ h ∉ L.released := by
  simp [live, allocated]

theorem lt_next_of_mem_live (hh : h ∈ L.live) : h < L.next := (mem_live.mp hh).1

theorem next_not_mem_live : L.next ∉ L.live := fun hh => (lt_next_of_mem_live hh).false

theorem live_alloc : L.alloc.live = insert L.next L.live := by
  ext k
  have hn : L.next ∉ L.released := fun hr => (L.released_lt _ hr).false
  simp only [Finset.mem_insert, mem_live, alloc]
  constructor
  · rintro ⟨hk, hr⟩
    obtain rfl | hlt := Nat.eq_or_lt_of_le (Nat.lt_succ_iff.mp hk)
    · exact .inl rfl
    · exact .inr ⟨hlt, hr⟩
  · rintro (rfl | ⟨hk, hr⟩)
    · exact ⟨Nat.lt_succ_self _, hn⟩
    · exact ⟨Nat.lt_succ_of_lt hk, hr⟩

theorem live_release : (L.release h).live = L.live.erase h := by
  ext k
  simp only [Finset.mem_erase, mem_live, release]
  split
  next => simp only [Finset.mem_insert, not_or]; tauto
  next hh =>
    constructor
    · rintro ⟨hk, hr⟩
      exact ⟨fun he => hh (he ▸ hk), hk, hr⟩
    · exact And.right

/-- The live handles are exactly those of `m`. A handle held twice would
occur twice in `m`, so this also says that no two holders share one. -/
def Owns (L : Ledger) (m : Multiset Nat) : Prop := L.live.val = m

theorem Owns.congr {m n : Multiset Nat} (hL : L.Owns m) (hmn : m = n) : L.Owns n := hmn ▸ hL

theorem Owns.alloc {m : Multiset Nat} (hL : L.Owns m) : L.alloc.Owns (m + {L.next}) := by
  unfold Owns at hL ⊢
  rw [live_alloc, Finset.insert_val_of_notMem next_not_mem_live, hL, add_comm,
    Multiset.singleton_add]

theorem Owns.release {m : Multiset Nat} (hL : L.Owns (m + {h})) : (L.release h).Owns m := by
  unfold Owns at hL ⊢
  rw [live_release, Finset.erase_val, hL, add_comm, Multiset.singleton_add,
    Multiset.erase_cons_head]

theorem Owns.card {m : Multiset Nat} (hL : L.Owns m) : L.live.card = m.card :=
  congrArg Multiset.card hL

end Ledger

def Ptr.handles {α : Type} : Ptr (Owned α) → Multiset Nat
  | .live o => {o.handle}
  | _ => 0

@[simp] theorem Ptr.handles_live {α : Type} (o : Owned α) :
    (Ptr.live o).handles = {o.handle} := rfl

@[simp] theorem Ptr.handles_null {α : Type} : (Ptr.null : Ptr (Owned α)).handles = 0 := rfl

@[simp] theorem Ptr.handles_dangling {α : Type} :
    (Ptr.dangling : Ptr (Owned α)).handles = 0 := rfl

end SonarPlugin.Library
