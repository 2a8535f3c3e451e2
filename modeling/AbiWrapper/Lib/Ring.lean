import Mathlib.Data.Nat.ModEq
import Mathlib.Algebra.Order.BigOperators.Group.Finset
import Mathlib.Algebra.Order.Ring.Int

/-!
# Probe sequences on a ring of slots

An open-addressing table with linear probing visits the slots
`home, home + 1, …` modulo its size. What the proofs about such a table need is
here: every slot is visited at exactly one distance from the home, one probe
moves one distance further, and a sum of indicators over the parties of a
system moves by one when one party's indicator does.
-/

namespace AbiWrapper.Lib

/-- The slot at distance `d` from `home` on a ring of `n` slots. -/
def ringSlot (n home d : Nat) : Nat := (home + d) % n

theorem ringSlot_lt {n home d : Nat} (hn : 0 < n) : ringSlot n home d < n :=
  Nat.mod_lt _ hn

theorem ringSlot_zero {n home : Nat} (h : home < n) : ringSlot n home 0 = home :=
  Nat.mod_eq_of_lt h

theorem ringSlot_succ {n home d : Nat} :
    (ringSlot n home d + 1) % n = ringSlot n home (d + 1) := by
  rw [ringSlot, ringSlot, Nat.mod_add_mod, Nat.add_assoc]

/-- Two distances below the ring's size that reach one slot are one distance. -/
theorem ringSlot_inj {n home d e : Nat} (hd : d < n) (he : e < n)
    (h : ringSlot n home d = ringSlot n home e) : d = e := by
  have hmod : d ≡ e [MOD n] := Nat.ModEq.add_left_cancel' home h
  exact Nat.ModEq.eq_of_lt_of_lt hmod hd he

theorem ringSlot_surj {n slot : Nat} (home : Nat) (hs : slot < n) :
    ∃ d, d < n ∧ ringSlot n home d = slot := by
  have hn : 0 < n := by omega
  refine ⟨(slot + (n - home % n)) % n, Nat.mod_lt _ hn, ?_⟩
  have hh : home % n < n := Nat.mod_lt _ hn
  have hsum : home % n + (slot + (n - home % n)) = slot + n := by omega
  rw [ringSlot, Nat.add_mod_mod, ← Nat.mod_add_mod, hsum, Nat.add_mod_right,
    Nat.mod_eq_of_lt hs]

/-- How many of the first `n` parties satisfy `p`. -/
def countBelow (n : Nat) (p : Nat → Bool) : Int :=
  ∑ i ∈ Finset.range n, if p i then 1 else 0

theorem countBelow_congr {n : Nat} {p q : Nat → Bool} (h : ∀ i, i < n → p i = q i) :
    countBelow n p = countBelow n q := by
  refine Finset.sum_congr rfl fun i hi => ?_
  rw [h i (Finset.mem_range.mp hi)]

/-- Changing one party's indicator changes the count by that one. -/
theorem countBelow_update {n i : Nat} {p q : Nat → Bool} (hi : i < n)
    (h : ∀ j, j ≠ i → q j = p j) :
    countBelow n q = countBelow n p - (if p i then 1 else 0) + (if q i then 1 else 0) := by
  have hm : i ∈ Finset.range n := Finset.mem_range.mpr hi
  rw [countBelow, countBelow, ← Finset.add_sum_erase _ _ hm,
    ← Finset.add_sum_erase (Finset.range n) (fun j => if p j then (1 : Int) else 0) hm]
  have hrest : ∑ j ∈ (Finset.range n).erase i, (if q j then (1 : Int) else 0) =
      ∑ j ∈ (Finset.range n).erase i, (if p j then (1 : Int) else 0) :=
    Finset.sum_congr rfl fun j hj => by rw [h j (Finset.ne_of_mem_erase hj)]
  rw [hrest]
  omega

theorem countBelow_succ {n : Nat} {p : Nat → Bool} :
    countBelow (n + 1) p = countBelow n p + (if p n then 1 else 0) :=
  Finset.sum_range_succ _ _

theorem countBelow_pos {n i : Nat} {p : Nat → Bool} (hi : i < n) (hp : p i = true) :
    0 < countBelow n p := by
  refine Finset.sum_pos' (fun j _ => ?_) ⟨i, Finset.mem_range.mpr hi, ?_⟩
  · split <;> omega
  · rw [hp]; exact Int.one_pos

end AbiWrapper.Lib
