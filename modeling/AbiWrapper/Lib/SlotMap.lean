import Mathlib.Data.Finset.Card
import Mathlib.Logic.Function.Basic

/-!
# Tables without probing

A table whose keys each have one slot they may be in. Filling it takes a list
of entries in order: an entry whose key is there already is dropped, so the
first entry of a key is the one that stays, and an entry whose slot has another
key fails the whole fill. A filled table answers a lookup with one access.

The hash is a parameter. Nothing is asked of it — whether it is free of
collisions on a given list is what `fill` finds out.
-/

namespace AbiWrapper.Lib

variable {K V : Type} [DecidableEq K]

structure Slot (K V : Type) where
  key : K
  val : V

/-- The first entry of a key wins, and two keys in one slot fail. `stored`
counts the keys put in; without it, what is left of the table is what had been
put in before the failure. -/
def fill (hash : K → Nat) (vacant : K) :
    (Nat → Slot K V) → Nat → List (K × V) → (Nat → Slot K V) × Option Nat
  | t, stored, [] => (t, some stored)
  | t, stored, (k, v) :: rest =>
      if (t (hash k)).key = k then fill hash vacant t stored rest
      else if (t (hash k)).key ≠ vacant then (t, none)
      else fill hash vacant (Function.update t (hash k) ⟨k, v⟩) (stored + 1) rest

def slotLookup (hash : K → Nat) (t : Nat → Slot K V) (k : K) : Option V :=
  if (t (hash k)).key = k then some (t (hash k)).val else none

/-- The first entry of a key in a list. -/
def firstOf (k : K) : List (K × V) → Option V
  | [] => none
  | (k', v) :: rest => if k' = k then some v else firstOf k rest

variable {hash : K → Nat} {vacant : K} {t t' : Nat → Slot K V}

theorem slotLookup_update_self {k : K} {v : V} :
    slotLookup hash (Function.update t (hash k) ⟨k, v⟩) k = some v := by
  rw [slotLookup, Function.update_self, if_pos rfl]

/-- Putting an entry in a vacant slot changes the answer for its key alone. -/
theorem slotLookup_update_ne {k k' : K} {v : V} (hv : (t (hash k)).key = vacant)
    (hk : k' ≠ k) (hk' : k' ≠ vacant) :
    slotLookup hash (Function.update t (hash k) ⟨k, v⟩) k' = slotLookup hash t k' := by
  by_cases hs : hash k' = hash k
  · rw [slotLookup, slotLookup, hs, Function.update_self, if_neg (Ne.symm hk), hv,
      if_neg (Ne.symm hk')]
  · rw [slotLookup, slotLookup, Function.update_of_ne hs]

/-- A filled table answers with what it answered before, else with the first
entry of the key. -/
theorem fill_lookup {l : List (K × V)} {n n' : Nat}
    (h : fill hash vacant t n l = (t', some n')) {k : K} (hk : k ≠ vacant) :
    slotLookup hash t' k = (slotLookup hash t k).or (firstOf k l) := by
  induction l generalizing t n with
  | nil =>
      cases h
      rw [firstOf, Option.or_none]
  | cons e rest ih =>
      obtain ⟨k₁, v₁⟩ := e
      rw [fill] at h
      split at h
      · next halias =>
          rw [ih h, firstOf]
          split
          · next hkk =>
              subst hkk
              rw [slotLookup, if_pos halias, Option.some_or, Option.some_or]
          · rfl
      · next hne =>
          split at h
          · exact nomatch h
          · next hvac =>
              have hvac := not_not.mp hvac
              rw [ih h, firstOf]
              split
              · next hkk =>
                  subst hkk
                  rw [slotLookup_update_self, slotLookup, if_neg hne, Option.some_or,
                    Option.none_or]
              · next hkk => rw [slotLookup_update_ne hvac (Ne.symm hkk) hk]

/-- In a table filled from nothing, a lookup finds the first entry of its key
and misses when there is none. -/
theorem fill_vacant_lookup {l : List (K × V)} {n n' : Nat}
    (h : fill hash vacant t n l = (t', some n')) (ht : ∀ k, (t (hash k)).key = vacant)
    {k : K} (hk : k ≠ vacant) : slotLookup hash t' k = firstOf k l := by
  rw [fill_lookup h hk, slotLookup, ht, if_neg (Ne.symm hk), Option.none_or]

/-- A slot that is not vacant has the key of an entry that hashes to it. -/
theorem fill_owned {l : List (K × V)} {n n' : Nat} {p : Nat → Prop}
    (h : fill hash vacant t n l = (t', some n'))
    (ht : ∀ s, p s → (t s).key = vacant ∨ hash (t s).key = s) {s : Nat} (hs : p s) :
    (t' s).key = vacant ∨ hash (t' s).key = s := by
  induction l generalizing t n with
  | nil =>
      cases h
      exact ht s hs
  | cons e rest ih =>
      obtain ⟨k, v⟩ := e
      rw [fill] at h
      split at h
      · exact ih h ht
      · split at h
        · exact nomatch h
        · refine ih h fun s' hs' => ?_
          rw [Function.update_apply]
          split
          · next heq => exact .inr heq.symm
          · exact ht s' hs'

/-- The first entry of a key is the one a search through the list finds. -/
theorem firstOf_eq_find? {k : K} {l : List (K × V)} :
    firstOf k l = (l.find? fun e => e.1 = k).map Prod.snd := by
  induction l with
  | nil => rfl
  | cons e rest ih =>
      rw [firstOf, List.find?_cons]
      by_cases he : e.1 = k
      · rw [if_pos he, decide_eq_true he]
        rfl
      · rw [if_neg he, decide_eq_false he]
        exact ih

/-- If every key of a list is answered from a slot of its own below a bound,
the list has no more keys than that. -/
theorem card_keys_le {l : List (K × V)} {n : Nat} (hhash : ∀ k, hash k < n)
    (hfound : ∀ e, e ∈ l → (slotLookup hash t e.1).isSome = true) :
    (l.map Prod.fst).toFinset.card ≤ n := by
  have hkey : ∀ k, k ∈ (l.map Prod.fst).toFinset → (t (hash k)).key = k := by
    intro k hk
    obtain ⟨e, he, rfl⟩ := List.mem_map.mp (List.mem_toFinset.mp hk)
    have hsome := hfound e he
    rw [slotLookup] at hsome
    split at hsome
    · next heq => exact heq
    · exact nomatch hsome
  rw [← Finset.card_range n]
  refine Finset.card_le_card_of_injOn hash (fun k _ => Finset.mem_coe.mpr
    (Finset.mem_range.mpr (hhash k))) fun k hk k' hk' heq => ?_
  rw [← hkey k hk, ← hkey k' hk', heq]

end AbiWrapper.Lib
