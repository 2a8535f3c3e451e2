import Mathlib.Logic.Function.Basic

/-!
# Records on a heap, each with one owner

A heap has records at addresses. An owner holds the address of one record or of
none, and no two of them hold the same, so what one does with its record is
nothing to the others. A record without an owner is lost: nobody can give it
back, and `Lost` says which records that may happen to.
-/

namespace AbiWrapper.Lib

variable {κ ρ : Type}

abbrev RecordHeap (ρ : Type) := Nat → Option ρ

/-- Who owns what, and where it is. -/
structure Owned (Lost : ρ → Prop) (heap : RecordHeap ρ) (owner : κ → Option (Nat × ρ)) : Prop where
  there : ∀ {k a r}, owner k = some (a, r) → heap a = some r
  alone : ∀ {k k' a r r'}, owner k = some (a, r) → owner k' = some (a, r') → k = k'
  known : ∀ {a r}, heap a = some r → (∃ k, owner k = some (a, r)) ∨ Lost r

/-- What is left when one owner has nothing any more. -/
theorem of_update_none [DecidableEq κ] {α : Type} {owner : κ → Option α} {k k' : κ} {x : α}
    (h : Function.update owner k none k' = some x) : k' ≠ k ∧ owner k' = some x := by
  by_cases hk : k' = k
  · subst hk
    rw [Function.update_self] at h
    exact nomatch h
  · rw [Function.update_of_ne hk] at h
    exact ⟨hk, h⟩

namespace Owned

variable [DecidableEq κ] {Lost : ρ → Prop} {heap : RecordHeap ρ} {owner : κ → Option (Nat × ρ)}
  {k k' : κ} {a : Nat} {r : ρ}

omit [DecidableEq κ] in
theorem empty : Owned Lost (fun _ => none) (fun _ : κ => none) where
  there h := nomatch h
  alone h := nomatch h
  known h := nomatch h

/-- A new record is where there was none. -/
theorem alloc (h : Owned Lost heap owner) (hfree : heap a = none) (hk : owner k = none) :
    Owned Lost (Function.update heap a (some r)) (Function.update owner k (some (a, r))) := by
  have hback : ∀ {k₁ a₁ r₁}, Function.update owner k (some (a, r)) k₁ = some (a₁, r₁) →
      (k₁ = k ∧ a₁ = a ∧ r₁ = r) ∨ (a₁ ≠ a ∧ owner k₁ = some (a₁, r₁)) := by
    intro k₁ a₁ r₁ h₁
    by_cases hkk : k₁ = k
    · subst hkk
      rw [Function.update_self] at h₁
      cases h₁
      exact .inl ⟨rfl, rfl, rfl⟩
    · rw [Function.update_of_ne hkk] at h₁
      refine .inr ⟨fun he => ?_, h₁⟩
      rw [he] at h₁
      exact nomatch hfree.symm.trans (h.there h₁)
  constructor
  · intro k₁ a₁ r₁ h₁
    rcases hback h₁ with ⟨-, rfl, rfl⟩ | ⟨hne, ho⟩
    · exact Function.update_self ..
    · rw [Function.update_of_ne hne]
      exact h.there ho
  · intro k₁ k₂ a₁ r₁ r₂ h₁ h₂
    rcases hback h₁ with ⟨rfl, rfl, rfl⟩ | ⟨hne₁, ho₁⟩
    · rcases hback h₂ with ⟨rfl, -, -⟩ | ⟨hne₂, -⟩
      · rfl
      · exact absurd rfl hne₂
    · rcases hback h₂ with ⟨-, rfl, -⟩ | ⟨-, ho₂⟩
      · exact absurd rfl hne₁
      · exact h.alone ho₁ ho₂
  · intro a₁ r₁ h₁
    by_cases ha : a₁ = a
    · subst ha
      rw [Function.update_self] at h₁
      cases h₁
      exact .inl ⟨k, Function.update_self ..⟩
    · rw [Function.update_of_ne ha] at h₁
      rcases h.known h₁ with ⟨k₁, hk₁⟩ | hlost
      · have hne : k₁ ≠ k := fun he => by
          rw [he, hk] at hk₁
          exact nomatch hk₁
        exact .inl ⟨k₁, (Function.update_of_ne hne _ _).trans hk₁⟩
      · exact .inr hlost

/-- An owner goes, and what it had is lost. -/
theorem drop (h : Owned Lost heap owner) (hlost : ∀ a r, owner k = some (a, r) → Lost r) :
    Owned Lost heap (Function.update owner k none) where
  there h₁ := h.there (of_update_none h₁).2
  alone h₁ h₂ := h.alone (of_update_none h₁).2 (of_update_none h₂).2
  known {a₁ r₁} h₁ := by
    rcases h.known h₁ with ⟨k₁, hk₁⟩ | hl
    · by_cases hkk : k₁ = k
      · subst hkk
        exact .inr (hlost _ _ hk₁)
      · exact .inl ⟨k₁, (Function.update_of_ne hkk _ _).trans hk₁⟩
    · exact .inr hl

/-- The record is given back. -/
theorem free (h : Owned Lost heap owner) (hk : owner k = some (a, r)) :
    Owned Lost (Function.update heap a none) (Function.update owner k none) where
  there {k₁ a₁ r₁} h₁ := by
    obtain ⟨hkk, ho⟩ := of_update_none h₁
    have hne : a₁ ≠ a := fun he => hkk (h.alone (he ▸ ho) hk)
    rw [Function.update_of_ne hne]
    exact h.there ho
  alone h₁ h₂ := h.alone (of_update_none h₁).2 (of_update_none h₂).2
  known {a₁ r₁} h₁ := by
    obtain ⟨hne, hheap⟩ := of_update_none h₁
    rcases h.known hheap with ⟨k₁, hk₁⟩ | hlost
    · have hkk : k₁ ≠ k := fun he => by
        rw [he, hk] at hk₁
        cases hk₁
        exact hne rfl
      exact .inl ⟨k₁, (Function.update_of_ne hkk _ _).trans hk₁⟩
    · exact .inr hlost

/-- The record is handed to somebody who has none. -/
theorem move (h : Owned Lost heap owner) (hk' : owner k' = none) :
    Owned Lost heap (Function.update (Function.update owner k none) k' (owner k)) := by
  have hback : ∀ {k₁ x}, Function.update (Function.update owner k none) k' (owner k) k₁ = some x →
      (k₁ = k' ∧ owner k = some x) ∨ (k₁ ≠ k ∧ owner k₁ = some x) := by
    intro k₁ x h₁
    by_cases he : k₁ = k'
    · subst he
      rw [Function.update_self] at h₁
      exact .inl ⟨rfl, h₁⟩
    · rw [Function.update_of_ne he] at h₁
      exact .inr (of_update_none h₁)
  constructor
  · intro k₁ a₁ r₁ h₁
    rcases hback h₁ with ⟨-, ho⟩ | ⟨-, ho⟩
    · exact h.there ho
    · exact h.there ho
  · intro k₁ k₂ a₁ r₁ r₂ h₁ h₂
    rcases hback h₁ with ⟨he₁, ho₁⟩ | ⟨hne₁, ho₁⟩
    · rcases hback h₂ with ⟨he₂, -⟩ | ⟨hne₂, ho₂⟩
      · exact he₁.trans he₂.symm
      · exact absurd (h.alone ho₂ ho₁) hne₂
    · rcases hback h₂ with ⟨-, ho₂⟩ | ⟨-, ho₂⟩
      · exact absurd (h.alone ho₁ ho₂) hne₁
      · exact h.alone ho₁ ho₂
  · intro a₁ r₁ h₁
    rcases h.known h₁ with ⟨k₁, hk₁⟩ | hlost
    · by_cases hkk : k₁ = k
      · subst hkk
        exact .inl ⟨k', (Function.update_self ..).trans hk₁⟩
      · have hne : k₁ ≠ k' := fun he => by
          rw [he, hk'] at hk₁
          exact nomatch hk₁
        refine .inl ⟨k₁, ?_⟩
        rw [Function.update_of_ne hne, Function.update_of_ne hkk]
        exact hk₁
    · exact .inr hlost

end Owned

end AbiWrapper.Lib
