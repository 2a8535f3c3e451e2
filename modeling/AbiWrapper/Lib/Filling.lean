import Mathlib.Logic.Function.Basic

/-!
# Memory that several may fill with the same content

Somebody has a list of cells to write, with a content that everybody who writes
these cells has, too. What is still to be written is part of where the writer is,
so what the memory holds is said against a list: `Filled` is that of a writer in
the middle, with nothing left it is what a reader relies on, and it survives
whatever the other writers do.
-/

namespace AbiWrapper.Lib

variable {κ : Type} {ν : κ → Type} {cells todo : List κ} {content m : (k : κ) → ν k} {k : κ}

/-- The cells hold the content, but for those that are still to be written. -/
def Filled (cells : List κ) (content m : (k : κ) → ν k) (todo : List κ) : Prop :=
  ∀ k ∈ cells, k ∉ todo → m k = content k

namespace Filled

theorem start : Filled cells content m cells := fun _ hk hnot => absurd hk hnot

theorem read (h : Filled cells content m []) (hk : k ∈ cells) : m k = content k :=
  h k hk List.not_mem_nil

variable [DecidableEq κ]

theorem write (h : Filled cells content m (k :: todo)) :
    Filled cells content (Function.update m k (content k)) todo := by
  intro k' hk' hnot
  by_cases he : k' = k
  · subst he
    exact Function.update_self _ _ _
  · rw [Function.update_of_ne he]
    exact h k' hk' (List.not_mem_cons_of_ne_of_not_mem he hnot)

/-- Another writer has written. -/
theorem again (h : Filled cells content m todo) :
    Filled cells content (Function.update m k (content k)) todo :=
  write fun k' hk' hnot => h k' hk' (List.not_mem_of_not_mem_cons hnot)

end Filled

end AbiWrapper.Lib
