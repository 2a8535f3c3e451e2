import Mathlib.Logic.Function.Basic

/-!
# Two stores with the same variables

The variables have types of their own, which differ between the stores. In the
second a variable may have no value, and then nothing is asked of the first.
-/

namespace AbiWrapper.Lib

variable {ι : Type} {A B : ι → Type} {R R' : (i : ι) → A i → B i → Prop} {a : (i : ι) → A i}
  {b : (i : ι) → Option (B i)}

/-- Wherever the second store has a value, `R` relates the first one's to it. -/
def StoresRelated (R : (i : ι) → A i → B i → Prop) (a : (i : ι) → A i)
    (b : (i : ι) → Option (B i)) : Prop := ∀ i v, b i = some v → R i (a i) v

theorem StoresRelated.empty : StoresRelated R a fun _ => none := by
  intro i v hv
  cases hv

theorem StoresRelated.mono (h : StoresRelated R a b) (hR : ∀ i x v, R i x v → R' i x v) :
    StoresRelated R' a b := by
  intro i v hv
  exact hR i _ v (h i v hv)

theorem StoresRelated.update [DecidableEq ι] (h : StoresRelated R a b) {i : ι} {x : A i}
    {v : Option (B i)} (hv : ∀ v', v = some v' → R i x v') :
    StoresRelated R (Function.update a i x) (Function.update b i v) := by
  intro j w hw
  by_cases hj : j = i
  · subst hj
    rw [Function.update_self] at hw ⊢
    exact hv w hw
  · rw [Function.update_of_ne hj] at hw ⊢
    exact h j w hw

end AbiWrapper.Lib
