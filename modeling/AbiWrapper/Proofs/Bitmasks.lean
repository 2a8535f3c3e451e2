import AbiWrapper.Ref.Constants

/-!
# Translating file modes and window assertions

The flags of a family are bits of their own in either numbering, so a set of
them comes back from a translation there and back, and what is no flag of the
family is lost on the way. Nothing is asked of where the bits are: an
implementation may use the ABI's bit of one flag for another, or the sign.
-/

namespace AbiWrapper.Ref

open AbiWrapper.Lib

variable {f : MaskFamily}

theorem MaskFamily.abis_single (f : MaskFamily) : ∀ abi, abi ∈ f.abis → IsFlag abi := by
  have hall : (f.abis.all fun abi => decide (IsFlag abi)) = true := by
    cases f <;> decide
  exact fun abi h => of_decide_eq_true (List.all_eq_true.mp hall abi h)

theorem MaskFamily.abis_nodup (f : MaskFamily) : f.abis.Nodup := by
  cases f <;> decide

namespace MaskNumbering

variable {impl : MaskNumbering f} {row : Mask × Mask}

theorem cases_fst : impl.cases.map Prod.fst = f.abis := by
  rw [cases, List.map_map]
  exact List.map_id _

theorem cases_snd : impl.cases.map Prod.snd = f.abis.map impl.code := by
  rw [cases, List.map_map]
  rfl

theorem cases_single (h : row ∈ impl.cases) : IsFlag row.1 ∧ IsFlag row.2 := by
  obtain ⟨abi, habi, rfl⟩ := List.mem_map.mp h
  exact ⟨f.abis_single abi habi, impl.single abi habi⟩

theorem toabi_fromabi (m : Mask) : impl.toabi (impl.fromabi m) = m &&& union f.abis := by
  rw [toabi, fromabi,
    translate_back (fun _ h => (cases_single h).1) (fun _ h => (cases_single h).2), cases_fst]
  rw [cases_snd]
  exact impl.distinct

/-- The same with the columns exchanged. -/
theorem fromabi_toabi (x : Mask) :
    impl.fromabi (impl.toabi x) = x &&& union (f.abis.map impl.code) := by
  have hswap : ∀ row, row ∈ impl.cases.map Prod.swap → IsFlag row.1 ∧ IsFlag row.2 := by
    intro row hrow
    obtain ⟨row₀, hrow₀, rfl⟩ := List.mem_map.mp hrow
    exact (cases_single hrow₀).symm
  have hfst : (impl.cases.map Prod.swap).map Prod.fst = f.abis.map impl.code := by
    rw [List.map_map]
    exact cases_snd
  have hsnd : (impl.cases.map Prod.swap).map Prod.snd = f.abis := by
    rw [List.map_map]
    exact cases_fst
  have hback := @translate_back 32 (impl.cases.map Prod.swap) x (fun _ h => (hswap _ h).1)
    (fun _ h => (hswap _ h).2) (hsnd ▸ f.abis_nodup)
  rw [List.map_map, Prod.swap_swap_eq, List.map_id, hfst] at hback
  exact hback

end MaskNumbering

/-- Both translations of both families, for every numbering. -/
theorem bitmask_homomorphism (f : MaskFamily) (impl : MaskNumbering f) (m n x y : Mask) :
    impl.toabi (impl.fromabi m) = m &&& union f.abis ∧
      impl.fromabi (impl.toabi x) = x &&& union (f.abis.map impl.code) ∧
      impl.fromabi (m ||| n) = impl.fromabi m ||| impl.fromabi n ∧
      impl.toabi (x ||| y) = impl.toabi x ||| impl.toabi y :=
  ⟨impl.toabi_fromabi m, impl.fromabi_toabi x, translate_or, translate_or⟩

/-- Window assertions with the bits that an implementation may also use for its
file modes. -/
def lowAsserts : MaskNumbering .winassert where
  code abi := abi >>> 10
  single := by
    have hall : (MaskFamily.winassert.abis.all fun abi => decide (IsFlag (abi >>> 10))) = true := by
      decide
    exact fun abi h => of_decide_eq_true (List.all_eq_true.mp hall abi h)
  distinct := by decide

-- Without the bit 1, which is no window assertion.
example : winassertFromabi lowAsserts 0x1401 = 5 := by decide

end AbiWrapper.Ref
