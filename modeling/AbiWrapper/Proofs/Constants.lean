import AbiWrapper.Lib.Lists
import AbiWrapper.Ref.Constants

/-!
# What a closed family makes of a value that is none of its names

It passes it through, on the ground that the implementation will reject what it
has no name for. But the value is then read in the implementation's numbering,
and where that gives it to a name, it is taken for the name: a thread level 3 is
none of the ABI's, and is an implementation's `MPI_THREAD_MULTIPLE`.

So a numbering is safe exactly if all its values are the ABI's values of the
family, too. Of the switches only this is used: the cases of either differ, so a
name is translated by its own (`fromabi_name`), and an invalid value by none
(`fromabi_invalid`).
-/

namespace AbiWrapper.Ref

open AbiWrapper.Lib

theorem ClosedFamily.abis_nodup (f : ClosedFamily) : f.abis.Nodup := by
  cases f <;> decide

/-- With distinct ABI values, a case is the one that is taken. -/
theorem Sentinels.fromabi_of_mem {rows : Sentinels} (habi : (rows.map Prod.fst).Nodup)
    {row : Int32 × Int32} (hrow : row ∈ rows) : rows.fromabi row.1 = row.2 := by
  rw [fromabi, find?_of_nodup habi hrow]

theorem Sentinels.fromabi_of_not_mem {rows : Sentinels} {abi : Int32}
    (h : abi ∉ rows.map Prod.fst) : rows.fromabi abi = abi := by
  rw [fromabi]
  cases hf : rows.find? fun r => r.1 = abi with
  | some row =>
      have hkey : row.1 = abi := of_decide_eq_true (List.find?_some hf :)
      exact absurd (List.mem_map.mpr ⟨row, List.mem_of_find?_eq_some hf, hkey⟩) h
  | none => rfl

namespace ConstNumbering

variable {f : ClosedFamily} {impl : ConstNumbering f} {v : Int32} {row : ConstRow}

theorem cases_fst : impl.cases.map Prod.fst = impl.compiled.map ConstRow.abi := by
  rw [cases, List.map_map]
  rfl

theorem cases_snd : impl.cases.map Prod.snd = impl.values := by
  rw [cases, List.map_map]
  rfl

theorem compiled_abis : (impl.cases.map Prod.fst).Sublist f.abis := by
  rw [cases_fst]
  exact List.filter_sublist.map ConstRow.abi

theorem fromabi_name (h : row ∈ impl.compiled) : impl.fromabi row.abi = impl.code row.abi :=
  Sentinels.fromabi_of_mem (f.abis_nodup.sublist compiled_abis) (List.mem_map_of_mem h)

theorem fromabi_invalid (h : f.invalid v) : impl.fromabi v = v :=
  Sentinels.fromabi_of_not_mem fun hm => h.1 (compiled_abis.mem hm)

end ConstNumbering

/-! ## The values of a numbering -/

/-- What is no name of a closed family never becomes one of the implementation's
exactly if the implementation gives its names no other values than the ABI's, or
for ranks and tags than these and numbers that are not negative. A value that
does is taken for the name whose value it is. -/
theorem invalid_values_iff (f : ClosedFamily) (impl : ConstNumbering f) :
    ((∀ v, f.invalid v → impl.fromabi v ∉ impl.values) ↔
        ∀ value, value ∈ impl.values → ¬f.invalid value) ∧
      (∀ v, f.invalid v → (impl.fromabi v ∉ impl.values ↔ v ∉ impl.values)) ∧
      ∀ v, f.invalid v → ∀ row, row ∈ impl.compiled →
        (impl.fromabi v = impl.fromabi row.abi ↔ v = impl.code row.abi) := by
  refine ⟨?_, ?_, ?_⟩
  · constructor
    · intro h value hvalue hinvalid
      have hnot := h value hinvalid
      rw [ConstNumbering.fromabi_invalid hinvalid] at hnot
      exact hnot hvalue
    · intro h v hinvalid
      rw [ConstNumbering.fromabi_invalid hinvalid]
      exact fun hv => h v hv hinvalid
  · intro v hinvalid
    rw [ConstNumbering.fromabi_invalid hinvalid]
  · intro v hinvalid row hrow
    rw [ConstNumbering.fromabi_invalid hinvalid, ConstNumbering.fromabi_name hrow]

def plainLevels : ConstNumbering .threadlevel where
  has _ := false
  code abi := if abi = 4096 then 3 else abi / 1024
  distinct := by decide

/-- 3 is none of the ABI's thread levels, and the implementation is asked for
`MPI_THREAD_MULTIPLE`. -/
theorem level_taken_for_multiple :
    ClosedFamily.threadlevel.invalid 3 ∧ plainLevels.fromabi 3 ∈ plainLevels.values ∧
      plainLevels.fromabi 3 = plainLevels.fromabi 4096 := by
  decide

end AbiWrapper.Ref
