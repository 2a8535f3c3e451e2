import AbiWrapper.Proofs.PerfectHash

/-!
# Translating a handle up and down again

Three facts make the two directions inverse to each other. A map that was built
answers with the first row of a value and misses all other values
(`rmapBuild_lookup`), whichever multiplier the search settled on. The switch
and the filler have the same rows, and a row's ABI value names it, so the
switch leads back from any row's ABI value to the row's value. And every row's
ABI value is inside the reserved range, so a handle outside it that the map
misses is in no row's way on the way back.
-/

namespace AbiWrapper.Ref

open AbiWrapper.Lib

/-! ## The maps -/

theorem initReverseMap_ok {impl : ImplHandles} {maps maps' : Rmaps} {c : HandleClass}
    (h : initReverseMap impl maps c = .ok maps') :
    ∃ m, rmapBuild (maps c) ((impl.predef c).map fun p => (p.2, p.1)) = some m ∧
      maps' = Function.update maps c m := by
  rw [initReverseMap] at h
  split at h
  · exact nomatch h
  · split at h
    · exact nomatch h
    · next m hm =>
        injection h with h
        exact ⟨m, hm, h.symm⟩

theorem foldlM_initReverseMap {impl : ImplHandles} {classes : List HandleClass}
    (hnd : classes.Nodup) {maps maps' : Rmaps}
    (h : classes.foldlM (initReverseMap impl) maps = .ok maps') :
    (∀ c, c ∈ classes →
      rmapBuild (maps c) ((impl.predef c).map fun p => (p.2, p.1)) = some (maps' c)) ∧
    ∀ c, c ∉ classes → maps' c = maps c := by
  induction classes generalizing maps with
  | nil =>
      injection h with h
      subst h
      exact ⟨fun c hc => (List.not_mem_nil hc).elim, fun _ _ => rfl⟩
  | cons c₀ rest ih =>
      obtain ⟨hc₀, hnd⟩ := List.nodup_cons.mp hnd
      rw [List.foldlM_cons] at h
      cases hstep : initReverseMap impl maps c₀ with
      | error e =>
          rw [hstep] at h
          exact nomatch h
      | ok maps₁ =>
          rw [hstep] at h
          obtain ⟨m, hm, rfl⟩ := initReverseMap_ok hstep
          obtain ⟨hin, hout⟩ := ih hnd h
          constructor
          · intro c hc
            rcases List.mem_cons.mp hc with rfl | hc
            · rw [hout c hc₀, Function.update_self]
              exact hm
            · have hne : c ≠ c₀ := fun he => hc₀ (he ▸ hc)
              have := hin c hc
              rwa [Function.update_of_ne hne] at this
          · intro c hc
            obtain ⟨hne, hc⟩ := List.ne_and_not_mem_of_not_mem_cons hc
            rw [hout c hc, Function.update_of_ne hne]

theorem classes_nodup (impl : ImplHandles) : impl.classes.Nodup := by
  rw [ImplHandles.classes]
  split <;> decide

theorem rmapSlots_pow (c : HandleClass) :
    ∃ k, 1 ≤ k ∧ k < 64 ∧ rmapSlots c = 2 ^ k :=
  ⟨(rmapSlots c).log2, by cases c <;> decide⟩

/-- The map of a class finds the first row of a value, for every value but
`RMAP_EMPTY`. -/
theorem initReverseMaps_lookup {impl : ImplHandles} {maps : Rmaps}
    (hinit : initReverseMaps impl = .ok maps) {c : HandleClass} (hc : c ∈ impl.classes)
    {h : UInt64} (hh : h ≠ rmapEmpty) :
    rmapLookup (maps c) h = firstOf h ((impl.predef c).map fun p => (p.2, p.1)) := by
  obtain ⟨k, hk, hk', hslots⟩ := rmapSlots_pow c
  exact rmapBuild_lookup hslots hk hk' ((foldlM_initReverseMap (classes_nodup impl) hinit).1 c hc)
    hh

/-! ## The rows -/

theorem predefRows_inPredefRange (c : HandleClass) :
    ∀ row, row ∈ predefRows c → inPredefRange row.abi := by
  cases c <;> decide +kernel

theorem mem_predef {impl : ImplHandles} {c : HandleClass} {p : UInt64 × UInt64}
    (hp : p ∈ impl.predef c) :
    ∃ row, row ∈ predefRows c ∧ impl.compiles row = true ∧ row.abi = p.1 ∧
      impl.bits row.abi = p.2 := by
  obtain ⟨row, hrow, rfl⟩ := List.mem_map.mp hp
  obtain ⟨hrow, hcomp⟩ := List.mem_filter.mp hrow
  exact ⟨row, hrow, hcomp, rfl, rfl⟩

theorem handleFromabi_predef {impl : ImplHandles} {c : HandleClass} {p : UInt64 × UInt64}
    (hp : p ∈ impl.predef c) : handleFromabi impl c p.1 = p.2 := by
  obtain ⟨row, hrow, hcomp, habi, hbits⟩ := mem_predef hp
  rw [handleFromabi]
  split
  · next row' hfind =>
      have hrow' : row'.abi = p.1 ∧ impl.compiles row' = true := by
        simpa using List.find?_some hfind
      rw [hrow'.1, ← habi]
      exact hbits
  · next hfind =>
      have hno := List.find?_eq_none.mp hfind row hrow
      exact absurd (decide_eq_true ⟨habi, hcomp⟩) hno

theorem handleFromabi_dynamic {impl : ImplHandles} {c : HandleClass} {h : UInt64}
    (hh : ¬ inPredefRange h) : handleFromabi impl c h = h := by
  rw [handleFromabi]
  split
  · next row hfind =>
      have hrow : row.abi = h ∧ impl.compiles row = true := by
        simpa using List.find?_some hfind
      have hmem := List.mem_of_find?_eq_some hfind
      exact absurd (hrow.1 ▸ predefRows_inPredefRange c row hmem) hh
  · rw [if_neg hh]

/-- What an application means by an ABI handle: the implementation's constant of
the same name, or the object whose bits it is. -/
inductive HandleMeans (impl : ImplHandles) (c : HandleClass) : UInt64 → UInt64 → Prop
  | predefined {abi bits : UInt64} (h : (abi, bits) ∈ impl.predef c) : HandleMeans impl c abi bits
  | dynamic {bits : UInt64} (h : ¬ inPredefRange bits) : HandleMeans impl c bits bits

theorem HandleMeans.fromabi {impl : ImplHandles} {c : HandleClass} {abi bits : UInt64}
    (h : HandleMeans impl c abi bits) : handleFromabi impl c abi = bits := by
  cases h with
  | predefined hp => exact handleFromabi_predef hp
  | dynamic hd => exact handleFromabi_dynamic hd

theorem handleToabi_snd (maps : Rmaps) (c : HandleClass) (bits : UInt64) (flag : Bool) :
    (handleToabi maps c bits flag).2 = (flag || (handleToabi maps c bits false).2) := by
  simp only [handleToabi]
  split
  · simp
  · split <;> simp

/-! ## There and back -/

/-- What `toabi` does with a handle: the three cases of a class. -/
structure Translates (impl : ImplHandles) (maps : Rmaps) (c : HandleClass) (h : UInt64) :
    Prop where
  /-- A predefined handle becomes the first row's ABI value, and comes back. -/
  predefined : ∀ p, (impl.predef c).find? (fun p => p.2 = h) = some p → ∀ flag,
    handleToabi maps c h flag = (p.1, flag) ∧ handleFromabi impl c p.1 = h
  /-- A dynamic handle keeps its bits, and comes back. -/
  dynamic : (∀ p, p ∈ impl.predef c → p.2 ≠ h) → ¬ inPredefRange h → ∀ flag,
    handleToabi maps c h flag = (h, flag) ∧ handleFromabi impl c h = h
  /-- One that the ABI's range hides becomes the null handle, with the flag. -/
  hidden : (∀ p, p ∈ impl.predef c → p.2 ≠ h) → inPredefRange h → ∀ flag,
    handleToabi maps c h flag = (abiNull c, true)

theorem firstOf_predef {l : List (UInt64 × UInt64)} {h : UInt64} :
    firstOf h (l.map fun p => (p.2, p.1)) = (l.find? fun p => p.2 = h).map Prod.fst := by
  rw [firstOf_eq_find?, List.find?_map, Option.map_map]
  rfl

variable {impl : ImplHandles} {maps : Rmaps} {c : HandleClass} {h h' : UInt64}

theorem translates (hinit : initReverseMaps impl = .ok maps) (hc : c ∈ impl.classes)
    (hh : h ≠ rmapEmpty) : Translates impl maps c h := by
  have hlook := (initReverseMaps_lookup hinit hc hh).trans firstOf_predef
  have hmiss : (∀ p, p ∈ impl.predef c → p.2 ≠ h) → rmapLookup (maps c) h = none := by
    intro hno
    rw [hlook, Option.map_eq_none_iff, List.find?_eq_none]
    exact fun p hp => fun he => hno p hp (of_decide_eq_true he)
  constructor
  · intro p hp flag
    have hval : p.2 = h := of_decide_eq_true (List.find?_some hp :)
    rw [handleToabi, hlook, hp]
    exact ⟨rfl, hval ▸ handleFromabi_predef (List.mem_of_find?_eq_some hp)⟩
  · intro hno hr flag
    rw [handleToabi, hmiss hno]
    exact ⟨if_neg hr, handleFromabi_dynamic hr⟩
  · intro hno hr flag
    rw [handleToabi, hmiss hno]
    exact if_pos hr

/-- Bits that no row has, one row after the other. -/
theorem predef_ne (hall : (impl.predef c).all (fun p => p.2 != h) = true) :
    ∀ p, p ∈ impl.predef c → p.2 ≠ h := by
  intro p hp
  simpa using List.all_eq_true.mp hall p hp

theorem Translates.roundtrip (ht : Translates impl maps c h)
    (hflag : (handleToabi maps c h false).2 = false) :
    handleFromabi impl c (handleToabi maps c h false).1 = h := by
  cases hfind : (impl.predef c).find? (fun p => p.2 = h) with
  | some p =>
      obtain ⟨hto, hfrom⟩ := ht.predefined p hfind false
      rw [hto]
      exact hfrom
  | none =>
      have hno : ∀ p, p ∈ impl.predef c → p.2 ≠ h := fun p hp he =>
        List.find?_eq_none.mp hfind p hp (decide_eq_true he)
      by_cases hr : inPredefRange h
      · rw [ht.hidden hno hr] at hflag
        exact nomatch hflag
      · obtain ⟨hto, hfrom⟩ := ht.dynamic hno hr false
        rw [hto]
        exact hfrom

/-- A handle that the ABI can name: one of the implementation's constants, or
outside the reserved window. -/
structure ProperHandle (impl : ImplHandles) (c : HandleClass) (h : UInt64) : Prop where
  named : c ∈ impl.classes
  ne_empty : h ≠ rmapEmpty
  clear : (∃ p, p ∈ impl.predef c ∧ p.2 = h) ∨ ¬ inPredefRange h

theorem ProperHandle.back (hp : ProperHandle impl c h)
    (hinit : initReverseMaps impl = .ok maps) :
    (handleToabi maps c h false).2 = false ∧
      handleFromabi impl c (handleToabi maps c h false).1 = h := by
  have ht := translates hinit hp.named hp.ne_empty
  have hflag : (handleToabi maps c h false).2 = false := by
    cases hfind : (impl.predef c).find? (fun p => p.2 = h) with
    | some p => rw [(ht.predefined p hfind false).1]
    | none =>
        have hno : ∀ p, p ∈ impl.predef c → p.2 ≠ h := fun p hm he =>
          List.find?_eq_none.mp hfind p hm (decide_eq_true he)
        rcases hp.clear with ⟨p, hm, he⟩ | hrange
        · exact absurd he (hno p hm)
        · rw [(ht.dynamic hno hrange false).1]
  exact ⟨hflag, ht.roundtrip hflag⟩

/-- Handle translation, for every class an implementation has: the three cases,
and `toabi` takes no two handles that raise no flag to one. -/
theorem handle_translation (hinit : initReverseMaps impl = .ok maps) (hc : c ∈ impl.classes) :
    (∀ h, h ≠ rmapEmpty → Translates impl maps c h) ∧
    ∀ h h', h ≠ rmapEmpty → h' ≠ rmapEmpty →
      (handleToabi maps c h false).2 = false → (handleToabi maps c h' false).2 = false →
      (handleToabi maps c h false).1 = (handleToabi maps c h' false).1 → h = h' := by
  refine ⟨fun h hh => translates hinit hc hh, fun h h' hh hh' hf hf' heq => ?_⟩
  rw [← (translates hinit hc hh).roundtrip hf, heq]
  exact (translates hinit hc hh').roundtrip hf'

/-- Integer handles in the manner of an implementation without the optional
names, whose `MPI_COUNT` and `MPI_AINT` are one value. -/
def integerHandles : ImplHandles where
  has _ := false
  bits abi := if abi = 0x00000202 then 0x4c000201 else 0x4c000000 + abi

theorem integerHandles_translation :
    ∃ maps, initReverseMaps integerHandles = .ok maps ∧
      (∀ h, h ≠ rmapEmpty → Translates integerHandles maps .datatype h) ∧
      handleToabi maps .datatype 0x4c000201 false = (0x00000201, false) := by
  cases hinit : initReverseMaps integerHandles with
  | error e =>
      have hok : (initReverseMaps integerHandles).toBool = true := by decide +kernel
      rw [hinit] at hok
      exact nomatch hok
  | ok maps =>
      have ht := (handle_translation hinit (c := .datatype) (by decide)).1
      have hfind : (integerHandles.predef .datatype).find? (fun p => p.2 = 0x4c000201) =
          some (0x00000201, 0x4c000201) := by decide +kernel
      exact ⟨maps, rfl, ht, ((ht 0x4c000201 (by decide)).predefined _ hfind false).1⟩

end AbiWrapper.Ref
