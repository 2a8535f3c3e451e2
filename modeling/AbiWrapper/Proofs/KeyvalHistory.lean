import AbiWrapper.Lib.Run
import AbiWrapper.Ref.Keyvals
import AbiWrapper.Proofs.ErrorClass

/-!
# Attribute keys over whole histories

An entry of the registry never changes, so what a create has handed out always
leads back down to its keyval. The way up has to choose, because a number that
the implementation uses again stands in several entries. `KeyvalInv.live` is
what makes the choice right: a live keyval's own entry is the newest with its
number, and stays that, because a create that would put a newer one above it is
one in which the implementation had two live keyvals of one number.
-/

namespace AbiWrapper.Ref

open AbiWrapper.Lib

theorem keyvalRange : SlotRange keyvalSlots keyvalAbiBase := ⟨by decide, by decide⟩

theorem keyvalCode_toInt {slot : Nat} (h : slot < keyvalSlots) :
    (codeOf keyvalAbiBase slot).toInt = 0x40000000 + slot := by
  have hlt : slot < 1024 := h
  have hbase : keyvalAbiBase.toInt = 0x40000000 := by decide
  rw [codeOf_toInt (by omega) (by omega), hbase]

theorem keyvalRows_range : ∀ row, row ∈ keyvalRows → row.abi < keyvalAbiBase := by decide

theorem abiKeyvalInvalid_row : ⟨abiKeyvalInvalid, "MPI_KEYVAL_INVALID"⟩ ∈ keyvalRows := by
  simp [keyvalRows, abiKeyvalInvalid]

/-- No ABI value of the registry is one of a predefined key. -/
theorem keyvalCode_ne_row {slot : Nat} (h : slot < keyvalSlots) {row : KeyvalRow}
    (hr : row ∈ keyvalRows) : row.abi ≠ codeOf keyvalAbiBase slot := by
  intro he
  have hlt := keyvalRows_range row hr
  have hbase : keyvalAbiBase.toInt = 0x40000000 := by decide
  rw [he, Int32.lt_iff_toInt_lt, keyvalCode_toInt h, hbase] at hlt
  omega

/-! ## The two directions -/

variable {impl : ImplKeyvals} {t t' : KeyvalTable} {keyval abi : Int32}

theorem keyvalFromabi_row {row : KeyvalRow} (h : row ∈ keyvalRows) :
    keyvalFromabi impl row.abi t = some (impl.code row.abi) := by
  rw [keyvalFromabi]
  cases hf : keyvalRows.find? fun row' => row'.abi = row.abi with
  | some row' =>
      have hp := List.find?_some hf
      exact congrArg (fun abi => some (impl.code abi)) (of_decide_eq_true hp)
  | none => exact absurd (decide_eq_true rfl) (List.find?_eq_none.mp hf row h)

theorem keyvalToabi_row {row : KeyvalRow} (h : row ∈ keyvalRows) :
    keyvalToabi impl (impl.code row.abi) t = row.abi := by
  rw [keyvalToabi]
  cases hf : keyvalRows.find? fun row' => impl.code row'.abi = impl.code row.abi with
  | some row' =>
      have hp := List.find?_some hf
      exact impl.distinct row' (List.mem_of_find?_eq_some hf) row h (of_decide_eq_true hp)
  | none => exact absurd (decide_eq_true rfl) (List.find?_eq_none.mp hf row h)

theorem keyvalFromabi_default (h : ∀ row, row ∈ keyvalRows → row.abi ≠ abi) :
    keyvalFromabi impl abi t = keyvalDynamicFromabi impl abi t := by
  rw [keyvalFromabi, List.find?_eq_none.mpr fun row hr => by simp [h row hr]]

/-- The invalid key is a case of the switch, so a number without a case is
looked up. -/
theorem keyvalToabi_default (h : ∀ row, row ∈ keyvalRows → impl.code row.abi ≠ keyval) :
    keyvalToabi impl keyval t =
      match t.find (some keyval) with
      | some slot => codeOf keyvalAbiBase slot
      | none => abiKeyvalInvalid := by
  have hinv : keyval ≠ impl.invalid := (h _ abiKeyvalInvalid_row).symm
  rw [keyvalToabi, List.find?_eq_none.mpr fun row hr => by simp [h row hr]]
  exact if_neg hinv

theorem keyvalFromabi_code {slot : Nat} (h : slot < t.count) (hs : t.slot slot = some keyval) :
    keyvalFromabi impl (codeOf keyvalAbiBase slot) t = some keyval := by
  have hlt : slot < keyvalSlots := Nat.lt_of_lt_of_le h t.count_le
  rw [keyvalFromabi_default fun row hr => keyvalCode_ne_row hlt hr, keyvalDynamicFromabi,
    slotOf_codeOf keyvalRange hlt]
  show some (if t.count ≤ slot then _ else (t.slot slot).getD 0) = some keyval
  rw [if_neg (Nat.not_le_of_lt h), hs]
  rfl

theorem keyvalToabi_found {slot : Nat}
    (hd : ∀ row, row ∈ keyvalRows → impl.code row.abi ≠ keyval)
    (h : t.find (some keyval) = some slot) :
    keyvalToabi impl keyval t = codeOf keyvalAbiBase slot := by
  rw [keyvalToabi_default hd, h]

/-- A key in the registry is found again from its ABI value, from now on. -/
theorem keyvalToabi_back {t' : KeyvalTable} (h : t.find (some keyval) ≠ none)
    (hext : t.Extends t') : keyvalFromabi impl (keyvalToabi impl keyval t) t' = some keyval := by
  by_cases hrow : ∃ row, row ∈ keyvalRows ∧ impl.code row.abi = keyval
  · obtain ⟨row, hr, rfl⟩ := hrow
    rw [keyvalToabi_row hr, keyvalFromabi_row hr]
  · obtain ⟨slot, hslot⟩ := Option.ne_none_iff_exists'.mp h
    obtain ⟨hlt, -, hs⟩ := Registry.find_eq_some hslot
    obtain ⟨hlt', hs'⟩ := hext.slot_of_lt hlt hs
    rw [keyvalToabi_found (fun row hr he => hrow ⟨row, hr, he⟩) hslot]
    exact keyvalFromabi_code hlt' hs'

/-! ## A create -/

variable {errs : ImplErrors} {call : CreateKeyval} {errors : ErrorTable}

theorem createKeyval_cases (errs : ImplErrors) (call : CreateKeyval) (t : KeyvalTable)
    (errors : ErrorTable) :
    (∃ keyval slot t', call.created = some keyval ∧
      t.append (some keyval) (Option.some_ne_none keyval) = some (slot, t') ∧
      createKeyval errs call t errors = ⟨0, codeOf keyvalAbiBase slot, t', errors⟩) ∨
    ((call.created = none ∨ t.count = keyvalSlots ∧
        (createKeyval errs call t errors).abiIerror = abiErrIntern) ∧
      (createKeyval errs call t errors).abiKeyval = abiKeyvalInvalid ∧
      (createKeyval errs call t errors).table = t) := by
  simp only [createKeyval, CreateKeyval.created]
  cases call.target with
  | none => exact .inr ⟨.inl rfl, rfl, rfl⟩
  | some target =>
      cases attrFns call.copy call.delete call.extraState call.mallocOk with
      | none => exact .inr ⟨.inl rfl, rfl, rfl⟩
      | some fns =>
          by_cases h0 : (target fns).ierror = 0
          · cases ha : t.append (some (target fns).number) (Option.some_ne_none _) with
            | some p =>
                refine .inl ⟨(target fns).number, p.1, p.2, if_pos h0, ha, ?_⟩
                simp [h0, keyvalAdd, ha]
            | none =>
                have hfull := Registry.append_eq_none.mp ha
                refine .inr ⟨.inr ⟨hfull, ?_⟩, ?_, ?_⟩ <;> simp [h0, keyvalAdd, ha]
          · refine .inr ⟨.inl (if_neg h0), ?_, ?_⟩ <;> simp [h0]

/-! ## The invariant -/

structure KeyvalInv (impl : ImplKeyvals) (s : KeyvalState) : Prop where
  entry : ∀ slot, slot < s.table.count → ∃ keyval, s.table.slot slot = some keyval ∧
    (codeOf keyvalAbiBase slot, keyval) ∈ s.issued
  issued : ∀ abi keyval, (abi, keyval) ∈ s.issued → ∃ slot, slot < s.table.count ∧
    s.table.slot slot = some keyval ∧ abi = codeOf keyvalAbiBase slot
  /-- The entry of a live keyval is the newest with its number. -/
  live : ∀ keyval abi, (keyval, some abi) ∈ s.live → ∃ slot,
    s.table.find (some keyval) = some slot ∧ abi = codeOf keyvalAbiBase slot
  dynamic : ∀ p, p ∈ s.live → ∀ row, row ∈ keyvalRows → impl.code row.abi ≠ p.1

namespace KeyvalInv

variable {s s' : KeyvalState}

theorem init : KeyvalInv impl .init where
  entry _ h := absurd h (Nat.not_lt_zero _)
  issued _ _ h := nomatch h
  live _ _ h := nomatch h
  dynamic _ h := nomatch h

/-- The implementation has a new keyval that no ABI value was handed out for. -/
theorem leaked (h : KeyvalInv impl s)
    (hd : ∀ row, row ∈ keyvalRows → impl.code row.abi ≠ keyval) :
    KeyvalInv impl { s with errors := errors, live := s.live ++ [(keyval, none)] } where
  entry := h.entry
  issued := h.issued
  live k a hm := by
    rcases List.mem_append.mp hm with hm | hm
    · exact h.live k a hm
    · exact nomatch (Prod.mk.inj (List.mem_singleton.mp hm)).2
  dynamic p hm := by
    rcases List.mem_append.mp hm with hm | hm
    · exact h.dynamic p hm
    · rw [List.mem_singleton.mp hm]
      exact hd

/-- The implementation has a new keyval and it has been entered. -/
theorem entered (h : KeyvalInv impl s) {slot : Nat}
    (hfresh : ∀ p, p ∈ s.live → p.1 ≠ keyval)
    (hd : ∀ row, row ∈ keyvalRows → impl.code row.abi ≠ keyval)
    (ha : s.table.append (some keyval) (Option.some_ne_none keyval) = some (slot, t')) :
    KeyvalInv impl ⟨t', errors, s.live ++ [(keyval, some (codeOf keyvalAbiBase slot))],
      s.issued ++ [(codeOf keyvalAbiBase slot, keyval)]⟩ := by
  have hext := Registry.append_extends ha
  have hself := Registry.append_slot ha
  obtain ⟨hslot, -, hcount, -⟩ := Registry.append_eq_some ha
  constructor
  · intro i hi
    have hi' : i < t'.count := hi
    by_cases hlt : i < s.table.count
    · obtain ⟨k, hs, hm⟩ := h.entry i hlt
      exact ⟨k, (hext.2 i hlt).trans hs, List.mem_append_left _ hm⟩
    · have hieq : i = slot := by omega
      subst hieq
      exact ⟨keyval, hself.2, List.mem_append_right _ (List.mem_singleton.mpr rfl)⟩
  · intro a k hm
    rcases List.mem_append.mp hm with hm | hm
    · obtain ⟨i, hi, hs, hcode⟩ := h.issued a k hm
      obtain ⟨hi', hs'⟩ := hext.slot_of_lt hi hs
      exact ⟨i, hi', hs', hcode⟩
    · obtain ⟨rfl, rfl⟩ := Prod.mk.inj (List.mem_singleton.mp hm)
      exact ⟨slot, hself.1, hself.2, rfl⟩
  · intro k a hm
    rcases List.mem_append.mp hm with hm | hm
    · obtain ⟨i, hf, hcode⟩ := h.live k a hm
      have hne : some k ≠ some keyval := fun he => hfresh _ hm (Option.some.inj he)
      exact ⟨i, (Registry.append_find_of_ne ha hne).trans hf, hcode⟩
    · obtain ⟨rfl, hcode⟩ := Prod.mk.inj (List.mem_singleton.mp hm)
      exact ⟨slot, Registry.append_find_self ha, Option.some.inj hcode⟩
  · intro p hm
    rcases List.mem_append.mp hm with hm | hm
    · exact h.dynamic p hm
    · rw [List.mem_singleton.mp hm]
      exact hd

theorem create (h : KeyvalInv impl s) (hg : keyvalsDistinct impl s (.create call)) :
    KeyvalInv impl (s.entered call.created (createKeyval errs call s.table s.errors)) := by
  rcases createKeyval_cases errs call s.table s.errors with
    ⟨keyval, slot, t', hc, ha, hr⟩ | ⟨hno, -, htable⟩
  · obtain ⟨hfresh, hd⟩ := hg keyval hc
    rw [hc, hr]
    exact h.entered hfresh hd ha
  · cases hc : call.created with
    | none =>
        simp only [KeyvalState.entered, htable]
        exact ⟨h.entry, h.issued, h.live, h.dynamic⟩
    | some keyval =>
        obtain ⟨-, hd⟩ := hg keyval hc
        rw [hc] at hno
        obtain ⟨-, hintern⟩ := hno.resolve_left (Option.some_ne_none keyval)
        have hne : ¬ abiErrIntern = 0 := by decide
        simp only [KeyvalState.entered, htable, hintern, if_neg hne, Option.map_none,
          Option.toList_none, List.append_nil]
        exact h.leaked hd

theorem step (h : KeyvalInv impl s) {c : KeyvalCall} (hg : keyvalsDistinct impl s c)
    (hs : s.step impl errs c = some s') : KeyvalInv impl s' := by
  cases c with
  | create call =>
      obtain rfl := Option.some.inj hs
      exact h.create hg
  | free kind target abiKeyval =>
      obtain ⟨r, -, rfl⟩ := Option.map_eq_some_iff.mp hs
      exact ⟨h.entry, h.issued, h.live, h.dynamic⟩
  | retire keyval =>
      simp only [KeyvalState.step] at hs
      split at hs
      · obtain rfl := Option.some.inj hs
        refine ⟨h.entry, h.issued, fun k a hm => ?_, fun p hm => ?_⟩
        · exact h.live k a (List.mem_of_mem_filter hm)
        · exact h.dynamic p (List.mem_of_mem_filter hm)
      · exact nomatch hs

theorem run (calls : List KeyvalCall)
    (hm : Meets (KeyvalState.step impl errs) (keyvalsDistinct impl) .init calls)
    (he : exec (KeyvalState.step impl errs) .init calls = some s) : KeyvalInv impl s :=
  exec_invariant (fun _ _ _ h hg hs => h.step hg hs) .init hm he

/-- Nothing but what has been handed out leads down, where the way down is
defined. -/
theorem never_issued (h : KeyvalInv impl s) (hr : ∀ row, row ∈ keyvalRows → row.abi ≠ abi)
    (hno : ∀ keyval, (abi, keyval) ∉ s.issued)
    (hv : -2147483648 + keyvalAbiBase.toInt ≤ abi.toInt) :
    keyvalFromabi impl abi s.table = some impl.invalid := by
  have hsome : (slotOf keyvalSlots keyvalAbiBase abi).isSome = true :=
    (slotOf_isSome keyvalRange.base_nonneg).mpr hv
  obtain ⟨found, hs⟩ := Option.isSome_iff_exists.mp hsome
  rw [keyvalFromabi_default hr, keyvalDynamicFromabi, hs]
  cases found with
  | none => rfl
  | some slot =>
      obtain ⟨-, hcode⟩ := slotOf_eq_some keyvalRange hs
      by_cases hle : s.table.count ≤ slot
      · exact congrArg some (if_pos hle)
      · obtain ⟨keyval, -, hm⟩ := h.entry slot (Nat.lt_of_not_le hle)
        exact absurd (hcode ▸ hm) (hno keyval)

theorem never_registered (h : KeyvalInv impl s)
    (hr : ∀ row, row ∈ keyvalRows → impl.code row.abi ≠ keyval)
    (hno : ∀ abi, (abi, keyval) ∉ s.issued) :
    keyvalToabi impl keyval s.table = abiKeyvalInvalid := by
  rw [keyvalToabi_default hr]
  cases hf : s.table.find (some keyval) with
  | none => rfl
  | some slot =>
      obtain ⟨hlt, -, hs⟩ := Registry.find_eq_some hf
      obtain ⟨k, hk, hm⟩ := h.entry slot hlt
      obtain rfl := Option.some.inj (hk.symm.trans hs)
      exact absurd hm (hno _)

end KeyvalInv

/-! ## What a caller relies on -/

/-- What a history has made of the translation of attribute keys, where `value`
is asked about. -/
structure KeyvalsTranslate (impl : ImplKeyvals) (errs : ImplErrors) (s : KeyvalState)
    (value : Int32) : Prop where
  predefined : ∀ row, row ∈ keyvalRows →
    keyvalFromabi impl row.abi s.table = some (impl.code row.abi) ∧
      keyvalToabi impl (impl.code row.abi) s.table = row.abi
  live : ∀ keyval abi, (keyval, some abi) ∈ s.live →
    keyvalFromabi impl abi s.table = some keyval ∧ keyvalToabi impl keyval s.table = abi
  dynamic : ∀ abi keyval, (abi, keyval) ∈ s.issued → ∀ row, row ∈ keyvalRows → row.abi ≠ abi
  never_issued : (∀ row, row ∈ keyvalRows → row.abi ≠ value) →
    (∀ keyval, (value, keyval) ∉ s.issued) →
    keyvalFromabi impl value s.table = some impl.invalid
  never_registered : ∀ keyval, (∀ row, row ∈ keyvalRows → impl.code row.abi ≠ keyval) →
    (∀ abi, (abi, keyval) ∉ s.issued) → keyvalToabi impl keyval s.table = abiKeyvalInvalid
  /-- A create in which the implementation creates nothing, or that finds the
  table full. -/
  refused : ∀ call : CreateKeyval, call.created = none ∨ s.table.count = keyvalSlots →
    (createKeyval errs call s.table s.errors).abiKeyval = abiKeyvalInvalid ∧
      (∀ abi, keyvalFromabi impl abi (createKeyval errs call s.table s.errors).table =
        keyvalFromabi impl abi s.table) ∧
      ∀ keyval, keyvalToabi impl keyval (createKeyval errs call s.table s.errors).table =
        keyvalToabi impl keyval s.table

section Translate

variable {s : KeyvalState} {value : Int32}

theorem KeyvalInv.translate (h : KeyvalInv impl s)
    (hv : -2147483648 + keyvalAbiBase.toInt ≤ value.toInt) :
    KeyvalsTranslate impl errs s value where
  predefined row hr := ⟨keyvalFromabi_row hr, keyvalToabi_row hr⟩
  live keyval abi hm := by
    obtain ⟨slot, hf, rfl⟩ := h.live keyval abi hm
    obtain ⟨hlt, -, hs⟩ := Registry.find_eq_some hf
    exact ⟨keyvalFromabi_code hlt hs, keyvalToabi_found (h.dynamic _ hm) hf⟩
  dynamic abi keyval hm row hr := by
    obtain ⟨slot, hlt, -, rfl⟩ := h.issued abi keyval hm
    exact keyvalCode_ne_row (Nat.lt_of_lt_of_le hlt s.table.count_le) hr
  never_issued hr hno := h.never_issued hr hno hv
  never_registered _ hr hno := h.never_registered hr hno
  refused call hno := by
    rcases createKeyval_cases errs call s.table s.errors with
      ⟨keyval, slot, t', hc, ha, -⟩ | ⟨-, habi, htable⟩
    · obtain ⟨-, hlt, -⟩ := Registry.append_eq_some ha
      obtain ⟨hcount, -⟩ := Registry.append_eq_some ha
      rcases hno with hno | hno
      · rw [hc] at hno
        exact nomatch hno
      · omega
    · rw [htable]
      exact ⟨habi, fun _ => rfl, fun _ => rfl⟩

/-- The lowest integers have never been issued, and their translation is
undefined. -/
theorem KeyvalInv.not_low (h : KeyvalInv impl s) (ht : KeyvalsTranslate impl errs s value) :
    -2147483648 + keyvalAbiBase.toInt ≤ value.toInt := by
  have hbase : keyvalAbiBase.toInt = 0x40000000 := by decide
  by_contra hlow
  have hr : ∀ row, row ∈ keyvalRows → row.abi ≠ value := by
    rintro row hr rfl
    have hpos : ∀ row, row ∈ keyvalRows → 0 ≤ row.abi := by decide
    have hle := Int32.le_iff_toInt_le.mp (hpos row hr)
    rw [Int32.toInt_zero] at hle
    omega
  have hno : ∀ keyval, (value, keyval) ∉ s.issued := by
    intro keyval hm
    obtain ⟨slot, hlt, -, hcode⟩ := h.issued value keyval hm
    have hto := keyvalCode_toInt (Nat.lt_of_lt_of_le hlt s.table.count_le)
    rw [← hcode] at hto
    omega
  have hf := ht.never_issued hr hno
  rw [keyvalFromabi_default hr] at hf
  obtain ⟨found, hs, -⟩ := Option.map_eq_some_iff.mp hf
  have hsome : (slotOf keyvalSlots keyvalAbiBase value).isSome = true := by rw [hs]; rfl
  exact hlow ((slotOf_isSome keyvalRange.base_nonneg).mp hsome)

end Translate

/-- Keyval translation over every history in which the implementation keeps its
live keyvals apart, exactly for the integers that are not among the lowest. -/
theorem keyvals_translate_iff (impl : ImplKeyvals) (errs : ImplErrors) (calls : List KeyvalCall)
    (s : KeyvalState) (value : Int32)
    (hm : Meets (KeyvalState.step impl errs) (keyvalsDistinct impl) .init calls)
    (he : exec (KeyvalState.step impl errs) .init calls = some s) :
    KeyvalsTranslate impl errs s value ↔
      -2147483648 + keyvalAbiBase.toInt ≤ value.toInt := by
  have h := KeyvalInv.run calls hm he
  exact ⟨fun ht => h.not_low ht, fun hv => h.translate hv⟩

/-- An implementation that numbers its keys as the ABI does. -/
def sameKeyvals : ImplKeyvals where
  code abi := abi
  distinct _ _ _ _ h := h

def plainCreate (kind : AttrKind) (out : Outcome) : CreateKeyval :=
  ⟨kind, .null, .null, 0, true, some fun _ => out⟩

/-- A key is freed and its number used again, by a key of another kind, after
a create has failed. -/
def recycledKeyval : List KeyvalCall :=
  [.create (plainCreate .comm ⟨0, 7⟩), .retire 7, .create (plainCreate .type ⟨1, 0⟩),
   .create (plainCreate .win ⟨0, 7⟩)]

theorem keyvals_translate_recycled :
    ∃ s, exec (KeyvalState.step sameKeyvals withoutOptional) .init recycledKeyval = some s ∧
      (7, some 0x40000001) ∈ s.live ∧
      (KeyvalsTranslate sameKeyvals withoutOptional s 0x40000002 ↔
        -2147483648 + keyvalAbiBase.toInt ≤ (0x40000002 : Int32).toInt) :=
  ⟨_, rfl, by decide, keyvals_translate_iff sameKeyvals withoutOptional recycledKeyval _
    0x40000002 (by decide) rfl⟩

/-- No key has been created, and the lowest integer is asked about. -/
theorem lowest_keyval_undefined :
    ¬ ∀ (impl : ImplKeyvals) (errs : ImplErrors) (calls : List KeyvalCall) (s : KeyvalState),
      Meets (KeyvalState.step impl errs) (keyvalsDistinct impl) .init calls →
      exec (KeyvalState.step impl errs) .init calls = some s →
        ∀ value, KeyvalsTranslate impl errs s value := by
  intro h
  have ht := h sameKeyvals withoutOptional [] .init trivial rfl (-2147483648)
  have hf := ht.never_issued (by decide) fun _ hm => nomatch hm
  exact absurd hf (by decide)

end AbiWrapper.Ref
