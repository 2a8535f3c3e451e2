import Mathlib.Data.List.Nodup
import AbiWrapper.Ref.Errorcodes

/-!
# Error codes over whole histories

There are four ways up — success, a case of the switch, an entry of the
registry, old or new, and the full registry's refusal — and `errorcodeToabi` is
one of them on every code (`toabi_cases`). Each of the first three leads back
down. For the registry that is because an entry does not change and its ABI
code is its index; that the three ranges of ABI codes do not meet is a look at
the rows.

`ErrorInv` ties what has been issued to the entries there are. Everything that
is said of later states is said by `Registry.Extends`.
-/

namespace AbiWrapper.Ref

open AbiWrapper.Lib

theorem errorcodeRange : SlotRange errorcodeSlots errorcodeAbiBase := ⟨by decide, by decide⟩

theorem abiErrLastcode_toInt : abiErrLastcode.toInt = 16383 := by decide

theorem errorCode_toInt {slot : Nat} (h : slot < errorcodeSlots) :
    (codeOf errorcodeAbiBase slot).toInt = 16384 + slot := by
  have hlt : slot < 4096 := h
  have hbase : errorcodeAbiBase.toInt = 16384 := by decide
  rw [codeOf_toInt (by omega) (by omega), hbase]

theorem errorRows_range : ∀ row, row ∈ errorRows → 0 < row.abi ∧ row.abi ≤ abiErrLastcode := by
  decide +kernel

theorem errorRows_inj {row row' : ErrorRow} (h : row ∈ errorRows) (h' : row' ∈ errorRows)
    (he : row.abi = row'.abi) : row = row' := by
  have hnd : (errorRows.map ErrorRow.abi).Nodup := by decide +kernel
  exact List.inj_on_of_nodup_map hnd h h' he

theorem errorRows_ne_zero {row : ErrorRow} (h : row ∈ errorRows) : row.abi ≠ 0 := by
  intro he
  have := (errorRows_range row h).1
  rw [he] at this
  exact absurd this (by decide)

/-- The index of a predefined code is an `int`. -/
theorem errorRows_not_low {row : ErrorRow} (h : row ∈ errorRows) :
    -2147483648 + errorcodeAbiBase.toInt ≤ row.abi.toInt := by
  have hpos := (errorRows_range row h).1
  have hbase : errorcodeAbiBase.toInt = 16384 := by decide
  rw [Int32.lt_iff_toInt_lt, Int32.toInt_zero] at hpos
  omega

theorem errorCode_dynamic {slot : Nat} (h : slot < errorcodeSlots) :
    abiErrLastcode < codeOf errorcodeAbiBase slot := by
  rw [Int32.lt_iff_toInt_lt, errorCode_toInt h, abiErrLastcode_toInt]
  omega

theorem ne_row_of_dynamic {abi : Int32} (h : abiErrLastcode < abi) {row : ErrorRow}
    (hr : row ∈ errorRows) : row.abi ≠ abi := by
  rintro rfl
  have hle := (errorRows_range row hr).2
  rw [Int32.le_iff_toInt_le] at hle
  rw [Int32.lt_iff_toInt_lt] at h
  omega

theorem ne_zero_of_dynamic {abi : Int32} (h : abiErrLastcode < abi) : abi ≠ 0 := by
  rintro rfl
  exact absurd h (by decide)

/-! ## The way down -/

variable {impl : ImplErrors} {t t' : ErrorTable} {e abi : Int32}

theorem rowOfAbi_eq_some {row : ErrorRow} (h : rowOfAbi impl abi = some row) :
    row ∈ errorRows ∧ impl.compiles row = true ∧ row.abi = abi := by
  have hp := List.find?_some h
  exact ⟨List.mem_of_find?_eq_some h, of_decide_eq_true hp⟩

theorem rowOfCode_eq_some {row : ErrorRow} (h : rowOfCode impl e = some row) :
    row ∈ errorRows ∧ impl.compiles row = true ∧ impl.code row.abi = e := by
  have hp := List.find?_some h
  exact ⟨List.mem_of_find?_eq_some h, of_decide_eq_true hp⟩

theorem fromabi_row {row : ErrorRow} (h : row ∈ errorRows) (hc : impl.compiles row = true) :
    errorcodeFromabi impl row.abi t = some (impl.code row.abi) := by
  rw [errorcodeFromabi, if_neg (errorRows_ne_zero h)]
  cases hf : rowOfAbi impl row.abi with
  | some row' => exact congrArg (fun abi => some (impl.code abi)) (rowOfAbi_eq_some hf).2.2
  | none => exact absurd (decide_eq_true ⟨hc, rfl⟩) (List.find?_eq_none.mp hf row h)

theorem fromabi_default (h0 : abi ≠ 0)
    (hr : ∀ row, row ∈ errorRows → impl.compiles row = true → row.abi ≠ abi) :
    errorcodeFromabi impl abi t = errorcodeDynamicFromabi impl abi t := by
  rw [errorcodeFromabi, if_neg h0]
  cases hf : rowOfAbi impl abi with
  | some row =>
      obtain ⟨hm, hc, he⟩ := rowOfAbi_eq_some hf
      exact absurd he (hr row hm hc)
  | none => rfl

theorem fromabi_code {slot : Nat} (h : slot < t.count) (hs : t.slot slot = e) :
    errorcodeFromabi impl (codeOf errorcodeAbiBase slot) t = some e := by
  have hlt : slot < errorcodeSlots := Nat.lt_of_lt_of_le h t.count_le
  have hdyn := errorCode_dynamic hlt
  rw [fromabi_default (ne_zero_of_dynamic hdyn) fun row hm _ => ne_row_of_dynamic hdyn hm,
    errorcodeDynamicFromabi, slotOf_codeOf errorcodeRange hlt]
  exact congrArg some ((if_neg (Nat.not_le_of_lt h)).trans hs)

/-- The way down is undefined for the lowest integers, and for these alone. -/
theorem fromabi_isSome :
    (errorcodeFromabi impl abi t).isSome = true ↔
      -2147483648 + errorcodeAbiBase.toInt ≤ abi.toInt := by
  have hbase : errorcodeAbiBase.toInt = 16384 := by decide
  by_cases h0 : abi = 0
  · subst h0
    exact iff_of_true rfl (by decide)
  · cases hf : rowOfAbi impl abi with
    | some row =>
        obtain ⟨hm, -, rfl⟩ := rowOfAbi_eq_some hf
        rw [errorcodeFromabi, if_neg h0, hf]
        exact iff_of_true rfl (errorRows_not_low hm)
    | none =>
        rw [errorcodeFromabi, if_neg h0, hf]
        show (errorcodeDynamicFromabi impl abi t).isSome = true ↔ _
        rw [errorcodeDynamicFromabi, Option.isSome_map, slotOf_isSome errorcodeRange.base_nonneg]

theorem fromabi_lacking {row : ErrorRow} (h : row ∈ errorRows)
    (hc : impl.compiles row = false) :
    errorcodeFromabi impl row.abi t = some (impl.code abiErrOther) := by
  rw [fromabi_default (errorRows_ne_zero h), errorcodeDynamicFromabi]
  · have hle := (errorRows_range row h).2
    have hbase : errorcodeAbiBase.toInt = 16384 := by decide
    rw [Int32.le_iff_toInt_le, abiErrLastcode_toInt] at hle
    rw [slotOf_eq errorcodeRange.base_nonneg (errorRows_not_low h), if_pos (by omega)]
    rfl
  · intro row' hm hc' he
    rw [errorRows_inj hm h he, hc] at hc'
    exact nomatch hc'

/-! ## The way up -/

/-- How `errorcodeToabi` answers, and the table it leaves. -/
inductive Toabi (impl : ImplErrors) (t : ErrorTable) (e : Int32) : Int32 → ErrorTable → Prop
  | success (h : e = 0) : Toabi impl t e 0 t
  | row {row : ErrorRow} (he : e ≠ 0) (h : rowOfCode impl e = some row) :
      Toabi impl t e row.abi t
  | known {slot : Nat} (he : e ≠ 0) (hr : rowOfCode impl e = none) (h : t.find e = some slot) :
      Toabi impl t e (codeOf errorcodeAbiBase slot) t
  | interned {slot : Nat} {t' : ErrorTable} (he : e ≠ 0) (hr : rowOfCode impl e = none)
      (hf : t.find e = none) (h : t.append e he = some (slot, t')) :
      Toabi impl t e (codeOf errorcodeAbiBase slot) t'
  | refused (he : e ≠ 0) (hr : rowOfCode impl e = none) (hf : t.find e = none)
      (h : t.count = errorcodeSlots) : Toabi impl t e abiErrOther t

theorem toabi_cases (impl : ImplErrors) (t : ErrorTable) (e : Int32) :
    Toabi impl t e (errorcodeToabi impl e t).1 (errorcodeToabi impl e t).2 := by
  rw [errorcodeToabi]
  split
  · next he => exact .success he
  · next he =>
      split
      · next row hr => exact .row he hr
      · next hr =>
          rw [errorcodeDynamicToabi]
          split
          · next slot hf => exact .known he hr hf
          · next hf =>
              rw [errorcodeAdd, dif_neg he]
              cases ha : t.append e he with
              | some p => exact .interned he hr hf ha
              | none => exact .refused he hr hf (Registry.append_eq_none.mp ha)

theorem Toabi.extends (h : Toabi impl t e abi t') : t.Extends t' := by
  cases h with
  | interned he hr hf ha => exact Registry.append_extends ha
  | _ => exact .refl t

/-- A translation leads back, unless a full table refused it. -/
theorem Toabi.back (h : Toabi impl t e abi t') :
    errorcodeFromabi impl abi t' = some e ∨
      (t.count = errorcodeSlots ∧ t.find e = none ∧ abi = abiErrOther) := by
  cases h with
  | success he => exact .inl (congrArg some he.symm)
  | row he hr =>
      obtain ⟨hm, hc, hcode⟩ := rowOfCode_eq_some hr
      exact .inl ((fromabi_row hm hc).trans (congrArg some hcode))
  | known he hr hf =>
      obtain ⟨hlt, -, hs⟩ := Registry.find_eq_some hf
      exact .inl (fromabi_code hlt hs)
  | interned he hr hf ha =>
      obtain ⟨hlt, hs⟩ := Registry.append_slot ha
      exact .inl (fromabi_code hlt hs)
  | refused he hr hf hfull => exact .inr ⟨hfull, hf, rfl⟩

/-- What a translation issues is an entry of the table it leaves. -/
theorem Toabi.translated (h : Toabi impl t e abi t') {p : Int32 × Int32}
    (hp : p ∈ ErrorState.translated impl e abi t') :
    ∃ slot, slot < t'.count ∧ t'.slot slot = p.2 ∧ p.1 = codeOf errorcodeAbiBase slot := by
  rw [ErrorState.translated] at hp
  split at hp
  · next hcond =>
      obtain rfl := List.mem_singleton.mp hp
      cases h with
      | success he => exact absurd he hcond.1
      | row he hr => exact nomatch hr.symm.trans hcond.2.1
      | known he hr hf =>
          obtain ⟨hlt, -, hs⟩ := Registry.find_eq_some hf
          exact ⟨_, hlt, hs, rfl⟩
      | interned he hr hf ha =>
          obtain ⟨hlt, hs⟩ := Registry.append_slot ha
          exact ⟨_, hlt, hs, rfl⟩
      | refused he hr hf hfull => exact absurd hf hcond.2.2
  · exact nomatch hp

theorem Toabi.entry (h : Toabi impl t e abi t') {slot : Nat} (hlt : slot < t'.count) :
    slot < t.count ∨
      (codeOf errorcodeAbiBase slot, t'.slot slot) ∈ ErrorState.translated impl e abi t' := by
  cases h with
  | interned he hr hf ha =>
      obtain ⟨rfl, -, hcount, hslot⟩ := Registry.append_eq_some ha
      obtain ⟨-, hs⟩ := Registry.append_slot ha
      rcases Nat.lt_succ_iff_lt_or_eq.mp (hcount ▸ hlt) with hlt | rfl
      · exact .inl hlt
      · refine .inr ?_
        have hsome : t'.find e ≠ none := fun hn =>
          Registry.find_eq_none.mp hn _ (by omega) hs
        rw [ErrorState.translated, if_pos ⟨he, hr, hsome⟩, hs]
        exact List.mem_singleton.mpr rfl
  | _ => exact .inl hlt

/-! ## The invariant -/

structure ErrorInv (s : ErrorState) : Prop where
  issued : ∀ p, p ∈ s.issued →
    ∃ slot, slot < s.table.count ∧ s.table.slot slot = p.2 ∧ p.1 = codeOf errorcodeAbiBase slot
  entry : ∀ slot, slot < s.table.count →
    (codeOf errorcodeAbiBase slot, s.table.slot slot) ∈ s.issued

theorem ErrorInv.init : ErrorInv .init where
  issued _ h := nomatch h
  entry _ h := absurd h (Nat.not_lt_zero _)

/-- The table grows, and what is issued meanwhile is what it grows by. -/
theorem ErrorInv.grow {s : ErrorState} (h : ErrorInv s) {new : List (Int32 × Int32)}
    (hext : s.table.Extends t')
    (hnew : ∀ p, p ∈ new →
      ∃ slot, slot < t'.count ∧ t'.slot slot = p.2 ∧ p.1 = codeOf errorcodeAbiBase slot)
    (hentry : ∀ slot, slot < t'.count →
      slot < s.table.count ∨ (codeOf errorcodeAbiBase slot, t'.slot slot) ∈ new) :
    ErrorInv ⟨t', s.issued ++ new⟩ := by
  constructor
  · intro p hp
    rcases List.mem_append.mp hp with hp | hp
    · obtain ⟨slot, hlt, hs, hc⟩ := h.issued p hp
      obtain ⟨hlt', hs'⟩ := hext.slot_of_lt hlt hs
      exact ⟨slot, hlt', hs', hc⟩
    · exact hnew p hp
  · intro slot hlt
    rcases hentry slot hlt with hold | hm
    · have hs : t'.slot slot = s.table.slot slot := hext.2 slot hold
      exact List.mem_append_left _ (hs ▸ h.entry slot hold)
    · exact List.mem_append_right _ hm

theorem errorcodeAdd_eq_some (h : errorcodeAdd e t = some (abi, t')) :
    ∃ (he : e ≠ 0) (slot : Nat), t.append e he = some (slot, t') ∧
      abi = codeOf errorcodeAbiBase slot := by
  rw [errorcodeAdd] at h
  split at h
  · exact nomatch h
  · next he =>
      obtain ⟨p, hp, hpe⟩ := Option.map_eq_some_iff.mp h
      obtain ⟨rfl, rfl⟩ := Prod.mk.inj hpe
      exact ⟨he, p.1, hp, rfl⟩

/-- How a body that registers a number ends. -/
inductive Registers (impl : ImplErrors) (t : ErrorTable) (out : Outcome) : Registered → Prop
  | failed {abi : Int32} {t' : ErrorTable} (h : Toabi impl t out.ierror abi t') :
      Registers impl t out ⟨abi, none, t'⟩
  | noRoom (h0 : out.ierror = 0) (h : errorcodeAdd out.number t = none) :
      Registers impl t out ⟨abiErrIntern, none, t⟩
  | stored {slot : Nat} {t' : ErrorTable} (hn : out.number ≠ 0)
      (h : t.append out.number hn = some (slot, t')) :
      Registers impl t out ⟨0, some (codeOf errorcodeAbiBase slot), t'⟩

theorem registerNumber_cases (impl : ImplErrors) (t : ErrorTable) (out : Outcome) :
    Registers impl t out (registerNumber impl out t) := by
  rw [registerNumber]
  split
  · exact .failed (toabi_cases impl t out.ierror)
  · next h0 =>
      split
      · next ha => exact .noRoom (not_not.mp h0) ha
      · next abi t' ha =>
          obtain ⟨hn, slot, happ, rfl⟩ := errorcodeAdd_eq_some ha
          exact .stored hn happ

/-- A new code is registered as a new class is, of whatever class it is. -/
theorem addErrorCode_eq_some {target : Option (Int32 → Outcome)} {r : Registered}
    (h : addErrorCode impl target abi t = some r) :
    ∃ out, r = addErrorClass impl out t := by
  cases target with
  | none => exact ⟨none, (Option.some.inj h).symm⟩
  | some target =>
      obtain ⟨ierrorclass, -, rfl⟩ := Option.map_eq_some_iff.mp h
      exact ⟨some (target ierrorclass), rfl⟩

theorem Registers.extends {out : Outcome} {r : Registered} (h : Registers impl t out r) :
    t.Extends r.table := by
  cases h with
  | failed ht => exact ht.extends
  | noRoom h0 ha => exact .refl t
  | stored hn ha => exact Registry.append_extends ha

theorem ErrorInv.registered {s : ErrorState} (h : ErrorInv s) {out : Outcome} {r : Registered}
    (hr : Registers impl s.table out r) : ErrorInv (s.registered impl out r) := by
  refine h.grow hr.extends (fun p hp => ?_) (fun slot hlt => ?_)
  · cases hr with
    | failed ht => exact ht.translated hp
    | noRoom h0 ha =>
        rw [ErrorState.translated, if_neg fun hc => hc.1 h0] at hp
        exact nomatch hp
    | stored hn ha =>
        obtain rfl := List.mem_singleton.mp hp
        obtain ⟨hlt, hs⟩ := Registry.append_slot ha
        exact ⟨_, hlt, hs, rfl⟩
  · cases hr with
    | failed ht => exact ht.entry hlt
    | noRoom h0 ha => exact .inl hlt
    | stored hn ha =>
        obtain ⟨rfl, -, hcount, -⟩ := Registry.append_eq_some ha
        obtain ⟨-, hs⟩ := Registry.append_slot ha
        have hlt : slot < s.table.count + 1 := hcount ▸ hlt
        rcases Nat.lt_succ_iff_lt_or_eq.mp hlt with hlt | rfl
        · exact .inl hlt
        · rw [hs]
          exact .inr (List.mem_singleton.mpr rfl)

/-- A step extends the table, keeps the invariant, and forgets nothing issued. -/
theorem ErrorInv.step {s : ErrorState} (h : ErrorInv s) (impl : ImplErrors) (call : ErrorCall) :
    ErrorInv (s.step impl call) ∧ s.table.Extends (s.step impl call).table ∧
      ∀ p, p ∈ s.issued → p ∈ (s.step impl call).issued := by
  have hkeep : ∀ new : List (Int32 × Int32), ∀ p, p ∈ s.issued → p ∈ s.issued ++ new :=
    fun new p hp => List.mem_append_left _ hp
  cases call with
  | add target =>
      cases target with
      | none => exact ⟨h, .refl _, fun _ hp => hp⟩
      | some out =>
          have hr := registerNumber_cases impl s.table out
          exact ⟨h.registered hr, hr.extends, hkeep _⟩
  | toabi ierror =>
      have ht := toabi_cases impl s.table ierror
      exact ⟨h.grow ht.extends (fun p hp => ht.translated hp) fun slot hlt => ht.entry hlt,
        ht.extends, hkeep _⟩

theorem ErrorInv.run {s : ErrorState} (h : ErrorInv s) (more : List ErrorCall) :
    ErrorInv (more.foldl (ErrorState.step impl) s) ∧
      s.table.Extends (more.foldl (ErrorState.step impl) s).table ∧
      ∀ p, p ∈ s.issued → p ∈ (more.foldl (ErrorState.step impl) s).issued := by
  induction more generalizing s with
  | nil => exact ⟨h, .refl _, fun _ hp => hp⟩
  | cons call rest ih =>
      obtain ⟨h₁, hext₁, hkeep₁⟩ := h.step impl call
      obtain ⟨h₂, hext₂, hkeep₂⟩ := ih h₁
      exact ⟨h₂, hext₁.trans hext₂, fun p hp => hkeep₂ p (hkeep₁ p hp)⟩

theorem ErrorInv.after (impl : ImplErrors) (calls : List ErrorCall) :
    ErrorInv (.after impl calls) := (ErrorInv.init.run calls).1

theorem ErrorState.after_append {c more : List ErrorCall} :
    ErrorState.after impl (c ++ more) =
      more.foldl (ErrorState.step impl) (.after impl c) := List.foldl_append ..

theorem ErrorState.after_extends (impl : ImplErrors) (calls more : List ErrorCall) :
    (ErrorState.after impl calls).table.Extends
      (ErrorState.after impl (calls ++ more)).table := by
  rw [ErrorState.after_append]
  exact ((ErrorInv.after impl calls).run more).2.1

/-- A code is in the table if and only if it was issued one. -/
theorem ErrorInv.unseen {s : ErrorState} (h : ErrorInv s) :
    s.table.find e = none ↔ ∀ abi, (abi, e) ∉ s.issued := by
  rw [Registry.find_eq_none]
  constructor
  · intro hno abi hm
    obtain ⟨slot, hlt, hs, -⟩ := h.issued _ hm
    exact hno slot hlt hs
  · intro hno slot hlt hs
    exact hno _ (hs ▸ h.entry slot hlt)

/-- An issued code means what it was issued for in every later table, and is no
predefined one. -/
theorem ErrorInv.kept {s : ErrorState} (h : ErrorInv s) (hm : (abi, e) ∈ s.issued)
    (hext : s.table.Extends t) :
    errorcodeFromabi impl abi t = some e ∧ abi ≠ 0 ∧
      ∀ row, row ∈ errorRows → row.abi ≠ abi := by
  obtain ⟨slot, hlt, hs, hc⟩ := h.issued _ hm
  obtain rfl : abi = codeOf errorcodeAbiBase slot := hc
  have hdyn := errorCode_dynamic (Nat.lt_of_lt_of_le hlt (Registry.count_le _))
  obtain ⟨hlt', hs'⟩ := hext.slot_of_lt hlt hs
  exact ⟨fromabi_code hlt' hs', ne_zero_of_dynamic hdyn,
    fun row hrow => ne_row_of_dynamic hdyn hrow⟩

theorem toabi_refused (he : e ≠ 0) (hr : rowOfCode impl e = none) (hfind : t.find e = none)
    (hfull : t.count = errorcodeSlots) : (errorcodeToabi impl e t).1 = abiErrOther := by
  have hcases := toabi_cases impl t e
  generalize errorcodeToabi impl e t = ans at hcases ⊢
  obtain ⟨abi, t'⟩ := ans
  dsimp only at hcases ⊢
  cases hcases with
  | success h0 => exact absurd h0 he
  | row _ hr' => exact nomatch hr.symm.trans hr'
  | known _ _ hf => exact nomatch hfind.symm.trans hf
  | interned _ _ _ ha =>
      obtain ⟨rfl, hlt, -⟩ := Registry.append_eq_some ha
      omega
  | refused => rfl

/-! ## What a caller relies on -/

theorem errorcodeLastused_toInt (t : ErrorTable) :
    (errorcodeLastused t).toInt = 16383 + t.count := by
  have hle : t.count ≤ 4096 := t.count_le
  rw [errorcodeLastused]
  split
  · have hbase : errorcodeAbiBase.toInt = 16384 := by decide
    rw [Int32.toInt_sub, Int32.toInt_add, Int32.toInt_ofNat_of_lt (by omega), hbase,
      Int32.toInt_one]
    rw [Int.bmod_eq_of_le (n := 16384 + (t.count : Int)) (by omega) (by omega),
      Int.bmod_eq_of_le (by omega) (by omega)]
    omega
  · next h =>
      rw [abiErrLastcode_toInt]
      omega

theorem errorcodeLastused_mono (h : t.Extends t') :
    errorcodeLastused t ≤ errorcodeLastused t' := by
  rw [Int32.le_iff_toInt_le, errorcodeLastused_toInt, errorcodeLastused_toInt]
  have := h.1
  omega

theorem lastcode_le_lastused (t : ErrorTable) : abiErrLastcode ≤ errorcodeLastused t := by
  rw [Int32.le_iff_toInt_le, abiErrLastcode_toInt, errorcodeLastused_toInt]
  omega

theorem ErrorInv.issued_le_lastused {s : ErrorState} (h : ErrorInv s)
    (hm : (abi, e) ∈ s.issued) : abi ≤ errorcodeLastused s.table := by
  obtain ⟨slot, hlt, -, hc⟩ := h.issued _ hm
  obtain rfl : abi = codeOf errorcodeAbiBase slot := hc
  rw [Int32.le_iff_toInt_le, errorcodeLastused_toInt,
    errorCode_toInt (Nat.lt_of_lt_of_le hlt (Registry.count_le _))]
  omega

/-- What a history has made of the codes in it, and keeps however it goes on. -/
structure ErrorFaithful (impl : ImplErrors) (calls : List ErrorCall) : Prop where
  roundtrip : ∀ e, let s := ErrorState.after impl calls
    let (abi, t) := errorcodeToabi impl e s.table
    errorcodeFromabi impl abi t = some e ∨ (s.table.count = errorcodeSlots ∧
      (∀ abi', (abi', e) ∉ s.issued) ∧ abi = abiErrOther)
  /-- A code that was never entered, and no case names, is refused when the
  table is full. -/
  refused : ∀ e, e ≠ 0 → rowOfCode impl e = none →
    (ErrorState.after impl calls).table.count = errorcodeSlots →
    (∀ abi, (abi, e) ∉ (ErrorState.after impl calls).issued) →
    (errorcodeToabi impl e (ErrorState.after impl calls).table).1 = abiErrOther
  /-- An issued code keeps its meaning, and is no predefined one. -/
  kept : ∀ abi e more, (abi, e) ∈ (ErrorState.after impl calls).issued →
    errorcodeFromabi impl abi (ErrorState.after impl (calls ++ more)).table = some e ∧
      abi ≠ 0 ∧ ∀ row, row ∈ errorRows → row.abi ≠ abi
  lastused : abiErrLastcode ≤ errorcodeLastused (ErrorState.after impl calls).table ∧
    (∀ abi e, (abi, e) ∈ (ErrorState.after impl calls).issued →
      abi ≤ errorcodeLastused (ErrorState.after impl calls).table) ∧
    (∀ row, row ∈ errorRows →
      row.abi ≤ errorcodeLastused (ErrorState.after impl calls).table) ∧
    ∀ more, errorcodeLastused (ErrorState.after impl calls).table ≤
      errorcodeLastused (ErrorState.after impl (calls ++ more)).table
  /-- Nothing tried on a full table changes a translation. -/
  full : (ErrorState.after impl calls).table.count = errorcodeSlots → ∀ more,
    (∀ abi, errorcodeFromabi impl abi (ErrorState.after impl (calls ++ more)).table =
      errorcodeFromabi impl abi (ErrorState.after impl calls).table) ∧
    ∀ e, (errorcodeToabi impl e (ErrorState.after impl (calls ++ more)).table).1 =
      (errorcodeToabi impl e (ErrorState.after impl calls).table).1

/-- Error codes over every history of registrations and translations. -/
theorem error_codes_faithful (impl : ImplErrors) (calls : List ErrorCall) :
    ErrorFaithful impl calls := by
  have h := ErrorInv.after impl calls
  have hlater := ErrorState.after_extends impl calls
  constructor
  · intro e
    rcases (toabi_cases impl (ErrorState.after impl calls).table e).back with hb | ⟨hf, hn, ho⟩
    · exact .inl hb
    · exact .inr ⟨hf, h.unseen.mp hn, ho⟩
  · exact fun e he hr hfull hno => toabi_refused he hr (h.unseen.mpr hno) hfull
  · exact fun abi e more hm => h.kept hm (hlater more)
  · have hbase := lastcode_le_lastused (ErrorState.after impl calls).table
    exact ⟨hbase, fun abi e hm => h.issued_le_lastused hm,
      fun row hrow => Int32.le_trans (errorRows_range row hrow).2 hbase,
      fun more => errorcodeLastused_mono (hlater more)⟩
  · intro hfull more
    rw [(hlater more).eq_of_full hfull]
    exact ⟨fun _ => rfl, fun _ => rfl⟩

end AbiWrapper.Ref
