import AbiWrapper.Ref.Serialize

/-!
# Serialization over whole histories

The table has no bits twice, because a scan of all of it comes before every
append; it has none of the reserved range, because those are answered before
the scan; and what was answered is what the table says, because entries do not
change. `SerialInv` says the three, and the claims a caller relies on follow
from it in the last state of a history, for every pair of calls in it.
-/

namespace AbiWrapper.Ref

open AbiWrapper.Lib

theorem serialSlots_lt : serialSlots < 2147483648 := by decide

theorem serialRange : SlotRange serialSlots serialAbiBase := ⟨by decide, by decide⟩

theorem serialCode_toInt {slot : Nat} (h : slot < serialSlots) :
    (codeOf serialAbiBase slot).toInt = 0x40000000 + slot := by
  have hlt : slot < 4096 := h
  have hbase : serialAbiBase.toInt = 0x40000000 := by decide
  rw [codeOf_toInt (by omega) (by omega), hbase]

theorem serialCode_ne_zero {slot : Nat} (h : slot < serialSlots) :
    codeOf serialAbiBase slot ≠ 0 := by
  intro he
  have hto := serialCode_toInt h
  rw [he, Int32.toInt_zero] at hto
  omega

theorem predefRange_toNat {bits : UInt64} (h : inPredefRange bits) :
    0x20 ≤ bits.toNat ∧ bits.toNat ≤ 0x2eb :=
  ⟨UInt64.le_iff_toNat_le.mp h.1, UInt64.le_iff_toNat_le.mp h.2⟩

theorem predefValue_toInt {bits : UInt64} (h : inPredefRange bits) :
    (Int32.ofNat bits.toNat).toInt = bits.toNat :=
  Int32.toInt_ofNat_of_lt (by have := (predefRange_toNat h).2; omega)

theorem predefValue_ne_zero {bits : UInt64} (h : inPredefRange bits) :
    Int32.ofNat bits.toNat ≠ 0 := by
  intro hz
  have hto := predefValue_toInt h
  have hlo := (predefRange_toNat h).1
  rw [hz, Int32.toInt_zero] at hto
  omega

theorem predefValue_back {bits : UInt64} (h : inPredefRange bits) :
    UInt64.ofNat (Int32.ofNat bits.toNat).toNatClampNeg = bits := by
  rw [Int32.toNatClampNeg_ofNat_of_lt (by have := (predefRange_toNat h).2; omega),
    UInt64.ofNat_toNat]

theorem serialCode_not_predef {slot : Nat} (h : slot < serialSlots) :
    ¬ (0 ≤ codeOf serialAbiBase slot ∧
      inPredefRange (UInt64.ofNat (codeOf serialAbiBase slot).toNatClampNeg)) := by
  rintro ⟨hpos, hr⟩
  have hlt : slot < 4096 := h
  have hcast := Int32.cast_toNatClampNeg _ hpos
  rw [serialCode_toInt h] at hcast
  have hle := (predefRange_toNat hr).2
  rw [UInt64.toNat_ofNat_of_lt' (by show _ < 2 ^ 64; omega)] at hle
  omega

/-! ## The two operations -/

theorem handleToint_predef {bits : UInt64} (h : inPredefRange bits) (t : SerialTable) :
    handleToint bits t = (Int32.ofNat bits.toNat, t) := if_pos h

theorem handleToint_known {bits : UInt64} {t : SerialTable} {slot : Nat}
    (hr : ¬ inPredefRange bits) (h : t.find bits = some slot) :
    handleToint bits t = (codeOf serialAbiBase slot, t) := by
  obtain ⟨hlt, -, hs⟩ := Registry.find_eq_some h
  rw [handleToint, if_neg hr, dif_neg (hs ▸ t.taken slot hlt), h]

theorem handleToint_new {bits : UInt64} {t t' : SerialTable} {slot : Nat} {hb : bits ≠ 0}
    (hr : ¬ inPredefRange bits) (h : t.find bits = none)
    (ha : t.append bits hb = some (slot, t')) :
    handleToint bits t = (codeOf serialAbiBase slot, t') := by
  rw [handleToint, if_neg hr, dif_neg hb, h]
  dsimp only
  rw [ha]

theorem handleToint_full {bits : UInt64} {t : SerialTable} {hb : bits ≠ 0}
    (hr : ¬ inPredefRange bits) (h : t.find bits = none)
    (ha : t.append bits hb = none) : handleToint bits t = (0, t) := by
  rw [handleToint, if_neg hr, dif_neg hb, h]
  dsimp only
  rw [ha]

theorem handleFromint_predef {bits : UInt64} (h : inPredefRange bits) (t : SerialTable) :
    handleFromint (Int32.ofNat bits.toNat) t = some (some bits) := by
  have hpos : 0 ≤ Int32.ofNat bits.toNat := by
    rw [Int32.le_iff_toInt_le, predefValue_toInt h, Int32.toInt_zero]
    omega
  rw [handleFromint, predefValue_back h, if_pos ⟨hpos, h⟩]

theorem handleFromint_code {t : SerialTable} {slot : Nat} (h : slot < t.count) :
    handleFromint (codeOf serialAbiBase slot) t = some (some (t.slot slot)) := by
  have hlt : slot < serialSlots := Nat.lt_of_lt_of_le h t.count_le
  rw [handleFromint, if_neg (serialCode_not_predef hlt), slotOf_codeOf serialRange hlt]
  exact congrArg some (if_neg (t.taken slot h))

theorem handleFromint_eq_some {value : Int32} {t : SerialTable} {bits : UInt64}
    (hr : ¬ (0 ≤ value ∧ inPredefRange (UInt64.ofNat value.toNatClampNeg)))
    (h : handleFromint value t = some (some bits)) :
    ∃ slot, slot < t.count ∧ value = codeOf serialAbiBase slot ∧ t.slot slot = bits := by
  rw [handleFromint, if_neg hr] at h
  obtain ⟨found, hslot, hbits⟩ := Option.map_eq_some_iff.mp h
  cases found with
  | none => cases hbits
  | some slot =>
      dsimp only at hbits
      split at hbits
      · cases hbits
      · next hne =>
          obtain ⟨-, rfl⟩ := slotOf_eq_some serialRange hslot
          exact ⟨slot, Registry.lt_count_of_slot hne, rfl, Option.some.inj hbits⟩

/-- An integer of the reserved range is not among the lowest. -/
theorem predef_not_low {value : Int32} (h : 0 ≤ value) :
    -2147483648 + serialAbiBase.toInt ≤ value.toInt := by
  have hbase : serialAbiBase.toInt = 0x40000000 := by decide
  rw [Int32.le_iff_toInt_le, Int32.toInt_zero] at h
  omega

/-- The way back is undefined for the lowest integers, and for these alone. -/
theorem handleFromint_isSome {value : Int32} {t : SerialTable} :
    (handleFromint value t).isSome = true ↔
      -2147483648 + serialAbiBase.toInt ≤ value.toInt := by
  rw [handleFromint]
  split
  · next hr => exact iff_of_true rfl (predef_not_low hr.1)
  · rw [Option.isSome_map, slotOf_isSome serialRange.base_nonneg]

/-! ## The invariant -/

structure SerialInv (s : SerialState) : Prop where
  /-- A nonzero answer is what the range or the table says. -/
  answer : ∀ bits value, (bits, value) ∈ s.issued → value ≠ 0 →
    (inPredefRange bits ∧ value = Int32.ofNat bits.toNat) ∨
      ∃ slot, slot < s.table.count ∧ s.table.slot slot = bits ∧
        value = codeOf serialAbiBase slot
  /-- Every entry has been handed out. -/
  entry : ∀ slot, slot < s.table.count →
    (s.table.slot slot, codeOf serialAbiBase slot) ∈ s.issued
  dynamic : ∀ slot, slot < s.table.count → ¬ inPredefRange (s.table.slot slot)
  distinct : ∀ slot slot', slot < s.table.count → slot' < s.table.count →
    s.table.slot slot = s.table.slot slot' → slot = slot'

theorem SerialInv.init : SerialInv .init where
  answer _ _ h := nomatch h
  entry _ h := absurd h (Nat.not_lt_zero _)
  dynamic _ h := absurd h (Nat.not_lt_zero _)
  distinct _ _ h := absurd h (Nat.not_lt_zero _)

/-- An answer that the table already backs. -/
theorem SerialInv.record {s : SerialState} (h : SerialInv s) {bits : UInt64} {value : Int32}
    (hv : value ≠ 0 → (inPredefRange bits ∧ value = Int32.ofNat bits.toNat) ∨
      ∃ slot, slot < s.table.count ∧ s.table.slot slot = bits ∧
        value = codeOf serialAbiBase slot) :
    SerialInv ⟨s.table, s.issued ++ [(bits, value)]⟩ where
  answer b v hm hne := by
    rcases List.mem_append.mp hm with hm | hm
    · exact h.answer b v hm hne
    · obtain ⟨rfl, rfl⟩ := Prod.mk.inj (List.mem_singleton.mp hm)
      exact hv hne
  entry slot hlt := List.mem_append_left _ (h.entry slot hlt)
  dynamic := h.dynamic
  distinct := h.distinct

theorem SerialInv.intern {s : SerialState} (h : SerialInv s) {bits : UInt64} {hb : bits ≠ 0}
    {slot : Nat} {t : SerialTable} (hr : ¬ inPredefRange bits) (hnew : s.table.find bits = none)
    (ha : s.table.append bits hb = some (slot, t)) :
    SerialInv ⟨t, s.issued ++ [(bits, codeOf serialAbiBase slot)]⟩ := by
  obtain ⟨rfl, -, hcount, hslot⟩ := Registry.append_eq_some ha
  have hext := Registry.append_extends ha
  have hself := Registry.append_slot ha
  have hsplit : ∀ i, i < t.count → i < s.table.count ∨ i = s.table.count := by omega
  have hno := Registry.find_eq_none.mp hnew
  constructor
  · intro b v hm hne
    rcases List.mem_append.mp hm with hm | hm
    · rcases h.answer b v hm hne with hp | ⟨i, hi, hbi, hv⟩
      · exact .inl hp
      · obtain ⟨hi', hs'⟩ := hext.slot_of_lt hi hbi
        exact .inr ⟨i, hi', hs', hv⟩
    · obtain ⟨rfl, rfl⟩ := Prod.mk.inj (List.mem_singleton.mp hm)
      exact .inr ⟨_, hself.1, hself.2, rfl⟩
  · intro i hi
    rcases hsplit i hi with hlt | rfl
    · rw [hext.2 i hlt]
      exact List.mem_append_left _ (h.entry i hlt)
    · rw [hself.2]
      exact List.mem_append_right _ (List.mem_singleton.mpr rfl)
  · intro i hi
    rcases hsplit i hi with hlt | rfl
    · rw [hext.2 i hlt]
      exact h.dynamic i hlt
    · rw [hself.2]
      exact hr
  · intro i j hi hj he
    rcases hsplit i hi with hi | rfl <;> rcases hsplit j hj with hj | rfl
    · rw [hext.2 i hi, hext.2 j hj] at he
      exact h.distinct i j hi hj he
    · rw [hext.2 i hi, hself.2] at he
      exact absurd he (hno i hi)
    · rw [hext.2 j hj, hself.2] at he
      exact absurd he.symm (hno j hj)
    · rfl

theorem SerialInv.toint {s : SerialState} (h : SerialInv s) (bits : UInt64) :
    SerialInv ⟨(handleToint bits s.table).2,
      s.issued ++ [(bits, (handleToint bits s.table).1)]⟩ := by
  by_cases hr : inPredefRange bits
  · rw [handleToint_predef hr]
    exact h.record fun _ => .inl ⟨hr, rfl⟩
  · by_cases hb : bits = 0
    · rw [handleToint, if_neg hr, dif_pos hb]
      exact h.record fun hne => absurd rfl hne
    · cases hfind : s.table.find bits with
      | some slot =>
          obtain ⟨hlt, -, hs⟩ := Registry.find_eq_some hfind
          rw [handleToint_known hr hfind]
          exact h.record fun _ => .inr ⟨slot, hlt, hs, rfl⟩
      | none =>
          cases ha : s.table.append bits hb with
          | some p =>
              obtain ⟨slot, t⟩ := p
              rw [handleToint_new hr hfind ha]
              exact h.intern hr hfind ha
          | none =>
              rw [handleToint_full hr hfind ha]
              exact h.record fun hne => absurd rfl hne

theorem SerialInv.step {s s' : SerialState} (h : SerialInv s) {call : SerialCall}
    (hs : s.step call = some s') : SerialInv s' := by
  cases call with
  | fromint c value =>
      obtain ⟨bits, -, rfl⟩ := Option.map_eq_some_iff.mp hs
      exact h
  | toint c bits =>
      rw [SerialState.step] at hs
      obtain rfl := Option.some.inj hs
      exact h.toint bits

theorem SerialInv.run {s : SerialState} (calls : List SerialCall)
    (he : exec SerialState.step .init calls = some s) : SerialInv s :=
  exec_keeps (fun _ _ _ h hs => h.step hs) .init he

variable {s : SerialState}

theorem SerialInv.same (h : SerialInv s) {bits : UInt64} {value value' : Int32}
    (hm : (bits, value) ∈ s.issued) (hm' : (bits, value') ∈ s.issued) (hne : value ≠ 0)
    (hne' : value' ≠ 0) : value = value' := by
  rcases h.answer bits value hm hne with ⟨hr, rfl⟩ | ⟨i, hi, hbi, rfl⟩
  · rcases h.answer bits value' hm' hne' with ⟨-, rfl⟩ | ⟨j, hj, hbj, rfl⟩
    · rfl
    · exact absurd (hbj ▸ hr) (h.dynamic j hj)
  · rcases h.answer bits value' hm' hne' with ⟨hr, rfl⟩ | ⟨j, hj, hbj, rfl⟩
    · exact absurd (hbi ▸ hr) (h.dynamic i hi)
    · rw [h.distinct i j hi hj (hbi.trans hbj.symm)]

theorem SerialInv.roundtrip (h : SerialInv s) {bits : UInt64} {value : Int32}
    (hm : (bits, value) ∈ s.issued) (hne : value ≠ 0) :
    handleFromint value s.table = some (some bits) := by
  rcases h.answer bits value hm hne with ⟨hr, rfl⟩ | ⟨i, hi, rfl, rfl⟩
  · exact handleFromint_predef hr _
  · exact handleFromint_code hi

theorem SerialInv.rejected (h : SerialInv s) {value : Int32}
    (hr : ¬ (0 ≤ value ∧ inPredefRange (UInt64.ofNat value.toNatClampNeg)))
    (hno : ∀ bits, (bits, value) ∈ s.issued → value = 0)
    (hv : -2147483648 + serialAbiBase.toInt ≤ value.toInt) :
    handleFromint value s.table = some none := by
  obtain ⟨answer, hf⟩ := Option.isSome_iff_exists.mp
    (handleFromint_isSome (t := s.table) |>.mpr hv)
  cases answer with
  | none => exact hf
  | some bits =>
      obtain ⟨slot, hlt, rfl, -⟩ := handleFromint_eq_some hr hf
      exact absurd (hno _ (h.entry slot hlt))
        (serialCode_ne_zero (Nat.lt_of_lt_of_le hlt s.table.count_le))

/-- Bits outside the range are in the table if and only if a call had an integer
for them. -/
theorem SerialInv.unseen (h : SerialInv s) {bits : UInt64} (hr : ¬ inPredefRange bits) :
    s.table.find bits = none ↔ ∀ value, (bits, value) ∈ s.issued → value = 0 := by
  rw [Registry.find_eq_none]
  constructor
  · intro hno value hm
    by_contra hne
    rcases h.answer bits value hm hne with ⟨hr', -⟩ | ⟨i, hi, hbi, -⟩
    · exact hr hr'
    · exact hno i hi hbi
  · intro hno i hi hbi
    exact serialCode_ne_zero (Nat.lt_of_lt_of_le hi s.table.count_le)
      (hno _ (hbi ▸ h.entry i hi))

theorem SerialInv.refused (h : SerialInv s) {bits : UInt64} (hb : bits ≠ 0) :
    (handleToint bits s.table).1 = 0 ↔ ¬ inPredefRange bits ∧ s.table.count = serialSlots ∧
      ∀ value, (bits, value) ∈ s.issued → value = 0 := by
  by_cases hr : inPredefRange bits
  · rw [handleToint_predef hr]
    exact ⟨fun hz => absurd hz (predefValue_ne_zero hr), fun hz => absurd hr hz.1⟩
  · rw [← h.unseen hr]
    cases hfind : s.table.find bits with
    | some slot =>
        obtain ⟨-, hcap, -⟩ := Registry.find_eq_some hfind
        rw [handleToint_known hr hfind]
        exact ⟨fun hz => absurd hz (serialCode_ne_zero hcap), fun hz => nomatch hz.2.2⟩
    | none =>
        cases ha : s.table.append bits hb with
        | some p =>
            obtain ⟨slot, t⟩ := p
            obtain ⟨rfl, hcap, -⟩ := Registry.append_eq_some ha
            rw [handleToint_new hr hfind ha]
            refine ⟨fun hz => absurd hz (serialCode_ne_zero hcap), fun hz => ?_⟩
            exact absurd hz.2.1 (Nat.ne_of_lt hcap)
        | none =>
            rw [handleToint_full hr hfind ha]
            exact ⟨fun _ => ⟨hr, Registry.append_eq_none.mp ha, rfl⟩, fun _ => rfl⟩

/-! ## What a caller relies on -/

/-- What a history has made of the calls in it, where `value` is asked about. -/
structure SerialStable (s : SerialState) (value : Int32) : Prop where
  own_value : ∀ bits, inPredefRange bits →
    handleToint bits s.table = (Int32.ofNat bits.toNat, s.table) ∧
      handleFromint (Int32.ofNat bits.toNat) s.table = some (some bits)
  same : ∀ bits value value', (bits, value) ∈ s.issued → (bits, value') ∈ s.issued →
    value ≠ 0 → value' ≠ 0 → value = value'
  injective : ∀ bits bits' value, (bits, value) ∈ s.issued → (bits', value) ∈ s.issued →
    value ≠ 0 → bits = bits'
  roundtrip : ∀ bits value, (bits, value) ∈ s.issued → value ≠ 0 →
    handleFromint value s.table = some (some bits)
  /-- An integer outside the reserved range that names no handle so far. -/
  rejected : ¬ (0 ≤ value ∧ inPredefRange (UInt64.ofNat value.toNatClampNeg)) →
    (∀ bits, (bits, value) ∈ s.issued → value = 0) →
    handleFromint value s.table = some none ∧
      ∀ c, fromintBody c value s.table = some (abiNull c)
  /-- Zero is for bits that no call has had an integer for, and only once the
  table is full. -/
  refused : ∀ bits, bits ≠ 0 → ((handleToint bits s.table).1 = 0 ↔
    ¬ inPredefRange bits ∧ s.table.count = serialSlots ∧
      ∀ value, (bits, value) ∈ s.issued → value = 0)

theorem SerialInv.stable (h : SerialInv s) {value : Int32}
    (hv : -2147483648 + serialAbiBase.toInt ≤ value.toInt) : SerialStable s value where
  own_value bits hr := ⟨handleToint_predef hr _, handleFromint_predef hr _⟩
  same bits value value' hm hm' hne hne' := h.same hm hm' hne hne'
  injective bits bits' value hm hm' hne :=
    -- The way back is a function, so two bits with one integer are one.
    Option.some.inj (Option.some.inj
      ((h.roundtrip hm hne).symm.trans (h.roundtrip hm' hne)))
  roundtrip bits value hm hne := h.roundtrip hm hne
  rejected hr hno := by
    refine ⟨h.rejected hr hno hv, fun c => ?_⟩
    rw [fromintBody, h.rejected hr hno hv]
    rfl
  refused bits hb := h.refused hb

/-- The lowest integers were never issued, and their way back is undefined. -/
theorem SerialInv.not_low (h : SerialInv s) {value : Int32} (hst : SerialStable s value) :
    -2147483648 + serialAbiBase.toInt ≤ value.toInt := by
  have hbase : serialAbiBase.toInt = 0x40000000 := by decide
  by_contra hlow
  have hr : ¬ (0 ≤ value ∧ inPredefRange (UInt64.ofNat value.toNatClampNeg)) :=
    fun hr => hlow (predef_not_low hr.1)
  refine hlow (handleFromint_isSome (t := s.table).mp ?_)
  have hno : ∀ bits, (bits, value) ∈ s.issued → value = 0 := by
    intro bits hm
    by_contra hne
    rw [← handleFromint_isSome (t := s.table), h.roundtrip hm hne] at hlow
    exact hlow rfl
  rw [(hst.rejected hr hno).1]
  rfl

/-- The integers that a history converts back are not among the lowest. -/
def SerialCall.inRange : SerialCall → Prop
  | .toint _ _ => True
  | .fromint _ value => -2147483648 + serialAbiBase.toInt ≤ value.toInt

theorem serial_step_isSome {call : SerialCall} : (s.step call).isSome = true ↔ call.inRange := by
  cases call with
  | toint c bits => exact iff_of_true rfl trivial
  | fromint c value =>
      rw [SerialState.step, Option.isSome_map, fromintBody, Option.isSome_map,
        handleFromint_isSome]
      rfl

/-- A history is defined if and only if each of its calls is. -/
theorem serial_exec_isSome {calls : List SerialCall} :
    (exec SerialState.step s calls).isSome = true ↔ ∀ call, call ∈ calls → call.inRange := by
  induction calls generalizing s with
  | nil => exact iff_of_true rfl fun _ hm => nomatch hm
  | cons call rest ih =>
      rw [exec_cons, List.forall_mem_cons, ← serial_step_isSome (s := s)]
      cases hs : s.step call with
      | none => exact iff_of_false Bool.false_ne_true fun h => Bool.false_ne_true h.1
      | some s' =>
          rw [Option.bind_some, ih]
          exact (and_iff_right rfl).symm

/-- Serialization over every history of calls of every class: it is defined, and
does what a caller relies on, exactly if no integer that is converted back is
among the lowest. -/
theorem serialization_stable_iff (calls : List SerialCall) (value : Int32) :
    (∃ s, exec SerialState.step .init calls = some s ∧ SerialStable s value) ↔
      (∀ call, call ∈ calls → call.inRange) ∧
        -2147483648 + serialAbiBase.toInt ≤ value.toInt := by
  constructor
  · rintro ⟨s, he, hst⟩
    exact ⟨serial_exec_isSome.mp (by rw [he]; rfl), (SerialInv.run calls he).not_low hst⟩
  · rintro ⟨hcalls, hv⟩
    obtain ⟨s, he⟩ := Option.isSome_iff_exists.mp (serial_exec_isSome.mpr hcalls)
    exact ⟨s, he, (SerialInv.run calls he).stable hv⟩

/-- Nothing has been serialized, and the lowest integer is converted back. -/
theorem lowest_serial_undefined :
    ¬ ∀ (calls : List SerialCall) (value : Int32),
      ∃ s, exec SerialState.step .init calls = some s ∧ SerialStable s value := by
  intro h
  obtain ⟨s, he, hst⟩ := h [] (-2147483648)
  obtain rfl := Option.some.inj he
  have hf := (hst.rejected (by decide) fun _ hm => nomatch hm).1
  exact absurd hf (by decide)

end AbiWrapper.Ref
