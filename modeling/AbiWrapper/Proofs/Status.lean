import AbiWrapper.Proofs.ErrorClass
import AbiWrapper.Ref.Status

/-!
# A status goes up and comes down again

Three facts, one for each part of a status. A sentinel that the upward switch
finds is the one the downward switch finds for its ABI value, and a value that
neither knows stays, since no ABI sentinel is a rank or a tag. An error code
comes back by `Toabi.back`. And the private bytes are at one place each: byte
`a` of the head is byte `a` of the scratch area, byte `a` of the tail is the
head's length plus `a` less the tail's offset, and the assertions on the layout
keep all of them inside it (`statusToabi_internal`).
-/

namespace AbiWrapper.Ref

open AbiWrapper.Lib

variable {fmt : IntFormat} {L : StatusLayout} {impl : StatusImpl} {withError : Bool}
  {st abi stack : Bytes} {t : ErrorTable}

/-! ## Ranks and tags -/

/-- A value that has a case comes back, and so does one that is no ABI value of
the switch. -/
theorem Sentinels.back {rows : Sentinels} (habi : (rows.map Prod.fst).Nodup) {value : Int32}
    (hv : value ∈ rows.map Prod.snd ∨ value ∉ rows.map Prod.fst) :
    rows.fromabi (rows.toabi value) = value := by
  cases hf : rows.find? fun row => row.2 = value with
  | some row =>
      have hval : row.2 = value := of_decide_eq_true (List.find?_some hf :)
      have hmem := List.mem_of_find?_eq_some hf
      have hto : rows.toabi value = row.1 := by rw [toabi, hf]
      rw [hto, fromabi]
      cases hb : rows.find? fun r => r.1 = row.1 with
      | some row' =>
          have hkey : row'.1 = row.1 := of_decide_eq_true (List.find?_some hb :)
          rw [List.inj_on_of_nodup_map habi (List.mem_of_find?_eq_some hb) hmem hkey]
          exact hval
      | none => exact absurd (decide_eq_true rfl) (List.find?_eq_none.mp hb row hmem)
  | none =>
      have hnot : value ∉ rows.map Prod.snd := fun hm => by
        obtain ⟨row, hrow, rfl⟩ := List.mem_map.mp hm
        exact List.find?_eq_none.mp hf row hrow (decide_eq_true rfl)
      have hto : rows.toabi value = value := by rw [toabi, hf]
      rw [hto, fromabi]
      cases hb : rows.find? fun r => r.1 = value with
      | some row =>
          have hkey : row.1 = value := of_decide_eq_true (List.find?_some hb :)
          exact absurd (List.mem_map.mpr ⟨row, List.mem_of_find?_eq_some hb, hkey⟩)
            (hv.resolve_left hnot)
      | none => rfl

/-- A value of a role: none of the numbers below zero, but for the sentinels. -/
def Sentinels.proper (rows : Sentinels) (value : Int32) : Prop :=
  0 ≤ value ∨ value ∈ rows.map Prod.snd

instance (rows : Sentinels) (value : Int32) : Decidable (rows.proper value) :=
  inferInstanceAs (Decidable (_ ∨ _))

/-- A role comes back whole if its ABI values are distinct and negative. -/
theorem Sentinels.proper_back {rows : Sentinels} (hnodup : (rows.map Prod.fst).Nodup)
    (hneg : ∀ abi, abi ∈ rows.map Prod.fst → abi < 0) {value : Int32} (h : rows.proper value) :
    rows.fromabi (rows.toabi value) = value := by
  refine Sentinels.back hnodup ?_
  rcases h with h0 | hm
  · exact .inr fun hm => absurd (hneg value hm) (Int32.not_lt.mpr h0)
  · exact .inl hm

theorem rank_back {rank : Int32} (h : impl.rankSentinels.proper rank) :
    impl.rankFromabi (impl.rankToabi rank) = rank := by
  have habi : impl.rankSentinels.map Prod.fst = [-1, -3, -4, -32766] := rfl
  exact Sentinels.proper_back (by rw [habi]; decide) (by simp [habi]) h

theorem tag_back {tag : Int32} (h : impl.tagSentinels.proper tag) :
    impl.tagFromabi (impl.tagToabi tag) = tag := by
  have habi : impl.tagSentinels.map Prod.fst = [-2, -32766] := rfl
  exact Sentinels.proper_back (by rw [habi]; decide) (by simp [habi]) h

/-! ## The way up -/

theorem StatusLayout.private_le : L.headLen + L.tailLen ≤ abiScratch := L.scratch_le

/-- Where the private bytes are in the scratch area, and what is left of it. -/
theorem statusBlob_head {i : Nat} (hi : i < L.headLen) : statusBlob L st stack i = st i := by
  have hcopy : (stack.set 0 0 abiScratch).copy 0 st 0 L.headLen (0 + i) = st (0 + i) :=
    Bytes.copy_at hi
  rw [Nat.zero_add] at hcopy
  rw [statusBlob, Bytes.copy_outside (.inl hi), hcopy]

theorem statusBlob_tail {i : Nat} (hi : i < L.tailLen) :
    statusBlob L st stack (L.headLen + i) = st (L.tailOff + i) := Bytes.copy_at hi

theorem statusBlob_unused {i : Nat} (hfree : L.headLen + L.tailLen ≤ i) (hi : i < abiScratch) :
    statusBlob L st stack i = 0 := by
  rw [statusBlob, Bytes.copy_outside (.inr hfree), Bytes.copy_outside (.inr (by omega)),
    Bytes.set_inside (Nat.zero_le i) (by omega)]

theorem statusToabi_internal {i : Nat} (hi : i < abiScratch) :
    (statusToabi fmt L impl withError st abi stack t).1 (abiInternal + i) =
      statusBlob L st stack i := by
  refine (Bytes.copy_at hi).trans ?_
  rw [Nat.zero_add]

theorem statusToabi_source :
    (statusToabi fmt L impl withError st abi stack t).1.getInt fmt abiSource =
      impl.rankToabi (st.getInt fmt L.source) := by
  rw [statusToabi, Bytes.getInt_copy_ne (by decide)]
  split
  · rw [Bytes.getInt_putInt_ne (by decide), statusNamed, Bytes.getInt_putInt_ne (by decide),
      Bytes.getInt_putInt]
  · rw [statusNamed, Bytes.getInt_putInt_ne (by decide), Bytes.getInt_putInt]

theorem statusToabi_tag :
    (statusToabi fmt L impl withError st abi stack t).1.getInt fmt abiTag =
      impl.tagToabi (st.getInt fmt L.tag) := by
  rw [statusToabi, Bytes.getInt_copy_ne (by decide)]
  split
  · rw [Bytes.getInt_putInt_ne (by decide), statusNamed, Bytes.getInt_putInt]
  · rw [statusNamed, Bytes.getInt_putInt]

theorem statusToabi_error :
    (statusToabi fmt L impl true st abi stack t).1.getInt fmt abiError =
        (errorcodeToabi impl.errors (st.getInt fmt L.error) t).1 ∧
      (statusToabi fmt L impl true st abi stack t).2 =
        (errorcodeToabi impl.errors (st.getInt fmt L.error) t).2 := by
  rw [statusToabi, Bool.true_or, if_pos rfl]
  refine ⟨?_, rfl⟩
  rw [Bytes.getInt_copy_ne (by decide), Bytes.getInt_putInt]

/-- A status that is not empty leaves the caller's error field alone. -/
theorem statusToabiKeepError_error (hempty : statusEmpty fmt L impl st = false) {i : Nat}
    (hi : i < 4) :
    (statusToabiKeepError fmt L impl st abi stack t).1 (abiError + i) = abi (abiError + i) ∧
      (statusToabiKeepError fmt L impl st abi stack t).2 = t := by
  rw [statusToabiKeepError, statusToabi, hempty, Bool.or_false, if_neg Bool.false_ne_true]
  refine ⟨?_, rfl⟩
  show (statusNamed fmt L impl st abi).copy abiInternal _ 0 abiScratch (abiError + i) = _
  rw [Bytes.copy_outside (by simp only [abiError, abiInternal]; omega), statusNamed,
    Bytes.putInt_outside (by simp only [abiError, abiTag]; omega),
    Bytes.putInt_outside (by simp only [abiError, abiSource]; omega)]

/-! ## The way down -/

section Down

variable {down : Bytes}

theorem statusFromabi_isSome :
    (statusFromabi fmt L impl abi st t).isSome = true ↔
      -2147483648 + errorcodeAbiBase.toInt ≤ (abi.getInt fmt abiError).toInt := by
  rw [statusFromabi, Option.isSome_map, fromabi_isSome]

theorem statusFromabi_eq_some (h : statusFromabi fmt L impl abi st t = some down) :
    ∃ ierror, errorcodeFromabi impl.errors (abi.getInt fmt abiError) t = some ierror ∧
      (statusUnpacked fmt L impl abi st).putInt fmt L.error ierror = down :=
  Option.map_eq_some_iff.mp h

/-- The three stores leave what is not named alone. -/
theorem statusFromabi_named (h : statusFromabi fmt L impl abi st t = some down) {a : Nat}
    (hnot : a < L.namedOff ∨ L.tailOff ≤ a) :
    down a = (((st.set 0 0 L.size).copy 0 abi abiInternal L.headLen).copy L.tailOff abi
      (abiInternal + L.headLen) L.tailLen) a := by
  obtain ⟨ierror, -, rfl⟩ := statusFromabi_eq_some h
  simp only [StatusLayout.tailOff] at hnot
  simp only [statusUnpacked, StatusLayout.source, StatusLayout.tag, StatusLayout.error]
  rw [Bytes.putInt_outside (by omega), Bytes.putInt_outside (by omega),
    Bytes.putInt_outside (by omega)]

theorem statusFromabi_head (h : statusFromabi fmt L impl abi st t = some down) {i : Nat}
    (hi : i < L.headLen) : down i = abi (abiInternal + i) := by
  have hcopy : (st.set 0 0 L.size).copy 0 abi abiInternal L.headLen (0 + i) =
      abi (abiInternal + i) := Bytes.copy_at hi
  rw [Nat.zero_add] at hcopy
  have hoff : i < L.tailOff := Nat.lt_add_right 12 hi
  rw [statusFromabi_named h (.inl hi), Bytes.copy_outside (.inl hoff), hcopy]

theorem statusFromabi_tail (h : statusFromabi fmt L impl abi st t = some down) {i : Nat}
    (hi : i < L.tailLen) : down (L.tailOff + i) = abi (abiInternal + L.headLen + i) := by
  rw [statusFromabi_named h (.inr (Nat.le_add_right _ i)), Bytes.copy_at hi]

theorem statusFromabi_source (h : statusFromabi fmt L impl abi st t = some down) :
    down.getInt fmt L.source = impl.rankFromabi (abi.getInt fmt abiSource) := by
  obtain ⟨ierror, -, rfl⟩ := statusFromabi_eq_some h
  simp only [statusUnpacked, StatusLayout.source, StatusLayout.tag, StatusLayout.error]
  rw [Bytes.getInt_putInt_ne (by omega), Bytes.getInt_putInt_ne (by omega), Bytes.getInt_putInt]

theorem statusFromabi_tag (h : statusFromabi fmt L impl abi st t = some down) :
    down.getInt fmt L.tag = impl.tagFromabi (abi.getInt fmt abiTag) := by
  obtain ⟨ierror, -, rfl⟩ := statusFromabi_eq_some h
  simp only [statusUnpacked, StatusLayout.source, StatusLayout.tag, StatusLayout.error]
  rw [Bytes.getInt_putInt_ne (by omega), Bytes.getInt_putInt]

theorem statusFromabi_error (h : statusFromabi fmt L impl abi st t = some down) :
    errorcodeFromabi impl.errors (abi.getInt fmt abiError) t =
      some (down.getInt fmt L.error) := by
  obtain ⟨ierror, he, rfl⟩ := statusFromabi_eq_some h
  rw [he, Bytes.getInt_putInt]

/-! ## There and back -/

/-- A private byte that went up comes down. -/
theorem status_private {src : Bytes} {t' : ErrorTable}
    (h : statusFromabi fmt L impl (statusToabi fmt L impl withError st abi stack t).1 src t' =
      some down)
    {a : Nat} (ha : a < L.size) (hnot : a < L.namedOff ∨ L.namedOff + 12 ≤ a) :
    down a = st a := by
  have hfit := L.private_le
  rcases hnot with hhead | htail
  · have hi : a < L.headLen := hhead
    rw [statusFromabi_head h hi, statusToabi_internal (by omega), statusBlob_head hi]
  · obtain ⟨i, rfl⟩ : ∃ i, a = L.tailOff + i := ⟨a - L.tailOff, (Nat.add_sub_of_le htail).symm⟩
    have hi : i < L.tailLen := Nat.lt_sub_iff_add_lt'.mpr ha
    rw [statusFromabi_tail h hi, Nat.add_assoc, statusToabi_internal (by omega),
      statusBlob_tail hi]

end Down

/-- `down` is the status `st`, named and private. -/
structure StatusRestored (fmt : IntFormat) (L : StatusLayout) (st down : Bytes) : Prop where
  hidden : ∀ a, a < L.size → a < L.namedOff ∨ L.namedOff + 12 ≤ a → down a = st a
  source : down.getInt fmt L.source = st.getInt fmt L.source
  tag : down.getInt fmt L.tag = st.getInt fmt L.tag
  error : down.getInt fmt L.error = st.getInt fmt L.error

/-- What becomes of a status `st` that is converted into the ABI object `abi`
and from there into the object `dst`. -/
structure StatusRoundTrip (fmt : IntFormat) (L : StatusLayout) (impl : StatusImpl)
    (st abi stack dst : Bytes) (t : ErrorTable) : Prop where
  back :
    let up := statusToabiWhole fmt L impl st abi stack t
    ∃ down, statusFromabi fmt L impl up.1 dst up.2 = some down ∧ StatusRestored fmt L st down
  unused : ∀ i, L.headLen + L.tailLen ≤ i → i < abiScratch →
    (statusToabiWhole fmt L impl st abi stack t).1 (abiInternal + i) = 0 ∧
      (statusToabiKeepError fmt L impl st abi stack t).1 (abiInternal + i) = 0
  keepError : statusEmpty fmt L impl st = false → ∀ i, i < 4 →
    (statusToabiKeepError fmt L impl st abi stack t).1 (abiError + i) = abi (abiError + i)

theorem status_back {dst : Bytes} (hroom : t.count < errorcodeSlots)
    (hsource : impl.rankSentinels.proper (st.getInt fmt L.source))
    (htag : impl.tagSentinels.proper (st.getInt fmt L.tag)) :
    let up := statusToabiWhole fmt L impl st abi stack t
    ∃ down, statusFromabi fmt L impl up.1 dst up.2 = some down ∧
      StatusRestored fmt L st down := by
  intro up
  have herror : errorcodeFromabi impl.errors (up.1.getInt fmt abiError) up.2 =
      some (st.getInt fmt L.error) := by
    simp only [up, statusToabiWhole]
    rw [statusToabi_error.1, statusToabi_error.2]
    refine (toabi_cases impl.errors t _).back.resolve_right ?_
    rintro ⟨hfull, -, -⟩
    omega
  obtain ⟨down, hdown⟩ : ∃ down, statusFromabi fmt L impl up.1 dst up.2 = some down := by
    rw [statusFromabi, herror]
    exact ⟨_, rfl⟩
  refine ⟨down, hdown, fun a ha hnot => status_private hdown ha hnot, ?_, ?_, ?_⟩
  · rw [statusFromabi_source hdown]
    simp only [up, statusToabiWhole]
    rw [statusToabi_source, rank_back hsource]
  · rw [statusFromabi_tag hdown]
    simp only [up, statusToabiWhole]
    rw [statusToabi_tag, tag_back htag]
  · exact Option.some.inj ((statusFromabi_error hdown).symm.trans herror)

/-- Every status whose source and tag are proper comes back whole, for every
layout and every numbering of the sentinels, while the error table has room. -/
theorem status_round_trip {dst : Bytes} (hroom : t.count < errorcodeSlots)
    (hsource : impl.rankSentinels.proper (st.getInt fmt L.source))
    (htag : impl.tagSentinels.proper (st.getInt fmt L.tag)) :
    StatusRoundTrip fmt L impl st abi stack dst t where
  back := status_back hroom hsource htag
  unused i hfree hi := by
    refine ⟨?_, ?_⟩
    · rw [statusToabiWhole, statusToabi_internal hi, statusBlob_unused hfree hi]
    · rw [statusToabiKeepError, statusToabi_internal hi, statusBlob_unused hfree hi]
  keepError hempty i hi := (statusToabiKeepError_error hempty hi).1

/-- Private bytes on both sides of the named fields, and sentinels of which the
tag's and a rank's are one number. -/
def splitLayout : StatusLayout where
  size := 28
  namedOff := 8
  named_le := by decide
  scratch_le := by decide

def sharedSentinels : StatusImpl where
  anySource := -2
  procNull := -1
  root := -3
  undefined := -32766
  anyTag := -1
  ranks := by decide
  tags := by decide
  errors := withoutOptional

/-- A status from nobody, with any tag. -/
def fromNobody : Bytes :=
  let counted : Bytes := fun a => UInt8.ofNat a
  ((counted.putInt .littleEndian splitLayout.source (-1)).putInt .littleEndian
    splitLayout.tag (-1)).putInt .littleEndian splitLayout.error 15

theorem fromNobody_round_trip :
    StatusRoundTrip .littleEndian splitLayout sharedSentinels fromNobody (fun _ => 7)
      (fun _ => 0xa5) (fun _ => 0) .empty :=
  status_round_trip (by decide) (by decide) (by decide)

end AbiWrapper.Ref
