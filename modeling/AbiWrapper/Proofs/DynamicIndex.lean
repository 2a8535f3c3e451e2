import AbiWrapper.Proofs.RegistryOps
import AbiWrapper.Proofs.SerialOps

/-!
# The entry that an integer names

A lookup subtracts the base of its table before it tests anything, and the base
is positive. So for the lowest integers there are, which are negative and name
no entry, the difference is not an `int`. For the others the test that follows
does what it is meant to do: the counter, clamped to the table, is the number of
indices that have been given.

The serialized handles have no such test but the zero that an empty entry is, so
there it also matters whether the entry of an index has been stored yet.
`SerialIndices` keeps track of that, in runs where nothing is asked of which
handles the threads serialize.
-/

namespace AbiWrapper.Ref

open AbiWrapper.Lib

variable {base value : Int32}

/-- A lookup's index is an `int`, and it finds an entry exactly for the integers
from the base on, as many as there are. -/
structure IndexExact {α : Type} (base value : Int32) (issued : Nat)
    (lookup : Option (Option α)) : Prop where
  defined : (slotIndex base value).isSome = true
  found : (∃ entry, lookup = some (some entry)) ↔
    base.toInt ≤ value.toInt ∧ value.toInt < base.toInt + issued

/-! ## Keyvals and error codes -/

section Registry

variable {kind : RegistryKind} {s : RegistryState}

/-- An index that has been given is below the counter and in the table, and no
other is. -/
theorem RegistryInv.lt_given (h : RegistryInv kind s) {slot : Int} (hs : 0 ≤ slot) :
    slot < s.tickets.count.toInt ∧ slot < kind.slots ↔ slot < s.tickets.given := by
  have hle := h.sound.given_le
  constructor
  · rintro ⟨hcount, hslots⟩
    rcases Nat.lt_or_ge s.tickets.given kind.slots with hlt | hge
    · have hroom := h.sound.room hlt
      omega
    · omega
  · intro hlt
    have hnat : slot.toNat < s.tickets.given := by omega
    have hcount := h.sound.lt_count hnat
    omega

theorem RegistryInv.index_exact (h : RegistryInv kind s)
    (hv : -2147483648 + kind.base.toInt ≤ value.toInt) :
    IndexExact kind.base value s.tickets.given (s.dynamicFromabi kind value) where
  defined := (slotIndex_isSome kind.range.base_nonneg).mpr hv
  found := by
    rw [RegistryState.dynamicFromabi, RegistryState.inRange,
      slotIndex_eq kind.range.base_nonneg hv, Option.map_some, Option.map_some]
    by_cases hneg : value.toInt - kind.base.toInt < 0
    · rw [if_pos (.inl hneg)]
      refine iff_of_false ?_ (by omega)
      rintro ⟨entry, he⟩
      cases he
    · have hgiven := h.lt_given (Int.not_lt.mp hneg)
      by_cases hlt : value.toInt - kind.base.toInt < s.tickets.given
      · have hin := hgiven.mpr hlt
        rw [if_neg (by omega)]
        exact iff_of_true ⟨_, rfl⟩ (by omega)
      · have hout := mt hgiven.mp hlt
        rw [if_pos (by omega)]
        refine iff_of_false ?_ (by omega)
        rintro ⟨entry, he⟩
        cases he

end Registry

/-! ## Serialized handles -/

/-- The call is before its fetch-and-add. -/
def TointPc.claims : TointPc → Bool
  | .claim _ => true
  | _ => false

/-- The fetch-and-add is made only while few enough calls are still to put the
counter back. -/
def serialCalmOk (s : SerialOps) : SerialAct → Prop
  | .tick thread => (s.pc thread).claims = false ∨ s.tickets.calm serialSlots
  | _ => True

instance (s : SerialOps) : ∀ a : SerialAct, Decidable (serialCalmOk s a)
  | .toint _ _ => isTrue trivial
  | .tick _ => inferInstanceAs (Decidable (_ ∨ _))

/-- The index whose entry the call is still to store. -/
def TointPc.pending : TointPc → Option Int32
  | .publish _ slot => some slot
  | _ => none

/-- What a call knows about its bits and its index. -/
def TointPc.counts (t : Tickets) : TointPc → Prop
  | .idle => True
  | .count bits | .scan bits _ | .claim bits => bits ≠ 0
  | .clamp _ => t.given = serialSlots
  | .publish bits k => bits ≠ 0 ∧ ∃ slot, slot < t.given ∧ k = Int32.ofNat slot

structure SerialIndices (s : SerialOps) : Prop where
  sound : s.tickets.Sound serialSlots
  calls : ∀ thread, (s.pc thread).counts s.tickets
  /-- An index is one call's to store. -/
  unique : ∀ i j k, (s.pc i).pending = some k → (s.pc j).pending = some k → i = j
  /-- There is an entry at every index that was given and is no longer to be
  stored. -/
  stored : ∀ slot, s.entries slot ≠ 0 ↔
    slot < s.tickets.given ∧ ∀ thread, (s.pc thread).pending ≠ some (Int32.ofNat slot)

namespace SerialIndices

variable {s s' : SerialOps} {thread slot : Nat} {bits : UInt64} {pc : TointPc} {t : Tickets}

theorem init : SerialIndices .init where
  sound := .start
  calls _ := trivial
  unique _ _ _ h _ := nomatch h
  stored slot := iff_of_false (fun h => h rfl) fun h => absurd h.1 (Nat.not_lt_zero slot)

theorem counts_scanFrom {left : Nat} (h : bits ≠ 0) : (TointPc.scanFrom bits left).counts t := by
  rw [TointPc.scanFrom]
  split <;> exact h

theorem pending_scanFrom {left : Nat} : (TointPc.scanFrom bits left).pending = none := by
  rw [TointPc.scanFrom]
  split <;> rfl

/-- What a call knows stays true while more indices are given. -/
theorem counts_mono {t' : Tickets} (h : pc.counts t) (hg : t.given ≤ t'.given)
    (hle : t'.given ≤ serialSlots) : pc.counts t' := by
  cases pc with
  | clamp bits =>
      have hfull : t.given = serialSlots := h
      show t'.given = serialSlots
      omega
  | publish bits k =>
      obtain ⟨hne, slot, hs, hk⟩ := h
      exact ⟨hne, slot, by omega, hk⟩
  | _ => exact h

/-- A call moves on with no entry to store before or after, and the counter
may with it. -/
theorem move (h : SerialIndices s) (hold : (s.pc thread).pending = none)
    (hnew : pc.pending = none) (ht : t.Sound serialSlots) (hsame : t.given = s.tickets.given)
    (hpc : pc.counts t) : SerialIndices { s.setPc thread pc with tickets := t } := by
  -- Whoever is to store an entry was to before.
  have hkeep : ∀ i, (Function.update s.pc thread pc i).pending = (s.pc i).pending :=
    forall_update_at (P := fun i pc => TointPc.pending pc = (s.pc i).pending)
      (hnew.trans hold.symm) fun _ _ => rfl
  constructor
  · exact ht
  · exact forall_update (P := fun pc : TointPc => pc.counts t) hpc
      fun i => counts_mono (h.calls i) (Nat.le_of_eq hsame.symm) ht.given_le
  · intro i j k hi hj
    exact h.unique i j k ((hkeep i).symm.trans hi) ((hkeep j).symm.trans hj)
  · intro slot
    show s.entries slot ≠ 0 ↔ slot < t.given ∧
      ∀ i, (Function.update s.pc thread pc i).pending ≠ some (Int32.ofNat slot)
    simp only [hkeep, hsame]
    exact h.stored slot

theorem moveOn (h : SerialIndices s) (hold : (s.pc thread).pending = none)
    (hnew : pc.pending = none) (hpc : pc.counts s.tickets) : SerialIndices (s.setPc thread pc) :=
  h.move hold hnew h.sound rfl hpc

theorem answer (h : SerialIndices s) {value : Int32} (hold : (s.pc thread).pending = none) :
    SerialIndices (s.answer thread bits value) := by
  have hmove : SerialIndices (s.setPc thread .idle) := h.moveOn hold rfl trivial
  exact ⟨hmove.sound, hmove.calls, hmove.unique, hmove.stored⟩

theorem publish_lt (h : SerialIndices s) {k : Int32} (hpc : (s.pc thread).pending = some k) :
    ∃ slot, slot < s.tickets.given ∧ k = Int32.ofNat slot := by
  have hcounts := h.calls thread
  generalize s.pc thread = pc at hpc hcounts
  cases pc with
  | publish bits slot =>
      obtain rfl := Option.some.inj hpc
      exact hcounts.2
  | _ => exact nomatch hpc

/-- Indices that are given have one integer each. -/
theorem ofNat_inj (h : SerialIndices s) {n m : Nat} (hn : n ≤ s.tickets.given)
    (hm : m ≤ s.tickets.given) (he : Int32.ofNat n = Int32.ofNat m) : n = m := by
  have hcap := serialSlots_lt
  have hle := h.sound.given_le
  exact int32_ofNat_inj (by omega) (by omega) he

theorem claimed (h : SerialIndices s) (hpc : s.pc thread = .claim bits)
    (hroom : s.tickets.hasRoom serialSlots = true) {claimed : List UInt64} :
    SerialIndices { s.setPc thread (.publish bits s.tickets.count) with
      tickets := s.tickets.take serialSlots, claimed := claimed } := by
  obtain ⟨hsound, hgiven⟩ := h.sound.take_room serialSlots_lt hroom
  obtain ⟨hcount, hlt⟩ := h.sound.ticket serialSlots_lt hroom
  have hne := h.calls thread
  have hold : (s.pc thread).pending = none := by rw [hpc]; rfl
  rw [hpc] at hne
  -- Nobody else has the entry of this index to store.
  have hnew : ∀ i, (s.pc i).pending ≠ some s.tickets.count := by
    intro i hi
    obtain ⟨slot, hs, hk⟩ := h.publish_lt hi
    have := h.ofNat_inj (Nat.le_refl _) (Nat.le_of_lt hs) (hcount.symm.trans hk)
    omega
  -- Whoever has one to store now is the call, or had it before.
  have hback : ∀ {i k},
      (Function.update s.pc thread (.publish bits s.tickets.count) i).pending = some k →
        i = thread ∧ k = s.tickets.count ∨ (s.pc i).pending = some k := by
    intro i k hi
    rcases update_cases (P := fun pc : TointPc => pc.pending = some k) hi with
      ⟨hthread, he⟩ | ⟨-, hi⟩
    · exact .inl ⟨hthread, (Option.some.inj he).symm⟩
    · exact .inr hi
  have hkeep : ∀ {i k}, (s.pc i).pending = some k →
      (Function.update s.pc thread (.publish bits s.tickets.count) i).pending = some k := by
    intro i k hi
    have hother : i ≠ thread := by
      rintro rfl
      rw [hold] at hi
      cases hi
    rwa [Function.update_of_ne hother]
  constructor
  · exact hsound
  · refine forall_update (P := fun pc : TointPc => pc.counts (s.tickets.take serialSlots)) ?_
      fun i => counts_mono (h.calls i) (by omega) hsound.given_le
    exact ⟨hne, s.tickets.given, by omega, hcount⟩
  · intro i j k hi hj
    rcases hback hi with ⟨hit, rfl⟩ | hi
    · rcases hback hj with ⟨hjt, -⟩ | hj
      · exact hit.trans hjt.symm
      · exact absurd hj (hnew j)
    · rcases hback hj with ⟨-, rfl⟩ | hj
      · exact absurd hi (hnew i)
      · exact h.unique i j k hi hj
  · intro slot
    show s.entries slot ≠ 0 ↔ slot < (s.tickets.take serialSlots).given ∧ ∀ i,
      (Function.update s.pc thread (.publish bits s.tickets.count) i).pending ≠
        some (Int32.ofNat slot)
    rw [h.stored slot, hgiven]
    constructor
    · rintro ⟨hs, hno⟩
      refine ⟨by omega, fun i hi => ?_⟩
      rcases hback hi with ⟨-, hk⟩ | hi
      · have := h.ofNat_inj (Nat.le_of_lt hs) (Nat.le_refl _) (hk.trans hcount)
        omega
      · exact hno i hi
    · rintro ⟨hs, hno⟩
      have hself := hno thread
      rw [Function.update_self] at hself
      have hs' : slot ≠ s.tickets.given := fun he => hself (by rw [he, ← hcount]; rfl)
      exact ⟨by omega, fun i hi => hno i (hkeep hi)⟩

theorem published (h : SerialIndices s) {k value : Int32} (hpc : s.pc thread = .publish bits k) :
    SerialIndices ((s.store k bits).answer thread bits value) := by
  have hold : (s.pc thread).pending = some k := by rw [hpc]; rfl
  obtain ⟨slot, hs, rfl⟩ := h.publish_lt hold
  have hne : bits ≠ 0 := by
    have hcounts := h.calls thread
    rw [hpc] at hcounts
    exact hcounts.1
  rw [SerialOpsInv.store_ofNat (Nat.lt_of_lt_of_le hs h.sound.given_le)]
  -- The others are to store what they were, and none of them this entry.
  have hback : ∀ {i k}, (Function.update s.pc thread .idle i).pending = some k →
      i ≠ thread ∧ (s.pc i).pending = some k := by
    intro i k hi
    rcases update_cases (P := fun pc : TointPc => pc.pending = some k) hi with ⟨-, he⟩ | hi
    · exact nomatch he
    · exact hi
  constructor
  · exact h.sound
  · exact forall_update (P := fun pc : TointPc => pc.counts s.tickets) trivial h.calls
  · intro i j k hi hj
    exact h.unique i j k (hback hi).2 (hback hj).2
  · intro n
    show Function.update s.entries slot bits n ≠ 0 ↔ n < s.tickets.given ∧
      ∀ i, (Function.update s.pc thread .idle i).pending ≠ some (Int32.ofNat n)
    by_cases hn : n = slot
    · subst hn
      rw [Function.update_self]
      refine iff_of_true hne ⟨hs, fun i hi => ?_⟩
      obtain ⟨hi, hpend⟩ := hback hi
      exact hi (h.unique i thread _ hpend hold)
    · rw [Function.update_of_ne hn, h.stored n]
      constructor
      · rintro ⟨hlt, hno⟩
        exact ⟨hlt, fun i hi => hno i (hback hi).2⟩
      · rintro ⟨hlt, hno⟩
        refine ⟨hlt, fun i hi => ?_⟩
        by_cases hthread : i = thread
        · rw [hthread, hold] at hi
          exact hn (h.ofNat_inj (Nat.le_of_lt hlt) (Nat.le_of_lt hs) (Option.some.inj hi).symm)
        · have hi' := hno i
          rw [Function.update_of_ne hthread] at hi'
          exact hi' hi

theorem step (h : SerialIndices s) {a : SerialAct} (hg : serialCalmOk s a)
    (hs : s.step a = some s') : SerialIndices s' := by
  cases serial_step_cases hs with
  | @predef thread bits hpc | @zero thread bits hpc => exact h.answer (by rw [hpc]; rfl)
  | @enter thread bits hpc hdyn => exact h.moveOn (by rw [hpc]; rfl) rfl hdyn.2
  | @count thread bits hpc | @miss thread left bits hpc =>
      have hne := h.calls thread
      rw [hpc] at hne
      exact h.moveOn (by rw [hpc]; rfl) pending_scanFrom (counts_scanFrom hne)
  | @hit thread left bits hpc he => exact h.answer (by rw [hpc]; rfl)
  | @claim thread bits hpc =>
      rw [SerialOps.claim]
      split
      · next hroom => exact h.claimed hpc hroom
      · next hroom =>
          have hcalm : s.tickets.calm serialSlots := by
            rcases hg with hno | hcalm
            · rw [hpc] at hno
              cases hno
            · exact hcalm
          obtain ⟨hsound, hfull, hsame⟩ := h.sound.take_empty serialSlots_lt hcalm
            (Bool.eq_false_iff.mpr hroom)
          exact h.move (by rw [hpc]; rfl) rfl hsound hsame (hsame.trans hfull)
  | @clamp thread bits hpc =>
      have hfull : s.tickets.given = serialSlots := by
        have hcounts := h.calls thread
        rw [hpc] at hcounts
        exact hcounts
      have hmove : SerialIndices { s.setPc thread .idle with
          tickets := s.tickets.putBack serialSlots } :=
        h.move (by rw [hpc]; rfl) rfl (.putBack serialSlots_lt hfull) rfl trivial
      exact ⟨hmove.sound, hmove.calls, hmove.unique, hmove.stored⟩
  | publish hpc => exact h.published hpc

theorem run (acts : List SerialAct) (hm : Meets SerialOps.step serialCalmOk .init acts)
    (he : exec SerialOps.step .init acts = some s) : SerialIndices s :=
  exec_invariant (fun _ _ _ h hg hs => h.step hg hs) .init hm he

/-- What the lookup of an integer comes to is whether its index was given and
its entry stored. -/
theorem found_iff (h : SerialIndices s) {value : Int32}
    (hv : -2147483648 + serialAbiBase.toInt ≤ value.toInt) :
    (∃ entry, s.dynamicFromint value = some (some entry)) ↔
      serialAbiBase.toInt ≤ value.toInt ∧
        s.entries (value.toInt - serialAbiBase.toInt).toNat ≠ 0 := by
  have hle := h.sound.given_le
  rw [SerialOps.dynamicFromint, slotOf_eq serialRange.base_nonneg hv, Option.map_some]
  by_cases hr : value.toInt - serialAbiBase.toInt < 0 ∨
      serialSlots ≤ value.toInt - serialAbiBase.toInt
  · rw [if_pos hr]
    refine iff_of_false (by rintro ⟨entry, he⟩; cases he) ?_
    rintro ⟨hbase, hentry⟩
    have hlt := ((h.stored _).mp hentry).1
    omega
  · rw [if_neg hr]
    dsimp only
    by_cases hentry : s.entries (value.toInt - serialAbiBase.toInt).toNat = 0
    · rw [if_pos hentry]
      exact iff_of_false (by rintro ⟨entry, he⟩; cases he) fun hne => hne.2 hentry
    · rw [if_neg hentry]
      exact iff_of_true ⟨_, rfl⟩ ⟨by omega, hentry⟩

/-- An integer from the base on whose index was given is the code of that. -/
theorem eq_codeOf (h : SerialIndices s) {value : Int32}
    (hbase : serialAbiBase.toInt ≤ value.toInt)
    (hlt : value.toInt < serialAbiBase.toInt + s.tickets.given) :
    value = codeOf serialAbiBase (value.toInt - serialAbiBase.toInt).toNat := by
  have hle := h.sound.given_le
  refine Int32.toInt_inj.mp ?_
  rw [serialCode_toInt (by omega)]
  have hb : serialAbiBase.toInt = 0x40000000 := by decide
  omega

theorem index_exact_iff (h : SerialIndices s) {value : Int32}
    (hv : -2147483648 + serialAbiBase.toInt ≤ value.toInt) :
    IndexExact serialAbiBase value s.tickets.given (s.dynamicFromint value) ↔
      ∀ thread bits slot, s.pc thread = .publish bits slot → value ≠ serialAbiBase + slot := by
  constructor
  · -- An index that is still to be stored was given, and has no entry.
    rintro hexact thread bits k hpc rfl
    have hpend : (s.pc thread).pending = some k := by rw [hpc]; rfl
    obtain ⟨slot, hs, rfl⟩ := h.publish_lt hpend
    have hcode := serialCode_toInt (Nat.lt_of_lt_of_le hs h.sound.given_le)
    have hb : serialAbiBase.toInt = 0x40000000 := by decide
    rw [codeOf] at hcode
    have hentry := ((h.found_iff hv).mp (hexact.found.mpr (by omega))).2
    have hslot : ((serialAbiBase + Int32.ofNat slot).toInt - serialAbiBase.toInt).toNat = slot := by
      omega
    rw [hslot] at hentry
    exact ((h.stored slot).mp hentry).2 thread hpend
  · intro hno
    refine ⟨(slotIndex_isSome serialRange.base_nonneg).mpr hv, ?_⟩
    rw [h.found_iff hv, h.stored]
    constructor
    · rintro ⟨hbase, hlt, -⟩
      omega
    · rintro ⟨hbase, hlt⟩
      refine ⟨hbase, by omega, fun thread hpend => ?_⟩
      have hcode := h.eq_codeOf hbase hlt
      cases hpc : s.pc thread with
      | publish bits slot =>
          rw [hpc] at hpend
          obtain rfl := Option.some.inj hpend
          exact hno thread bits _ hpc hcode
      | _ =>
          rw [hpc] at hpend
          cases hpend

end SerialIndices

/-! ## What the lookups rely on -/

/-- In every interleaving in which the counter does not overflow: the index is
an `int`, and an entry is found exactly for the integers that stand for one, if
and only if the integer is not among the lowest; for a serialized handle, if
besides no call is still to store that entry. -/
theorem dynamic_index_exact (value : Int32) :
    (∀ (kind : RegistryKind) (acts : List RegistryAct) (s : RegistryState),
      Meets (RegistryState.step kind) (calmOk kind) .init acts →
      exec (RegistryState.step kind) .init acts = some s →
        (IndexExact kind.base value s.tickets.given (s.dynamicFromabi kind value) ↔
          -2147483648 + kind.base.toInt ≤ value.toInt)) ∧
    ∀ (acts : List SerialAct) (s : SerialOps),
      Meets SerialOps.step serialCalmOk .init acts →
      exec SerialOps.step .init acts = some s →
        (IndexExact serialAbiBase value s.tickets.given (s.dynamicFromint value) ↔
          -2147483648 + serialAbiBase.toInt ≤ value.toInt ∧
            ∀ thread bits slot, s.pc thread = .publish bits slot →
              value ≠ serialAbiBase + slot) := by
  constructor
  · intro kind acts s hm he
    exact ⟨fun h => (slotIndex_isSome kind.range.base_nonneg).mp h.defined,
      fun hv => (RegistryInv.run acts hm he).index_exact hv⟩
  · intro acts s hm he
    have hinv := SerialIndices.run acts hm he
    constructor
    · intro h
      have hv := (slotIndex_isSome serialRange.base_nonneg).mp h.defined
      exact ⟨hv, (hinv.index_exact_iff hv).mp h⟩
    · rintro ⟨hv, hno⟩
      exact (hinv.index_exact_iff hv).mpr hno

/-- A key that is added, and a handle that is serialized while another is. -/
theorem dynamic_index_exact_one : ∃ s t,
    exec (RegistryState.step .keyval) .init [.add 0 7, .tick 0, .tick 0] = some s ∧
      exec SerialOps.step .init
        [.toint 0 0x5000, .toint 1 0x6000, .tick 0, .tick 1, .tick 0, .tick 1, .tick 1] = some t ∧
      s.dynamicFromabi .keyval 0x40000000 = some (some 7) ∧
      t.dynamicFromint 0x40000000 = some none ∧ t.dynamicFromint 0x40000001 = some (some 0x6000) ∧
      (IndexExact keyvalAbiBase 0x40000000 s.tickets.given (s.dynamicFromabi .keyval 0x40000000) ↔
        -2147483648 + keyvalAbiBase.toInt ≤ (0x40000000 : Int32).toInt) ∧
      (IndexExact serialAbiBase 0x40000001 t.tickets.given (t.dynamicFromint 0x40000001) ↔
        -2147483648 + serialAbiBase.toInt ≤ (0x40000001 : Int32).toInt ∧
          ∀ thread bits slot, t.pc thread = .publish bits slot →
            (0x40000001 : Int32) ≠ serialAbiBase + slot) :=
  ⟨_, _, rfl, rfl, by decide, by decide, by decide,
    (dynamic_index_exact 0x40000000).1 .keyval [.add 0 7, .tick 0, .tick 0] _ (by decide) rfl,
    (dynamic_index_exact 0x40000001).2
      [.toint 0 0x5000, .toint 1 0x6000, .tick 0, .tick 1, .tick 0, .tick 1, .tick 1] _
      (by decide) rfl⟩

/-- Nothing has been added, and the lowest integer is looked up. -/
theorem lowest_has_no_index :
    (¬ ∀ (kind : RegistryKind) (acts : List RegistryAct) (s : RegistryState),
      Meets (RegistryState.step kind) (calmOk kind) .init acts →
      exec (RegistryState.step kind) .init acts = some s → ∀ value : Int32,
        IndexExact kind.base value s.tickets.given (s.dynamicFromabi kind value)) ∧
    ¬ ∀ (acts : List SerialAct) (s : SerialOps),
      Meets SerialOps.step serialCalmOk .init acts →
      exec SerialOps.step .init acts = some s → ∀ value : Int32,
        IndexExact serialAbiBase value s.tickets.given (s.dynamicFromint value) := by
  constructor
  · intro h
    exact absurd (h .keyval [] .init trivial rfl (-2147483648)).defined (by decide)
  · intro h
    exact absurd (h [] .init trivial rfl (-2147483648)).defined (by decide)

end AbiWrapper.Ref
