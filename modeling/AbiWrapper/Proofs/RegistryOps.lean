import AbiWrapper.Proofs.ErrorHistory
import AbiWrapper.Proofs.KeyvalHistory
import AbiWrapper.Ref.RegistryOps
import Mathlib.Data.List.Perm.Subperm

/-!
# Registries that several threads append to

What the threads share is the counter, and `Tickets.Sound` is what they rely on
about it: a fetched index is a new one, or the table is full and stays so. On
top of it `RegistryInv` has the entry of each addition that has returned, which
nobody else's publication touches because nobody else has the index.

The properties of later states are about two states of a run. `Since` is the
relation between them that a step keeps; the first state is arbitrary, so it
may be the one in which an addition returns or fails.
-/

namespace AbiWrapper.Ref

open AbiWrapper.Lib

variable {kind : RegistryKind} {s s' : RegistryState} {i j slot : Nat} {abi v : Int32}
  {pc : CallPc}

theorem RegistryKind.slots_lt (kind : RegistryKind) : kind.slots < 2147483648 := by
  cases kind <;> decide

theorem int32_ofNat_inj {n m : Nat} (hn : n < 2147483648) (hm : m < 2147483648)
    (h : Int32.ofNat n = Int32.ofNat m) : n = m := by
  have hto := congrArg Int32.toInt h
  rw [Int32.toInt_ofNat_of_lt hn, Int32.toInt_ofNat_of_lt hm] at hto
  omega

theorem RegistryKind.range (kind : RegistryKind) : SlotRange kind.slots kind.base := by
  cases kind with
  | keyval => exact keyvalRange
  | errorcode => exact errorcodeRange

theorem codeOf_inj {cap n m : Nat} {base : Int32} (hr : SlotRange cap base) (hn : n < cap)
    (hm : m < cap) (h : codeOf base n = codeOf base m) : n = m := by
  have hslot : slotOf cap base (codeOf base n) = some (some n) := slotOf_codeOf hr hn
  rw [h, slotOf_codeOf hr hm] at hslot
  exact (Option.some.inj (Option.some.inj hslot)).symm

/-! ## The steps -/

/-- What a step finds, and the state it leaves. -/
inductive RegistryStep (kind : RegistryKind) (s : RegistryState) :
    RegistryAct → RegistryState → Prop
  | add {i : Nat} {value : Int32} (hpc : s.pc i = .idle) : RegistryStep kind s (.add i value)
      { s with
        pc := Function.update s.pc i (if kind.refuses value then .added .refused else .claim)
        value := Function.update s.value i value }
  | lookup {i : Nat} {abi : Int32} (hpc : s.pc i = .idle) :
      RegistryStep kind s (.lookup i abi) (s.setPc i (.lookup abi))
  | claim {i : Nat} (hpc : s.pc i = .claim) : RegistryStep kind s (.tick i)
      { s.setPc i (if s.tickets.hasRoom kind.slots then .publish s.tickets.count else .clamp) with
        tickets := s.tickets.take kind.slots }
  | clamp {i : Nat} (hpc : s.pc i = .clamp) : RegistryStep kind s (.tick i)
      { s.setPc i (.added .full) with tickets := s.tickets.putBack kind.slots }
  | publish {i : Nat} {slot : Int32} (hpc : s.pc i = .publish slot) : RegistryStep kind s (.tick i)
      ((s.store slot (s.value i)).setPc i (.added (.ok (kind.base + slot))))
  | count {i : Nat} {abi : Int32} {slot : Option Nat} (hpc : s.pc i = .lookup abi)
      (hr : RegistryState.inRange kind s.tickets.count abi = some slot) :
      RegistryStep kind s (.tick i) (s.setPc i (.counted abi slot))
  | load {i : Nat} {abi : Int32} {slot : Nat} (hpc : s.pc i = .load abi slot) :
      RegistryStep kind s (.tick i) (s.setPc i (.found abi (some (s.entries slot))))

theorem registry_step_cases {a : RegistryAct} (hs : s.step kind a = some s') :
    RegistryStep kind s a s' := by
  cases a with
  | add i value =>
      simp only [RegistryState.step] at hs
      split at hs
      · next hpc => exact Option.some.inj hs ▸ .add hpc
      · exact nomatch hs
  | lookup i abi =>
      simp only [RegistryState.step] at hs
      split at hs
      · next hpc => exact Option.some.inj hs ▸ .lookup hpc
      · exact nomatch hs
  | tick i =>
      simp only [RegistryState.step] at hs
      split at hs
      · next hpc => exact Option.some.inj hs ▸ .claim hpc
      · next hpc => exact Option.some.inj hs ▸ .clamp hpc
      · next slot hpc => exact Option.some.inj hs ▸ .publish hpc
      · next abi hpc =>
          obtain ⟨slot, hr, rfl⟩ := Option.map_eq_some_iff.mp hs
          exact .count hpc hr
      · next abi slot hpc => exact Option.some.inj hs ▸ .load hpc
      · exact nomatch hs

/-! ## The invariant -/

/-- The addition has the index: it has fetched it and not yet stored, or has
returned its code. -/
def CallPc.holds (kind : RegistryKind) (pc : CallPc) (slot : Nat) : Prop :=
  pc = .publish (Int32.ofNat slot) ∨ pc = .added (.ok (codeOf kind.base slot))

/-- What a call knows at each of its places. -/
def CallPc.ok (kind : RegistryKind) (s : RegistryState) (value : Int32) : CallPc → Prop
  | .publish k => ∃ slot, slot < s.tickets.given ∧ k = Int32.ofNat slot
  | .added (.ok abi) => ∃ slot, slot < s.tickets.given ∧ abi = codeOf kind.base slot ∧
      s.entries slot = value
  | .clamp | .added .full => s.tickets.given = kind.slots
  | .load abi slot => slot < kind.slots ∧ abi = codeOf kind.base slot
  | _ => True

structure RegistryInv (kind : RegistryKind) (s : RegistryState) : Prop where
  sound : s.tickets.Sound kind.slots
  calls : ∀ i, (s.pc i).ok kind s (s.value i)
  /-- An index is one addition's. -/
  unique : ∀ i j slot, slot < kind.slots → (s.pc i).holds kind slot → (s.pc j).holds kind slot →
    i = j

namespace RegistryInv

theorem init : RegistryInv kind .init where
  sound := .start
  calls _ := trivial
  unique _ _ _ _ h _ := by rcases h with h | h <;> exact nomatch h

theorem publish (h : RegistryInv kind s) {k : Int32} (hpc : s.pc i = .publish k) :
    ∃ slot, slot < s.tickets.given ∧ k = Int32.ofNat slot := by
  have hi := h.calls i
  rw [hpc] at hi
  exact hi

theorem ok (h : RegistryInv kind s) (hpc : s.pc i = .added (.ok abi)) :
    ∃ slot, slot < s.tickets.given ∧ abi = codeOf kind.base slot ∧
      s.entries slot = s.value i := by
  have hi := h.calls i
  rw [hpc] at hi
  exact hi

theorem holds_lt (h : RegistryInv kind s) (hs : slot < kind.slots)
    (hh : (s.pc i).holds kind slot) : slot < s.tickets.given := by
  have hcap := kind.slots_lt
  have hle := h.sound.given_le
  rcases hh with hh | hh
  · obtain ⟨k, hk, he⟩ := h.publish hh
    have := int32_ofNat_inj (by omega) (by omega) he
    omega
  · obtain ⟨k, hk, he, -⟩ := h.ok hh
    have := codeOf_inj kind.range hs (by omega) he
    omega

/-- What a call knows stays true while more indices are given. -/
theorem ok_mono {value : Int32} (h : pc.ok kind s value) (he : s'.entries = s.entries)
    (hg : s.tickets.given ≤ s'.tickets.given) (hle : s'.tickets.given ≤ kind.slots) :
    pc.ok kind s' value := by
  cases pc with
  | publish k =>
      obtain ⟨slot, hs, hk⟩ := h
      exact ⟨slot, by omega, hk⟩
  | clamp =>
      have hfull : s.tickets.given = kind.slots := h
      show s'.tickets.given = kind.slots
      omega
  | added result =>
      cases result with
      | ok abi =>
          obtain ⟨slot, hs, hcode, hentry⟩ := h
          exact ⟨slot, by omega, hcode, by rw [he, hentry]⟩
      | full =>
          have hfull : s.tickets.given = kind.slots := h
          show s'.tickets.given = kind.slots
          omega
      | refused => trivial
  | _ => exact h

theorem move (h : RegistryInv kind s) (hok : pc.ok kind s v)
    (hno : ∀ slot, ¬ pc.holds kind slot) :
    RegistryInv kind { s with
      pc := Function.update s.pc i pc, value := Function.update s.value i v } where
  sound := h.sound
  calls j := by
    show (Function.update s.pc i pc j).ok kind s (Function.update s.value i v j)
    by_cases hj : j = i
    · subst hj
      rw [Function.update_self, Function.update_self]
      exact hok
    · rw [Function.update_of_ne hj, Function.update_of_ne hj]
      exact h.calls j
  unique j j' slot hs hj hj' := by
    rcases update_cases (P := fun pc : CallPc => pc.holds kind slot) hj with ⟨-, hh⟩ | ⟨-, hh⟩
    · exact absurd hh (hno slot)
    · rcases update_cases (P := fun pc : CallPc => pc.holds kind slot) hj' with
        ⟨-, hh'⟩ | ⟨-, hh'⟩
      · exact absurd hh' (hno slot)
      · exact h.unique j j' slot hs hh hh'

theorem moveOn (h : RegistryInv kind s) (hok : pc.ok kind s (s.value i))
    (hno : ∀ slot, ¬ pc.holds kind slot) : RegistryInv kind (s.setPc i pc) := by
  have hm := h.move (i := i) hok hno
  rw [Function.update_eq_self] at hm
  exact hm

/-- The counter changes as an index is given or found to be lacking, or is put
back. -/
theorem retake {t : Tickets} (h : RegistryInv kind s) (ht : t.Sound kind.slots)
    (hg : s.tickets.given ≤ t.given) : RegistryInv kind { s with tickets := t } where
  sound := ht
  calls j := ok_mono (h.calls j) rfl hg ht.given_le
  unique := h.unique

theorem claimed (h : RegistryInv kind s) (hroom : s.tickets.hasRoom kind.slots = true) :
    RegistryInv kind { s.setPc i (.publish s.tickets.count) with
      tickets := s.tickets.take kind.slots } := by
  obtain ⟨hsound, hgiven⟩ := h.sound.take_room kind.slots_lt hroom
  obtain ⟨hcount, hlt⟩ := h.sound.ticket kind.slots_lt hroom
  have htake := h.retake hsound (by omega)
  -- Whoever else has an index has an earlier one.
  have hnew : ∀ k, k < kind.slots →
      CallPc.holds kind (.publish s.tickets.count) k → k = s.tickets.given := by
    intro k hk hh
    have hcap := kind.slots_lt
    rcases hh with hh | hh
    · rw [hcount] at hh
      exact (int32_ofNat_inj (by omega) (by omega) (CallPc.publish.inj hh)).symm
    · exact nomatch hh
  constructor
  · exact hsound
  · intro j
    show (Function.update s.pc i (.publish s.tickets.count) j).ok kind
      { s with tickets := s.tickets.take kind.slots } (s.value j)
    by_cases hj : j = i
    · subst hj
      rw [Function.update_self]
      refine ⟨s.tickets.given, ?_, hcount⟩
      show s.tickets.given < (s.tickets.take kind.slots).given
      omega
    · rw [Function.update_of_ne hj]
      exact htake.calls j
  · intro j j' slot hs hj hj'
    rcases update_cases (P := fun pc : CallPc => pc.holds kind slot) hj with ⟨he, hh⟩ | ⟨-, hh⟩
    · rcases update_cases (P := fun pc : CallPc => pc.holds kind slot) hj' with
        ⟨he', -⟩ | ⟨-, hh'⟩
      · rw [he, he']
      · have := hnew slot hs hh
        have := h.holds_lt hs hh'
        omega
    · rcases update_cases (P := fun pc : CallPc => pc.holds kind slot) hj' with
        ⟨-, hh'⟩ | ⟨-, hh'⟩
      · have := hnew slot hs hh'
        have := h.holds_lt hs hh
        omega
      · exact h.unique j j' slot hs hh hh'

/-- An addition has found no index, or has put the counter back: `pc` is one of
the two places it is in then. -/
theorem emptied {t : Tickets} (h : RegistryInv kind s) (ht : t.Sound kind.slots)
    (hfull : s.tickets.given = kind.slots) (hsame : t.given = s.tickets.given)
    (hpc : pc = .clamp ∨ pc = .added .full) :
    RegistryInv kind { s.setPc i pc with tickets := t } := by
  have hretake := h.retake ht (by omega)
  refine hretake.moveOn ?_ fun slot hh => ?_
  · rcases hpc with rfl | rfl <;> exact hsame.trans hfull
  · rcases hpc with rfl | rfl <;> rcases hh with hh | hh <;> exact nomatch hh

theorem store_ofNat (hs : slot < kind.slots) (v : Int32) :
    s.store (Int32.ofNat slot) v = { s with entries := Function.update s.entries slot v } := by
  have hcap := kind.slots_lt
  have hto : (Int32.ofNat slot).toInt = slot := Int32.toInt_ofNat_of_lt (by omega)
  rw [RegistryState.store, if_neg, Int32.toNatClampNeg_ofNat_of_lt (by omega)]
  rw [Int32.lt_iff_toInt_lt, hto, Int32.toInt_zero]
  omega

/-- The publication of an entry, and the return of the addition. -/
theorem published (h : RegistryInv kind s) {k : Int32} (hpc : s.pc i = .publish k) :
    RegistryInv kind ((s.store k (s.value i)).setPc i (.added (.ok (kind.base + k)))) := by
  obtain ⟨slot, hs, rfl⟩ := h.publish hpc
  have hlt : slot < kind.slots := Nat.lt_of_lt_of_le hs h.sound.given_le
  rw [store_ofNat hlt]
  have hold : (s.pc i).holds kind slot := .inl hpc
  constructor
  · exact h.sound
  · intro j
    show (Function.update s.pc i (.added (.ok (codeOf kind.base slot))) j).ok kind
      { s with entries := Function.update s.entries slot (s.value i) } (s.value j)
    by_cases hj : j = i
    · subst hj
      rw [Function.update_self]
      exact ⟨slot, hs, rfl, Function.update_self _ _ _⟩
    · rw [Function.update_of_ne hj]
      have hother := h.calls j
      cases hpcj : s.pc j with
      | added result =>
          rw [hpcj] at hother
          cases result with
          | ok abi =>
              obtain ⟨k, hk, rfl, hentry⟩ := hother
              have hk' : k ≠ slot := by
                intro hks
                subst hks
                exact hj (h.unique j i k hlt (.inr hpcj) hold)
              exact ⟨k, hk, rfl, (Function.update_of_ne hk' _ _).trans hentry⟩
          | _ => exact hother
      | _ =>
          rw [hpcj] at hother
          exact hother
  · intro j j' k hk hj hj'
    -- What the addition holds now it held before, so no two hold one.
    have hback : ∀ l, (Function.update s.pc i (.added (.ok (codeOf kind.base slot))) l).holds
        kind k → (s.pc l).holds kind k := by
      intro l hl
      rcases update_cases (P := fun pc : CallPc => pc.holds kind k) hl with ⟨he, hh⟩ | ⟨-, hh⟩
      · rcases hh with hh | hh
        · exact nomatch hh
        · have hcode := AddResult.ok.inj (CallPc.added.inj hh)
          rw [he, ← codeOf_inj kind.range hlt hk hcode]
          exact hold
      · exact hh
    exact h.unique j j' k hk (hback j hj) (hback j' hj')

theorem inRange_eq_some {count : Int32}
    (h : RegistryState.inRange kind count abi = some (some slot)) :
    slot < kind.slots ∧ abi = codeOf kind.base slot := by
  rw [RegistryState.inRange] at h
  obtain ⟨index, hindex, hin⟩ := Option.map_eq_some_iff.mp h
  split at hin
  · cases hin
  · next hno =>
      cases hin
      refine slotOf_eq_some kind.range ?_
      rw [slotOf, hindex]
      exact congrArg some (if_neg (by omega))

theorem not_holds (hp : ∀ k, pc ≠ .publish k) (ha : ∀ abi, pc ≠ .added (.ok abi)) (slot : Nat) :
    ¬ pc.holds kind slot := by
  intro hh
  rcases hh with hh | hh
  · exact hp _ hh
  · exact ha _ hh

theorem step (h : RegistryInv kind s) {a : RegistryAct} (hg : calmOk kind s a)
    (hs : s.step kind a = some s') : RegistryInv kind s' := by
  cases registry_step_cases hs with
  | @add i value hpc =>
      cases hr : kind.refuses value with
      | true => exact h.move trivial (not_holds nofun nofun)
      | false => exact h.move trivial (not_holds nofun nofun)
  | lookup hpc | load hpc => exact h.moveOn trivial (not_holds nofun nofun)
  | claim hpc =>
      cases hroom : s.tickets.hasRoom kind.slots with
      | true => exact h.claimed hroom
      | false =>
          obtain ⟨hsound, hgiven, hsame⟩ := h.sound.take_empty kind.slots_lt (hg hpc) hroom
          exact h.emptied hsound hgiven hsame (.inl rfl)
  | @clamp i hpc =>
      have hgiven : s.tickets.given = kind.slots := by
        have hi := h.calls i
        rw [hpc] at hi
        exact hi
      exact h.emptied (.putBack kind.slots_lt hgiven) hgiven rfl (.inr rfl)
  | publish hpc => exact h.published hpc
  | @count i abi slot hpc hr =>
      cases slot with
      | none => exact h.moveOn trivial (not_holds nofun nofun)
      | some slot => exact h.moveOn (inRange_eq_some hr) (not_holds nofun nofun)

theorem run (acts : List RegistryAct)
    (hm : Meets (RegistryState.step kind) (calmOk kind) .init acts)
    (he : exec (RegistryState.step kind) .init acts = some s) : RegistryInv kind s :=
  exec_invariant (fun _ _ _ h hg hs => h.step hg hs) .init hm he

/-- A code that was returned leads to its value. -/
theorem inRange_ok (h : RegistryInv kind s) (hpc : s.pc i = .added (.ok abi)) :
    ∃ slot, RegistryState.inRange kind s.tickets.count abi = some (some slot) ∧
      abi = codeOf kind.base slot ∧ slot < kind.slots ∧ s.entries slot = s.value i := by
  obtain ⟨slot, hs, rfl, hentry⟩ := h.ok hpc
  have hlt : slot < kind.slots := Nat.lt_of_lt_of_le hs h.sound.given_le
  refine ⟨slot, ?_, rfl, hlt, hentry⟩
  have hcount := h.sound.lt_count hs
  have hbase := kind.range.base_nonneg
  have hfits := kind.range.fits
  have hcode : (codeOf kind.base slot).toInt = kind.base.toInt + slot :=
    codeOf_toInt hbase (by omega)
  have hsub : (codeOf kind.base slot).toInt - kind.base.toInt = slot := by omega
  rw [RegistryState.inRange, slotIndex_eq hbase (by omega), hsub]
  exact congrArg some (if_neg (by omega))

end RegistryInv

/-! ## What a step does to a call -/

inductive CallMove (kind : RegistryKind) (s : RegistryState) : CallPc → CallPc → Prop
  | enter : CallMove kind s .idle .claim
  | refuse : CallMove kind s .idle (.added .refused)
  | lookup {abi : Int32} : CallMove kind s .idle (.lookup abi)
  | room (h : s.tickets.hasRoom kind.slots = true) :
      CallMove kind s .claim (.publish s.tickets.count)
  | empty : CallMove kind s .claim .clamp
  | clamp : CallMove kind s .clamp (.added .full)
  | publish {slot : Int32} : CallMove kind s (.publish slot) (.added (.ok (kind.base + slot)))
  | missed {abi : Int32} (h : RegistryState.inRange kind s.tickets.count abi = some none) :
      CallMove kind s (.lookup abi) (.found abi none)
  | index {abi : Int32} {slot : Nat} : CallMove kind s (.lookup abi) (.load abi slot)
  | load {abi : Int32} {slot : Nat} :
      CallMove kind s (.load abi slot) (.found abi (some (s.entries slot)))

theorem CallMove.of_update (j : Nat) {i : Nat} {pc : CallPc} (hm : CallMove kind s (s.pc i) pc) :
    Function.update s.pc i pc j = s.pc j ∨
      CallMove kind s (s.pc j) (Function.update s.pc i pc j) := by
  by_cases hj : j = i
  · subst hj
    rw [Function.update_self]
    exact .inr hm
  · exact .inl (Function.update_of_ne hj _ _)

theorem CallMove.of_claim :
    CallMove kind s .claim
      (if s.tickets.hasRoom kind.slots then .publish s.tickets.count else .clamp) := by
  cases hroom : s.tickets.hasRoom kind.slots with
  | true => exact .room hroom
  | false => exact .empty

theorem step_move {a : RegistryAct} (hs : s.step kind a = some s') (j : Nat) :
    (s'.pc j = s.pc j ∨ CallMove kind s (s.pc j) (s'.pc j)) ∧
      (s.pc j ≠ .idle → s'.value j = s.value j) := by
  cases registry_step_cases hs with
  | @add i value hpc =>
      constructor
      · refine CallMove.of_update j ?_
        rw [hpc]
        cases kind.refuses value with
        | true => exact .refuse
        | false => exact .enter
      · intro hne
        have hj : j ≠ i := by
          intro hj
          subst hj
          exact hne hpc
        exact Function.update_of_ne hj _ _
  | lookup hpc => exact ⟨CallMove.of_update j (hpc ▸ .lookup), fun _ => rfl⟩
  | claim hpc => exact ⟨CallMove.of_update j (hpc ▸ .of_claim), fun _ => rfl⟩
  | clamp hpc => exact ⟨CallMove.of_update j (hpc ▸ .clamp), fun _ => rfl⟩
  | @publish i slot hpc =>
      have hkeep : (s.store slot (s.value i)).pc = s.pc ∧
          (s.store slot (s.value i)).value = s.value := by
        rw [RegistryState.store]
        split <;> exact ⟨rfl, rfl⟩
      refine ⟨?_, fun _ => congrFun hkeep.2 j⟩
      simp only [RegistryState.setPc, hkeep.1]
      exact CallMove.of_update j (hpc ▸ .publish)
  | @count i abi slot hpc hr =>
      refine ⟨CallMove.of_update j ?_, fun _ => rfl⟩
      rw [hpc]
      cases slot with
      | none => exact .missed hr
      | some slot => exact .index
  | load hpc => exact ⟨CallMove.of_update j (hpc ▸ .load), fun _ => rfl⟩

theorem step_full (h : RegistryInv kind s) (hfull : s.tickets.given = kind.slots)
    {a : RegistryAct} (hs : s.step kind a = some s') :
    s'.tickets.given = kind.slots := by
  have hroom : s.tickets.hasRoom kind.slots ≠ true := by
    rw [ne_eq, h.sound.hasRoom_iff kind.slots_lt]
    omega
  cases registry_step_cases hs with
  | add hpc | lookup hpc | clamp hpc | count hpc | load hpc => exact hfull
  | claim hpc =>
      simp only [Tickets.take, if_neg hroom]
      exact hfull
  | publish hpc =>
      simp only [RegistryState.setPc, RegistryState.store]
      split <;> exact hfull

/-! ## Two states of a run -/

/-- What the later state `s'` owes to the earlier one. -/
structure Since (kind : RegistryKind) (s s' : RegistryState) : Prop where
  /-- An addition that has returned its code has returned. -/
  kept : ∀ i abi, s.pc i = .added (.ok abi) →
    s'.pc i = .added (.ok abi) ∧ s'.value i = s.value i
  /-- A full table gives no index to an addition that had none. -/
  closed : s.tickets.given = kind.slots → s'.tickets.given = kind.slots ∧
    ∀ j, (s.pc j).unclaimed = true → (∀ k, s'.pc j ≠ .publish k) ∧
      ∀ abi, s'.pc j ≠ .added (.ok abi)
  /-- A lookup that was not entered before finds what had been returned. -/
  looked : ∀ i abi, s.pc i = .added (.ok abi) → ∀ k, s.pc k = .idle →
    ∀ r, s'.pc k = .found abi r → r = some (s.value i)

namespace Since

variable {s₀ : RegistryState}

theorem refl : Since kind s s where
  kept _ _ h := ⟨h, rfl⟩
  closed h := ⟨h, fun j hj => ⟨fun k hk => by simp [hk, CallPc.unclaimed] at hj,
    fun abi hk => by simp [hk, CallPc.unclaimed] at hj⟩⟩
  looked _ _ _ k hk r hr := by simp [hk] at hr

theorem step (h : Since kind s₀ s) (hinv : RegistryInv kind s) {a : RegistryAct}
    (hs : s.step kind a = some s') : Since kind s₀ s' where
  kept i abi hi := by
    obtain ⟨hpc, hval⟩ := h.kept i abi hi
    obtain ⟨hmove, hvalue⟩ := step_move hs i
    rw [hpc] at hmove hvalue
    refine ⟨?_, (hvalue nofun).trans hval⟩
    rcases hmove with hmove | hmove
    · exact hmove
    · cases hmove
  closed hfull := by
    obtain ⟨hgiven, hno⟩ := h.closed hfull
    refine ⟨step_full hinv hgiven hs, fun j hj => ?_⟩
    obtain ⟨hpublish, hok⟩ := hno j hj
    rcases (step_move hs j).1 with hmove | hmove
    · rw [hmove]
      exact ⟨hpublish, hok⟩
    · refine ⟨fun k hk => ?_, fun abi hk => ?_⟩
      · rw [hk] at hmove
        -- An index is given only where there is room.
        generalize s.pc j = pc at hmove
        cases hmove with
        | room hroom =>
            have := (hinv.sound.hasRoom_iff kind.slots_lt).mp hroom
            omega
      · rw [hk] at hmove
        generalize hpc : s.pc j = pc at hmove
        cases hmove with
        | publish => exact hpublish _ hpc
  looked i abi hi k hk r hr := by
    obtain ⟨hpc, hval⟩ := h.kept i abi hi
    rcases (step_move hs k).1 with hmove | hmove
    · exact h.looked i abi hi k hk r (hmove ▸ hr)
    · rw [hr] at hmove
      obtain ⟨slot, hrange, hcode, hlt, hentry⟩ := hinv.inRange_ok hpc
      generalize hpck : s.pc k = pc at hmove
      cases hmove with
      | missed hmiss =>
          rw [hrange] at hmiss
          cases hmiss
      | load =>
          have hload := hinv.calls k
          rw [hpck] at hload
          obtain ⟨hlt', hcode'⟩ := hload
          rw [codeOf_inj kind.range hlt' hlt (hcode'.symm.trans hcode), hentry, hval]

end Since

/-! ## What the callers rely on -/

/-- What holds in a state that a run has reached, and between it and a later
one. -/
structure RegistryShared (kind : RegistryKind) (s s' : RegistryState) : Prop where
  /-- No two additions have one code. -/
  distinct : ∀ i j abi, s.pc i = .added (.ok abi) → s.pc j = .added (.ok abi) → i = j
  bounded : ∀ calls : List Nat, calls.Nodup →
    (∀ i, i ∈ calls → ∃ abi, s.pc i = .added (.ok abi)) → calls.length ≤ kind.slots
  /-- Once an addition has failed for lack of room, none succeeds that has not
  got its index. -/
  full : ∀ i, s.pc i = .added .full → ∀ j, (s.pc j).unclaimed = true →
    ∀ abi, s'.pc j ≠ .added (.ok abi)
  /-- A code that was returned leads to its value, for a lookup at once and for
  one whose loads are apart. -/
  translates : ∀ i abi, s.pc i = .added (.ok abi) →
    s'.dynamicFromabi kind abi = some (some (s.value i)) ∧
      ∀ k, s.pc k = .idle → ∀ r, s'.pc k = .found abi r → r = some (s.value i)

theorem RegistryInv.distinct (h : RegistryInv kind s) {i j : Nat} {abi : Int32}
    (hi : s.pc i = .added (.ok abi)) (hj : s.pc j = .added (.ok abi)) : i = j := by
  obtain ⟨slot, hs, rfl, -⟩ := h.ok hi
  exact h.unique i j slot (Nat.lt_of_lt_of_le hs h.sound.given_le) (.inr hi) (.inr hj)

/-- Additions that have returned codes have returned different ones. -/
theorem RegistryInv.bounded (h : RegistryInv kind s) {calls : List Nat} (hnd : calls.Nodup)
    (hok : ∀ i, i ∈ calls → ∃ abi, s.pc i = .added (.ok abi)) :
    calls.length ≤ kind.slots := by
  have hslot : ∀ i, i ∈ calls → ∃ slot, slot < kind.slots ∧
      s.pc i = .added (.ok (codeOf kind.base slot)) := by
    intro i hi
    obtain ⟨abi, hpc⟩ := hok i hi
    obtain ⟨slot, hs, rfl, -⟩ := h.ok hpc
    exact ⟨slot, Nat.lt_of_lt_of_le hs h.sound.given_le, hpc⟩
  choose! f hlt hpc using hslot
  have hinj : ∀ i, i ∈ calls → ∀ j, j ∈ calls → f i = f j → i = j := by
    intro i hi j hj he
    have hpci := hpc i hi
    rw [he] at hpci
    exact h.distinct hpci (hpc j hj)
  have hmap : (calls.map f).Nodup := hnd.map_on hinj
  have hsub : calls.map f ⊆ List.range kind.slots := by
    intro k hk
    obtain ⟨i, hi, rfl⟩ := List.mem_map.mp hk
    exact List.mem_range.mpr (hlt i hi)
  have hlen := (hmap.subperm hsub).length_le
  rwa [List.length_map, List.length_range] at hlen

/-- The registries under every interleaving in which the counter does not
overflow. -/
theorem registry_shared (kind : RegistryKind) (acts later : List RegistryAct)
    (s s' : RegistryState)
    (hm : Meets (RegistryState.step kind) (calmOk kind) .init acts)
    (he : exec (RegistryState.step kind) .init acts = some s)
    (hm' : Meets (RegistryState.step kind) (calmOk kind) s later)
    (he' : exec (RegistryState.step kind) s later = some s') :
    RegistryShared kind s s' := by
  have hinv := RegistryInv.run acts hm he
  obtain ⟨hinv', hsince⟩ := exec_invariant
    (I := fun t => RegistryInv kind t ∧ Since kind s t)
    (fun _ _ _ h hg hs => ⟨h.1.step hg hs, h.2.step h.1 hs⟩) ⟨hinv, Since.refl⟩ hm' he'
  constructor
  · exact fun i j abi hi hj => hinv.distinct hi hj
  · exact fun calls hnd hok => hinv.bounded hnd hok
  · intro i hi j hj abi
    have hfull := hinv.calls i
    rw [hi] at hfull
    exact ((hsince.closed hfull).2 j hj).2 abi
  · intro i abi hi
    obtain ⟨hpc, hval⟩ := hsince.kept i abi hi
    obtain ⟨slot, hrange, -, -, hentry⟩ := hinv'.inRange_ok hpc
    refine ⟨?_, fun k hk r hr => hsince.looked i abi hi k hk r hr⟩
    rw [RegistryState.dynamicFromabi, hrange, Option.map_some, Option.map_some, hentry, hval]

/-! ## Too many additions at once -/

/-- Additions that are entered and fetch the counter, from call `i` on. -/
def overshoot (i : Nat) : Nat → List RegistryAct
  | 0 => []
  | n + 1 => .add i 7 :: .tick i :: overshoot (i + 1) n

theorem take_count {cap : Nat} {t : Tickets} : (t.take cap).count = t.count + 1 := by
  rw [Tickets.take]
  split <;> rfl

/-- They move the counter and nothing of the calls before them. -/
theorem exec_overshoot {i n : Nat} (hidle : ∀ j, i ≤ j → s.pc j = .idle) :
    ∃ s', exec (RegistryState.step kind) s (overshoot i n) = some s' ∧
      s'.tickets.count = s.tickets.count + Int32.ofNat n := by
  induction n generalizing i s with
  | zero => exact ⟨s, rfl, (Int32.add_zero _).symm⟩
  | succ n ih =>
      have hrefuses : kind.refuses 7 = false := by cases kind <;> rfl
      let s₁ : RegistryState :=
        { s with pc := Function.update s.pc i .claim, value := Function.update s.value i 7 }
      have hadd : s.step kind (.add i 7) = some s₁ := by
        simp only [RegistryState.step, if_pos (hidle i (Nat.le_refl i)), hrefuses]
        rfl
      have hpc : s₁.pc i = .claim := Function.update_self _ _ _
      obtain ⟨s₂, htick, hcount, hrest⟩ : ∃ s₂, s₁.step kind (.tick i) = some s₂ ∧
          s₂.tickets.count = s.tickets.count + 1 ∧ ∀ j, i + 1 ≤ j → s₂.pc j = .idle := by
        simp only [RegistryState.step, hpc]
        refine ⟨_, rfl, take_count, fun j hj => ?_⟩
        have hne : j ≠ i := by omega
        show Function.update (Function.update s.pc i .claim) i _ j = .idle
        rw [Function.update_of_ne hne, Function.update_of_ne hne]
        exact hidle j (by omega)
      obtain ⟨s', he, hcount'⟩ := ih hrest
      refine ⟨s', ?_, ?_⟩
      · rw [overshoot, exec_cons, hadd, Option.bind_some, exec_cons, htick, Option.bind_some]
        exact he
      · rw [hcount', hcount, Int32.add_assoc, Nat.add_comm n 1, Int32.ofNat_add]
        rfl

/-- One key is added, and then as many additions as there are values of the
counter left go past the end of the table before any of them comes back. -/
theorem registry_overflows :
    ¬ ∀ (kind : RegistryKind) (acts later : List RegistryAct) (s s' : RegistryState),
      exec (RegistryState.step kind) .init acts = some s →
      exec (RegistryState.step kind) s later = some s' → RegistryShared kind s s' := by
  intro h
  obtain ⟨s, hs, hpc, hcount, hidle⟩ : ∃ s : RegistryState,
      exec (RegistryState.step .keyval) .init [.add 0 7, .tick 0, .tick 0] = some s ∧
        s.pc 0 = .added (.ok keyvalAbiBase) ∧ s.tickets.count = 1 ∧
        ∀ j, 1 ≤ j → s.pc j = .idle := by
    refine ⟨_, rfl, rfl, rfl, fun j hj => ?_⟩
    obtain ⟨k, rfl⟩ := Nat.exists_eq_add_of_le' hj
    rfl
  obtain ⟨s', hs', hcount'⟩ : ∃ s', exec (RegistryState.step .keyval) s
      (overshoot 1 2147483647) = some s' ∧
        s'.tickets.count = s.tickets.count + Int32.ofNat 2147483647 := exec_overshoot hidle
  have hbad := ((h .keyval _ _ s s' hs hs').translates 0 _ hpc).1
  rw [hcount] at hcount'
  -- The counter is negative, so no index is below it.
  have hnone : s'.dynamicFromabi .keyval keyvalAbiBase = some none := by
    have hrange : RegistryState.inRange .keyval (1 + Int32.ofNat 2147483647) keyvalAbiBase =
        some none := by decide
    rw [RegistryState.dynamicFromabi, hcount', hrange]
    rfl
  rw [hnone] at hbad
  cases hbad

/-- A key that is added, and another while the first is looked up. -/
theorem registry_shared_two : ∃ s s',
    exec (RegistryState.step .keyval) .init [.add 0 7, .tick 0, .tick 0] = some s ∧
      exec (RegistryState.step .keyval) s
        [.lookup 1 0x40000000, .add 2 8, .tick 1, .tick 2, .tick 1, .tick 2] = some s' ∧
      s'.pc 1 = .found 0x40000000 (some 7) ∧ s'.pc 2 = .added (.ok 0x40000001) ∧
      RegistryShared .keyval s s' :=
  ⟨_, _, rfl, rfl, by decide, by decide,
    registry_shared .keyval [.add 0 7, .tick 0, .tick 0]
      [.lookup 1 0x40000000, .add 2 8, .tick 1, .tick 2, .tick 1, .tick 2] _ _
      (by decide) rfl (by decide) rfl⟩

end AbiWrapper.Ref
