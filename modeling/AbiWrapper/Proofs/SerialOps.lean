import AbiWrapper.Proofs.SerialHistory
import AbiWrapper.Ref.SerialOps

/-!
# What a thread sees of the serialized handles

An entry is stored once, by whoever fetched its index, and says which handle
that was for. So an integer always leads back to its handle. For the other
direction it matters that no handle has two indices: a thread that was answered
with the older of two finds the newer one as soon as it is published, because
the scan starts there. The comment in the source counts on each thread keeping
to its own.
-/

namespace AbiWrapper.Ref

open AbiWrapper.Lib

/-- Bits that get past the first two tests of a call. -/
def dynamicBits (bits : UInt64) : Prop := ¬ inPredefRange bits ∧ bits ≠ 0

/-! ## The steps -/

/-- What a step finds, and the state it leaves. -/
inductive SerialStep (s : SerialOps) : SerialAct → SerialOps → Prop
  | predef {thread : Nat} {bits : UInt64} (hpc : s.pc thread = .idle) (hr : inPredefRange bits) :
      SerialStep s (.toint thread bits) (s.answer thread bits (Int32.ofNat bits.toNat))
  | zero {thread : Nat} {bits : UInt64} (hpc : s.pc thread = .idle) (hb : bits = 0) :
      SerialStep s (.toint thread bits) (s.answer thread bits 0)
  | enter {thread : Nat} {bits : UInt64} (hpc : s.pc thread = .idle) (hdyn : dynamicBits bits) :
      SerialStep s (.toint thread bits) (s.setPc thread (.count bits))
  | count {thread : Nat} {bits : UInt64} (hpc : s.pc thread = .count bits) :
      SerialStep s (.tick thread)
        (s.setPc thread (.scanFrom bits (SerialOps.scanEnd s.tickets.count)))
  | hit {thread left : Nat} {bits : UInt64} (hpc : s.pc thread = .scan bits left)
      (he : s.entries (left - 1) = bits) : SerialStep s (.tick thread)
        (s.answer thread bits (codeOf serialAbiBase (left - 1)))
  | miss {thread left : Nat} {bits : UInt64} (hpc : s.pc thread = .scan bits left) :
      SerialStep s (.tick thread) (s.setPc thread (.scanFrom bits (left - 1)))
  | claim {thread : Nat} {bits : UInt64} (hpc : s.pc thread = .claim bits) :
      SerialStep s (.tick thread) (s.claim thread bits)
  | clamp {thread : Nat} {bits : UInt64} (hpc : s.pc thread = .clamp bits) :
      SerialStep s (.tick thread)
        { s.answer thread bits 0 with tickets := s.tickets.putBack serialSlots }
  | publish {thread : Nat} {bits : UInt64} {slot : Int32} (hpc : s.pc thread = .publish bits slot) :
      SerialStep s (.tick thread)
        ((s.store slot bits).answer thread bits (serialAbiBase + slot))

theorem serial_step_cases {s s' : SerialOps} {a : SerialAct} (hs : s.step a = some s') :
    SerialStep s a s' := by
  cases a with
  | toint thread bits =>
      simp only [SerialOps.step] at hs
      split at hs
      · next hpc =>
          obtain rfl := Option.some.inj hs
          split
          · next hr => exact .predef hpc hr
          · next hr =>
              split
              · next hb => exact .zero hpc hb
              · next hb => exact .enter hpc ⟨hr, hb⟩
      · exact nomatch hs
  | tick thread =>
      simp only [SerialOps.step] at hs
      split at hs
      · exact nomatch hs
      · next bits hpc => exact Option.some.inj hs ▸ .count hpc
      · next bits left hpc =>
          obtain rfl := Option.some.inj hs
          split
          · next he => exact .hit hpc he
          · exact .miss hpc
      · next bits hpc => exact Option.some.inj hs ▸ .claim hpc
      · next bits hpc => exact Option.some.inj hs ▸ .clamp hpc
      · next bits slot hpc => exact Option.some.inj hs ▸ .publish hpc

/-! ## The invariant -/

/-- What a call knows at each of its places. -/
def TointPc.ok (s : SerialOps) : TointPc → Prop
  | .idle => True
  | .count bits | .scan bits _ | .claim bits => dynamicBits bits
  | .clamp bits => dynamicBits bits ∧ s.tickets.given = serialSlots
  | .publish bits k => dynamicBits bits ∧
      ∃ slot : Nat, s.claimed[slot]? = some bits ∧ k = Int32.ofNat slot

/-- What an answer says. -/
def TointResult.ok (s : SerialOps) (r : TointResult) : Prop :=
  r.value ≠ 0 → (inPredefRange r.bits ∧ r.value = Int32.ofNat r.bits.toNat) ∨
    dynamicBits r.bits ∧ ∃ slot : Nat, s.claimed[slot]? = some r.bits ∧
      s.entries slot = r.bits ∧ r.value = codeOf serialAbiBase slot

structure SerialOpsInv (s : SerialOps) : Prop where
  sound : s.tickets.Sound serialSlots
  length : s.claimed.length = s.tickets.given
  nodup : s.claimed.Nodup
  calls : ∀ thread, (s.pc thread).ok s
  /-- Nothing but the handle of an index is stored there. -/
  entry : ∀ slot, s.entries slot ≠ 0 → s.claimed[slot]? = some (s.entries slot)
  results : ∀ r, r ∈ s.results → r.ok s

theorem TointPc.ok_scanFrom {s : SerialOps} {bits : UInt64} {left : Nat}
    (h : dynamicBits bits) : (TointPc.scanFrom bits left).ok s := by
  rw [TointPc.scanFrom]
  split <;> exact h

namespace SerialOpsInv

variable {s s' : SerialOps} {thread slot : Nat} {bits : UInt64} {value : Int32} {pc : TointPc}

theorem init : SerialOpsInv .init where
  sound := .start
  length := rfl
  nodup := List.nodup_nil
  calls _ := trivial
  entry _ h := absurd rfl h
  results _ h := nomatch h

theorem slot_lt (h : SerialOpsInv s) (hs : s.claimed[slot]? = some bits) :
    slot < serialSlots := by
  obtain ⟨hlt, -⟩ := List.getElem?_eq_some_iff.mp hs
  have hle := h.sound.given_le
  have hlen := h.length
  omega

/-- A call moves on without touching the table. -/
theorem move (h : SerialOpsInv s) (hpc : pc.ok s) : SerialOpsInv (s.setPc thread pc) :=
  ⟨h.sound, h.length, h.nodup,
    forall_update (P := fun pc : TointPc => pc.ok s) hpc h.calls, h.entry, h.results⟩

theorem answer (h : SerialOpsInv s) (hr : TointResult.ok s ⟨thread, bits, value⟩) :
    SerialOpsInv (s.answer thread bits value) where
  sound := h.sound
  length := h.length
  nodup := h.nodup
  calls := forall_update (P := fun pc : TointPc => pc.ok s) trivial h.calls
  entry := h.entry
  results r hm := by
    rcases List.mem_append.mp hm with hm | hm
    · exact h.results r hm
    · rw [List.mem_singleton.mp hm]
      exact hr

/-- What is known stays true while the counter moves, handles are appended to
the claimed ones, and entries are stored where they belong. -/
theorem pc_ok_mono (h : pc.ok s)
    (hclaimed : ∀ (slot : Nat) b, s.claimed[slot]? = some b → s'.claimed[slot]? = some b)
    (hgiven : s.tickets.given = serialSlots → s'.tickets.given = serialSlots) : pc.ok s' := by
  cases pc with
  | clamp b => exact ⟨h.1, hgiven h.2⟩
  | publish b k =>
      obtain ⟨hdyn, slot, hs, hk⟩ := h
      exact ⟨hdyn, slot, hclaimed slot b hs, hk⟩
  | _ => exact h

theorem result_ok_mono {r : TointResult} (h : r.ok s)
    (hclaimed : ∀ (slot : Nat) b, s.claimed[slot]? = some b → s'.claimed[slot]? = some b)
    (hentries : ∀ (slot : Nat) b, s.claimed[slot]? = some b → s.entries slot = b →
      s'.entries slot = b) : r.ok s' := by
  intro hne
  rcases h hne with hp | ⟨hdyn, slot, hs, he, hv⟩
  · exact .inl hp
  · exact .inr ⟨hdyn, slot, hclaimed slot _ hs, hentries slot _ hs he, hv⟩

/-- The fetch-and-add. -/
theorem claim (h : SerialOpsInv s) (hdyn : dynamicBits bits)
    (hnew : s.tickets.hasRoom serialSlots = true → bits ∉ s.claimed)
    (hcalm : s.tickets.calm serialSlots) : SerialOpsInv (s.claim thread bits) := by
  rw [SerialOps.claim]
  split
  · next hroom =>
      obtain ⟨hsound, hgiven⟩ := h.sound.take_room serialSlots_lt hroom
      obtain ⟨hcount, hlt⟩ := h.sound.ticket serialSlots_lt hroom
      have hlen := h.length
      -- The index that is fetched is that of the handle that is appended.
      have hclaimed : ∀ (slot : Nat) b, s.claimed[slot]? = some b →
          (s.claimed ++ [bits])[slot]? = some b := by
        intro slot b hs
        rw [List.getElem?_append_left (List.getElem?_eq_some_iff.mp hs).1]
        exact hs
      have hlast : (s.claimed ++ [bits])[s.tickets.given]? = some bits := by
        rw [← hlen, List.getElem?_concat_length]
      constructor
      · exact hsound
      · show (s.claimed ++ [bits]).length = (s.tickets.take serialSlots).given
        rw [List.length_append, List.length_singleton]
        omega
      · refine List.nodup_append.mpr ⟨h.nodup, by simp, fun a ha b hb hab => ?_⟩
        rw [hab, List.mem_singleton.mp hb] at ha
        exact hnew hroom ha
      · refine forall_update (P := fun pc : TointPc => pc.ok _) ?_ fun t => ?_
        · exact ⟨hdyn, s.tickets.given, hlast, hcount⟩
        · refine pc_ok_mono (h.calls t) hclaimed fun hfull => ?_
          omega
      · exact fun slot hne => hclaimed slot _ (h.entry slot hne)
      · exact fun r hm => result_ok_mono (h.results r hm) hclaimed fun _ _ _ he => he
  · next hroom =>
      have hno : s.tickets.hasRoom serialSlots = false := by simpa using hroom
      obtain ⟨hsound, hfull, hsame⟩ := h.sound.take_empty serialSlots_lt hcalm hno
      constructor
      · exact hsound
      · exact h.length.trans hsame.symm
      · exact h.nodup
      · refine forall_update (P := fun pc : TointPc => pc.ok _) ?_ fun t => ?_
        · exact ⟨hdyn, hsame.trans hfull⟩
        · exact pc_ok_mono (h.calls t) (fun _ _ hs => hs) fun hf => hsame.trans hf
      · exact h.entry
      · exact h.results

/-- The store that puts the counter back. -/
theorem clamp (h : SerialOpsInv s) (hpc : s.pc thread = .clamp bits) :
    SerialOpsInv { s.answer thread bits 0 with tickets := s.tickets.putBack serialSlots } := by
  have hknown := h.calls thread
  rw [hpc] at hknown
  have hzero : TointResult.ok s ⟨thread, bits, 0⟩ := fun hne => absurd rfl hne
  have ha := h.answer hzero
  exact ⟨.putBack serialSlots_lt hknown.2, ha.length, ha.nodup,
    fun t => pc_ok_mono (ha.calls t) (fun _ _ hs => hs) fun hf => hf, ha.entry, ha.results⟩

theorem store_ofNat (hs : slot < serialSlots) :
    s.store (Int32.ofNat slot) bits =
      { s with entries := Function.update s.entries slot bits } := by
  have hcap := serialSlots_lt
  have hto : (Int32.ofNat slot).toInt = slot := Int32.toInt_ofNat_of_lt (by omega)
  rw [SerialOps.store, if_neg, Int32.toNatClampNeg_ofNat_of_lt (by omega)]
  rw [Int32.lt_iff_toInt_lt, hto, Int32.toInt_zero]
  omega

theorem stored (h : SerialOpsInv s) (hs : s.claimed[slot]? = some bits) :
    SerialOpsInv { s with entries := Function.update s.entries slot bits } where
  sound := h.sound
  length := h.length
  nodup := h.nodup
  calls t := pc_ok_mono (h.calls t) (fun _ _ hs => hs) fun hf => hf
  entry k hne := by
    by_cases hk : k = slot
    · subst hk
      simp only [Function.update_self]
      exact hs
    · simp only [Function.update_of_ne hk] at hne ⊢
      exact h.entry k hne
  results r hm := by
    refine result_ok_mono (h.results r hm) (fun _ _ hs => hs) fun k b hk he => ?_
    by_cases hks : k = slot
    · subst hks
      show Function.update s.entries k bits k = b
      rw [Function.update_self]
      exact Option.some.inj (hs.symm.trans hk)
    · exact (Function.update_of_ne hks _ _).trans he

theorem published (h : SerialOpsInv s) {k : Int32} (hpc : s.pc thread = .publish bits k) :
    SerialOpsInv ((s.store k bits).answer thread bits (serialAbiBase + k)) := by
  have hknown := h.calls thread
  rw [hpc] at hknown
  obtain ⟨hdyn, slot, hs, rfl⟩ := hknown
  rw [store_ofNat (h.slot_lt hs)]
  exact (h.stored hs).answer fun _ =>
    .inr ⟨hdyn, slot, hs, Function.update_self _ _ _, rfl⟩

/-- The load of an entry that is the handle. -/
theorem found (h : SerialOpsInv s) {left : Nat} (hpc : s.pc thread = .scan bits left)
    (he : s.entries (left - 1) = bits) :
    SerialOpsInv (s.answer thread bits (codeOf serialAbiBase (left - 1))) := by
  have hdyn := h.calls thread
  rw [hpc] at hdyn
  have hne : s.entries (left - 1) ≠ 0 := he ▸ hdyn.2
  exact h.answer fun _ => .inr ⟨hdyn, left - 1, he ▸ h.entry _ hne, he, rfl⟩

theorem step (h : SerialOpsInv s) {a : SerialAct} (hg : internedOnce s a)
    (hs : s.step a = some s') : SerialOpsInv s' := by
  cases serial_step_cases hs with
  | predef hpc hr => exact h.answer fun _ => .inl ⟨hr, rfl⟩
  | zero hpc hb => exact h.answer fun hne => absurd rfl hne
  | enter hpc hdyn => exact h.move hdyn
  | @count thread bits hpc | @miss thread left bits hpc =>
      have hdyn := h.calls thread
      rw [hpc] at hdyn
      exact h.move (TointPc.ok_scanFrom hdyn)
  | hit hpc he => exact h.found hpc he
  | @claim thread bits hpc =>
      have hdyn := h.calls thread
      simp only [internedOnce] at hg
      rw [hpc] at hdyn hg
      exact h.claim hdyn hg.1 hg.2
  | clamp hpc => exact h.clamp hpc
  | publish hpc => exact h.published hpc

theorem run (acts : List SerialAct) (hm : Meets SerialOps.step internedOnce .init acts)
    (he : exec SerialOps.step .init acts = some s) : SerialOpsInv s :=
  exec_invariant (fun _ _ _ h hg hs => h.step hg hs) .init hm he

end SerialOpsInv

/-! ## What a thread relies on -/

structure SerialPerThread (s : SerialOps) : Prop where
  /-- A thread has one integer for a handle, if it has any. -/
  same : ∀ r r', r ∈ s.results → r' ∈ s.results → r.thread = r'.thread → r.bits = r'.bits →
    r.value ≠ 0 → r'.value ≠ 0 → r.value = r'.value
  roundtrip : ∀ r, r ∈ s.results → r.value ≠ 0 → s.fromint r.value = some (some r.bits)

namespace SerialOpsInv

variable {s : SerialOps}

theorem same (h : SerialOpsInv s) {r r' : TointResult} (hm : r ∈ s.results)
    (hm' : r' ∈ s.results) (hbits : r.bits = r'.bits) (hne : r.value ≠ 0)
    (hne' : r'.value ≠ 0) : r.value = r'.value := by
  rcases h.results r hm hne with ⟨hr, hv⟩ | ⟨hdyn, slot, hs, -, hv⟩
  · rcases h.results r' hm' hne' with ⟨-, hv'⟩ | ⟨hdyn', -⟩
    · rw [hv, hv', hbits]
    · exact absurd (hbits ▸ hr) hdyn'.1
  · rcases h.results r' hm' hne' with ⟨hr', -⟩ | ⟨-, slot', hs', -, hv'⟩
    · exact absurd (hbits ▸ hr') hdyn.1
    · -- One handle, so one index.
      obtain ⟨hlt, -⟩ := List.getElem?_eq_some_iff.mp hs
      have he : s.claimed[slot]? = s.claimed[slot']? := by rw [hs, hs', hbits]
      rw [hv, hv', (List.getElem?_inj hlt h.nodup).mp he]

theorem roundtrip (h : SerialOpsInv s) {r : TointResult} (hm : r ∈ s.results)
    (hne : r.value ≠ 0) : s.fromint r.value = some (some r.bits) := by
  rcases h.results r hm hne with ⟨hr, hv⟩ | ⟨hdyn, slot, hs, he, hv⟩
  · have hpos : 0 ≤ Int32.ofNat r.bits.toNat := by
      rw [Int32.le_iff_toInt_le, predefValue_toInt hr, Int32.toInt_zero]
      omega
    rw [hv, SerialOps.fromint, predefValue_back hr, if_pos ⟨hpos, hr⟩]
  · have hlt := h.slot_lt hs
    rw [hv, SerialOps.fromint, if_neg (serialCode_not_predef hlt), SerialOps.dynamicFromint,
      slotOf_codeOf serialRange hlt]
    show some (if s.entries slot = 0 then none else some (s.entries slot)) = some (some r.bits)
    rw [he, if_neg hdyn.2]

end SerialOpsInv

/-- Serialization under every interleaving in which no handle is claimed
twice. -/
theorem serial_per_thread (acts : List SerialAct) (s : SerialOps)
    (hm : Meets SerialOps.step internedOnce .init acts)
    (he : exec SerialOps.step .init acts = some s) : SerialPerThread s where
  same _ _ hm₁ hm₂ _ hbits hne hne' := (SerialOpsInv.run acts hm he).same hm₁ hm₂ hbits hne hne'
  roundtrip _ hm₁ hne := (SerialOpsInv.run acts hm he).roundtrip hm₁ hne

/-- Two threads, of which the second calls after the first has published; then
the first again. -/
def oneAfterTheOther : List SerialAct :=
  [.toint 0 0x5000, .tick 0, .tick 0, .tick 0, .toint 1 0x5000, .tick 1, .tick 1,
   .toint 0 0x5000, .tick 0, .tick 0]

theorem serial_one_after_the_other : ∃ s,
    exec SerialOps.step .init oneAfterTheOther = some s ∧
      s.results.map TointResult.value = [0x40000000, 0x40000000, 0x40000000] ∧
      SerialPerThread s :=
  ⟨_, rfl, by decide, serial_per_thread oneAfterTheOther _ (by decide) rfl⟩

/-- Both have scanned before either fetches; the first is answered with the
older entry and then finds the newer one. -/
def bothAtOnce : List SerialAct :=
  [.toint 0 0x5000, .toint 1 0x5000, .tick 0, .tick 1, .tick 0, .tick 1, .tick 0, .tick 1,
   .toint 0 0x5000, .tick 0, .tick 0]

theorem serial_two_at_once :
    ¬ ∀ (acts : List SerialAct) (s : SerialOps),
      exec SerialOps.step .init acts = some s → SerialPerThread s := by
  intro h
  have hbad := (h bothAtOnce _ rfl).same ⟨0, 0x5000, 0x40000000⟩ ⟨0, 0x5000, 0x40000001⟩
    (by decide) (by decide) rfl rfl (by decide) (by decide)
  exact absurd hbad (by decide)

end AbiWrapper.Ref
