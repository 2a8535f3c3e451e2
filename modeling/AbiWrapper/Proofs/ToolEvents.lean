import AbiWrapper.Ref.ToolEvents

/-!
# One entry for a registration handle

That an entry is in use for a handle lasts until the handle gives it back, and
then a new life of the handle begins. So what a call has seen of an entry still
holds when it ends, if its handle's life has not ended meanwhile, and two calls
of one life have come to the same entry as long as no two entries in use were
claimed for one handle.

The compare-exchange does not see to that: it is on the entry, and two calls
that both found none exchange two. Nor is a key that matches the key of an
entry's claim before the claim has stored it. A run is asked for both.
-/

namespace AbiWrapper.Ref

open AbiWrapper.Lib

namespace EventMap

/-- The entry was claimed for the handle and not given back since. -/
def InUse (s : EventMap) (slot : Nat) (key : UInt64) : Prop :=
  s.claimed slot = some key ∧ (s.events slot).used = true

/-- What a step leaves standing. -/
structure Keeps (s s' : EventMap) : Prop where
  lives : ∀ key, s.lives key ≤ s'.lives key
  claimed : ∀ slot, s.claimed slot ≠ none → s'.claimed slot ≠ none
  inUse : ∀ slot key, s'.lives key = s.lives key → s.InUse slot key → s'.InUse slot key
  /-- An entry that is claimed for a handle is in use while the handle lives. -/
  loaded : ∀ slot key, s'.lives key = s.lives key →
    (s.claimed slot = some key → (s.events slot).used = true) →
    s'.claimed slot = some key → (s'.events slot).used = true

end EventMap

/-- What is known of a call by its place, with the life it began in. -/
def EventPc.ok (s : EventMap) (i began : Nat) : EventPc → Prop
  | .idle | .release _ _ => True
  | .loadUsed _ key _ => began ≤ s.lives key
  | .loadKey _ key slot => began ≤ s.lives key ∧ s.claimed slot ≠ none ∧
      (s.lives key = began → s.claimed slot = some key → (s.events slot).used = true)
  | .cas key slot => began ≤ s.lives key ∧ slot < eventSlots
  | .storeKey key slot => began ≤ s.lives key ∧ s.InUse slot key ∧ s.writer slot = some i
  | .clear key slot _ => began ≤ s.lives key ∧ (s.lives key = began → s.InUse slot key)

/-- The call was made in this life of its handle. -/
def EventInterned.within (r : EventInterned) (life : Nat) : Prop :=
  r.began = life ∧ r.ended = life

def EventInterned.ok (s : EventMap) (r : EventInterned) : Prop :=
  r.ended ≤ s.lives r.key ∧ (r.within (s.lives r.key) → s.InUse r.slot r.key)

structure EventInv (s : EventMap) : Prop where
  range : ∀ slot, (s.events slot).used = true → slot < eventSlots ∧ s.claimed slot ≠ none
  alone : ∀ slot slot' key, s.InUse slot key → s.InUse slot' key → slot = slot'
  keyed : ∀ slot key, s.claimed slot = some key → s.writer slot = none →
    (s.events slot).key = key
  calls : ∀ i, (s.pc i).ok s i (s.began i)
  interned : ∀ r, r ∈ s.interned → r.ok s
  same : ∀ r r', r ∈ s.interned → r' ∈ s.interned → r.key = r'.key →
    ∀ life, r.within life → r'.within life → r.slot = r'.slot
  found : ∀ f, f ∈ s.found → f.claimed = some f.key

section Keeps

variable {s s' : EventMap} {i began slot : Nat} {key : UInt64} {pc : EventPc}

theorem EventPc.ok_keeps (h : pc.ok s i began) (hk : s.Keeps s')
    (hw : ∀ slot key, s.writer slot = some i → s.InUse slot key →
      s'.writer slot = some i ∧ s'.InUse slot key) : pc.ok s' i began := by
  cases pc with
  | idle => trivial
  | release key slot => trivial
  | loadUsed lookup key slot => exact Nat.le_trans h (hk.lives key)
  | loadKey lookup key slot =>
      obtain ⟨hle, hne, hload⟩ := h
      have hlives := hk.lives key
      refine ⟨by omega, hk.claimed slot hne, fun hl => ?_⟩
      exact hk.loaded slot key (by omega) (hload (by omega))
  | cas key slot => exact ⟨Nat.le_trans h.1 (hk.lives key), h.2⟩
  | storeKey key slot =>
      obtain ⟨hle, huse, hwr⟩ := h
      have hlives := hk.lives key
      obtain ⟨hwr', huse'⟩ := hw slot key hwr huse
      exact ⟨by omega, huse', hwr'⟩
  | clear key slot rest =>
      obtain ⟨hle, huse⟩ := h
      have hlives := hk.lives key
      exact ⟨by omega, fun hl => hk.inUse slot key (by omega) (huse (by omega))⟩

theorem EventInterned.ok_keeps {r : EventInterned} (h : r.ok s) (hk : s.Keeps s') : r.ok s' := by
  have hlives := hk.lives r.key
  have hle := h.1
  refine ⟨by omega, fun hin => ?_⟩
  have hend := hin.2
  have hsame : s'.lives r.key = s.lives r.key := by omega
  exact hk.inUse r.slot r.key hsame (h.2 (hsame ▸ hin))

theorem EventPc.ok_findFrom {lookup : Lookup} (h : began ≤ s.lives key) :
    (EventPc.findFrom lookup key slot).ok s i began := by
  rw [EventPc.findFrom]
  split
  · exact h
  · split
    · exact ⟨h, by decide⟩
    · trivial

theorem EventPc.ok_casFrom (h : began ≤ s.lives key) :
    (EventPc.casFrom key slot).ok s i began := by
  rw [EventPc.casFrom]
  split
  · next hlt => exact ⟨h, hlt⟩
  · exact ok_findFrom h

end Keeps

namespace EventInv

variable {s s' : EventMap} {i slot : Nat} {key : UInt64} {pc : EventPc}

theorem init : EventInv .init where
  range _ h := nomatch h
  alone _ _ _ h := nomatch h.1
  keyed _ _ h := nomatch h
  calls _ := trivial
  interned _ h := nomatch h
  same _ _ h := nomatch h
  found _ h := nomatch h

/-- A call moves on without a store. -/
theorem move (h : EventInv s) (hpc : pc.ok s i (s.began i)) : EventInv (s.setPc i pc) :=
  ⟨h.range, h.alone, h.keyed,
    forall_update_at (P := fun j (pc : EventPc) => pc.ok s j (s.began j)) hpc fun j _ => h.calls j,
    h.interned, h.same, h.found⟩

/-- `intern` returns what it has come to. -/
theorem answer (h : EventInv s)
    (huse : s.lives key = s.began i → s.InUse slot key) : EventInv (s.answer i key slot) := by
  have hok : EventInterned.ok s ⟨key, slot, s.began i, s.lives key⟩ :=
    ⟨Nat.le_refl _, fun hin => huse hin.1.symm⟩
  -- Of an earlier answer in the same life the entry is in use as well.
  have hsame : ∀ r, r ∈ s.interned → r.key = key → ∀ life, r.within life →
      EventInterned.within ⟨key, slot, s.began i, s.lives key⟩ life → r.slot = slot := by
    intro r hm hkey life hin hin'
    have hlife : life = s.lives r.key := by rw [hkey]; exact hin'.2.symm
    have hold := (h.interned r hm).2 (hlife ▸ hin)
    rw [hkey] at hold
    exact h.alone _ _ key hold (huse (hin'.2.trans hin'.1.symm))
  have hidle : EventInv (s.setPc i .idle) := h.move trivial
  constructor
  · exact h.range
  · exact h.alone
  · exact h.keyed
  · exact hidle.calls
  · intro r hm
    rcases List.mem_append.mp hm with hm | hm
    · exact h.interned r hm
    · rw [List.mem_singleton.mp hm]
      exact hok
  · intro r r' hm hm' hkey life hin hin'
    rcases List.mem_append.mp hm with hm | hm <;> rcases List.mem_append.mp hm' with hm' | hm'
    · exact h.same r r' hm hm' hkey life hin hin'
    · obtain rfl := List.mem_singleton.mp hm'
      exact hsame r hm hkey life hin hin'
    · obtain rfl := List.mem_singleton.mp hm
      exact (hsame r' hm' hkey.symm life hin' hin).symm
    · rw [List.mem_singleton.mp hm, List.mem_singleton.mp hm']
  · exact h.found

/-- A lookup has come to an entry that was claimed for its handle. -/
theorem meet (h : EventInv s) {lookup : Lookup} (hc : s.claimed slot = some key)
    (huse : s.lives key = s.began i → (s.events slot).used = true) :
    EventInv (s.meet i lookup key slot) := by
  have hfound : ∀ f, f ∈ s.found ++ [⟨key, slot, s.claimed slot⟩] → f.claimed = some f.key := by
    intro f hm
    rcases List.mem_append.mp hm with hm | hm
    · exact h.found f hm
    · rw [List.mem_singleton.mp hm]
      exact hc
  have hanswer := h.answer fun hl => ⟨hc, huse hl⟩
  cases lookup with
  | intern | internAgain =>
      exact ⟨hanswer.range, hanswer.alone, hanswer.keyed, hanswer.calls, hanswer.interned,
        hanswer.same, hfound⟩
  | find =>
      have hmove : EventInv (s.setPc i .idle) := h.move trivial
      exact ⟨hmove.range, hmove.alone, hmove.keyed, hmove.calls, hmove.interned, hmove.same,
        hfound⟩
  | free =>
      have hmove : EventInv (s.setPc i (.release key slot)) := h.move trivial
      exact ⟨hmove.range, hmove.alone, hmove.keyed, hmove.calls, hmove.interned, hmove.same,
        hfound⟩

theorem loadKey (h : EventInv s) {lookup : Lookup} (hpc : s.pc i = .loadKey lookup key slot)
    (hg : (s.events slot).key = key → s.writer slot = none) :
    EventInv (if (s.events slot).key = key then s.meet i lookup key slot
      else s.setPc i (.findFrom lookup key (slot + 1))) := by
  have hknown := h.calls i
  rw [hpc] at hknown
  obtain ⟨hle, hne, huse⟩ := hknown
  split
  · next hkey =>
      obtain ⟨owner, howner⟩ := Option.ne_none_iff_exists'.mp hne
      have hc : s.claimed slot = some key := by
        rw [howner, ← h.keyed slot owner howner (hg hkey), hkey]
      exact h.meet hc fun hl => huse hl hc
  · exact h.move (EventPc.ok_findFrom hle)

/-- A step that changes the table and keeps what is known. -/
theorem table (h : EventInv s) (hk : s.Keeps s') (hi : s'.interned = s.interned)
    (hf : s'.found = s.found)
    (hrange : ∀ slot, (s'.events slot).used = true → slot < eventSlots ∧ s'.claimed slot ≠ none)
    (halone : ∀ slot slot' key, s'.InUse slot key → s'.InUse slot' key → slot = slot')
    (hkeyed : ∀ slot key, s'.claimed slot = some key → s'.writer slot = none →
      (s'.events slot).key = key)
    (hcalls : ∀ i, (s'.pc i).ok s' i (s'.began i)) : EventInv s' where
  range := hrange
  alone := halone
  keyed := hkeyed
  calls := hcalls
  interned r hm := EventInterned.ok_keeps (h.interned r (hi ▸ hm)) hk
  same r r' hm hm' := h.same r r' (hi ▸ hm) (hi ▸ hm')
  found f hm := h.found f (hf ▸ hm)

section Claim

variable {k : Nat} {key' : UInt64}

theorem claim_self : (s.claim i key slot).InUse slot key := by
  simp [EventMap.InUse, EventMap.claim, EventMap.setPc, EventMap.setEntry]

theorem claim_of_ne (hk : k ≠ slot) : (s.claim i key slot).claimed k = s.claimed k ∧
    (s.claim i key slot).events k = s.events k ∧ (s.claim i key slot).writer k = s.writer k :=
  ⟨Function.update_of_ne hk _ _, Function.update_of_ne hk _ _, Function.update_of_ne hk _ _⟩

theorem ne_of_inUse (hfree : (s.events slot).used = false) (hu : s.InUse k key') : k ≠ slot := by
  intro he
  rw [he] at hu
  exact absurd (hu.2.symm.trans hfree) (by decide)

/-- What is in use stays so, and nothing else comes into use but the entry. -/
theorem inUse_claim (hk : k ≠ slot) : (s.claim i key slot).InUse k key' ↔ s.InUse k key' := by
  obtain ⟨hc, he, -⟩ := claim_of_ne (s := s) (i := i) hk
  rw [EventMap.InUse, EventMap.InUse, hc, he]

theorem keeps_claim (hfree : (s.events slot).used = false) : s.Keeps (s.claim i key slot) := by
  constructor
  · exact fun k => Nat.le_refl _
  · intro k hne
    by_cases hk : k = slot
    · rw [hk, claim_self.1]
      exact nofun
    · rw [(claim_of_ne hk).1]
      exact hne
  · intro k k' _ hu
    exact (inUse_claim (ne_of_inUse hfree hu)).mpr hu
  · intro k k' _ hload hc
    by_cases hk : k = slot
    · rw [hk]
      exact claim_self.2
    · rw [(claim_of_ne hk).1] at hc
      rw [(claim_of_ne hk).2.1]
      exact hload hc

end Claim

/-- The compare-exchange that finds 0. -/
theorem claim (h : EventInv s) (hpc : s.pc i = .cas key slot)
    (hfree : (s.events slot).used = false)
    (hg : ∀ k, k < eventSlots → (s.events k).used = true → s.claimed k ≠ some key) :
    EventInv (s.claim i key slot) := by
  have hknown := h.calls i
  rw [hpc] at hknown
  obtain ⟨hle, hlt⟩ := hknown
  have hclaimed : (s.claim i key slot).claimed slot = some key := claim_self.1
  refine h.table (keeps_claim hfree) rfl rfl ?_ ?_ ?_ ?_
  · intro k hu
    by_cases hk : k = slot
    · rw [hk, hclaimed]
      exact ⟨hlt, nofun⟩
    · rw [(claim_of_ne hk).2.1] at hu
      rw [(claim_of_ne hk).1]
      exact h.range k hu
  · -- No entry in use was claimed for the handle.
    have hno : ∀ k, k ≠ slot → ¬ (s.claim i key slot).InUse k key := by
      intro k hk hu
      have hold := (inUse_claim hk).mp hu
      exact hg k (h.range k hold.2).1 hold.2 hold.1
    intro k k' key' hu hu'
    by_cases hk : k = slot <;> by_cases hk' : k' = slot
    · rw [hk, hk']
    · subst hk
      obtain rfl := Option.some.inj (hclaimed.symm.trans hu.1)
      exact absurd hu' (hno k' hk')
    · subst hk'
      obtain rfl := Option.some.inj (hclaimed.symm.trans hu'.1)
      exact absurd hu (hno k hk)
    · exact h.alone k k' key' ((inUse_claim hk).mp hu) ((inUse_claim hk').mp hu')
  · intro k key' hc hw
    by_cases hk : k = slot
    · rw [hk] at hw
      have hwriter : (s.claim i key slot).writer slot = some i := Function.update_self _ _ _
      rw [hwriter] at hw
      exact nomatch hw
    · rw [(claim_of_ne hk).1] at hc
      rw [(claim_of_ne hk).2.2] at hw
      rw [(claim_of_ne hk).2.1]
      exact h.keyed k key' hc hw
  · refine forall_update_at (P := fun j (pc : EventPc) => pc.ok _ j (s.began j)) ?_ fun j _ => ?_
    · exact ⟨hle, claim_self, Function.update_self _ _ _⟩
    · refine EventPc.ok_keeps (h.calls j) (keeps_claim hfree) fun k k' hw hu => ?_
      have hk := ne_of_inUse hfree hu
      exact ⟨(claim_of_ne hk).2.2.trans hw, (inUse_claim hk).mpr hu⟩

theorem storeKey (h : EventInv s) (hpc : s.pc i = .storeKey key slot) :
    EventInv (s.storeKey i key slot) := by
  have hknown := h.calls i
  rw [hpc] at hknown
  obtain ⟨hle, huse, hwriter⟩ := hknown
  have hused : ∀ k, ((s.storeKey i key slot).events k).used = (s.events k).used := by
    intro k
    by_cases hk : k = slot
    · subst hk
      simp [EventMap.storeKey, EventMap.setPc, EventMap.setEntry]
    · exact congrArg EventEntry.used (Function.update_of_ne hk _ _)
  have hsame : ∀ k k', (s.storeKey i key slot).InUse k k' ↔ s.InUse k k' := by
    intro k k'
    rw [EventMap.InUse, hused]
    exact Iff.rfl
  have hother : ∀ k, k ≠ slot → (s.storeKey i key slot).events k = s.events k ∧
      (s.storeKey i key slot).writer k = s.writer k := fun k hk =>
    ⟨Function.update_of_ne hk _ _, Function.update_of_ne hk _ _⟩
  have hkeeps : s.Keeps (s.storeKey i key slot) :=
    ⟨fun k => Nat.le_refl _, fun k hne => hne, fun k k' _ hu => (hsame k k').mpr hu,
      fun k k' _ hload hc => (hused k).trans (hload hc)⟩
  refine h.table hkeeps rfl rfl ?_ ?_ ?_ ?_
  · intro k hu
    rw [hused] at hu
    exact h.range k hu
  · exact fun k k' key' hu hu' => h.alone k k' key' ((hsame k key').mp hu) ((hsame k' key').mp hu')
  · intro k key' hc hw
    by_cases hk : k = slot
    · subst hk
      obtain rfl := Option.some.inj (huse.1.symm.trans hc)
      simp [EventMap.storeKey, EventMap.setPc, EventMap.setEntry]
    · rw [(hother k hk).2] at hw
      rw [(hother k hk).1]
      exact h.keyed k key' hc hw
  · refine forall_update_at (P := fun j (pc : EventPc) => pc.ok _ j (s.began j)) ?_ fun j hj => ?_
    · exact ⟨hle, fun _ => (hsame slot key).mpr huse⟩
    · refine EventPc.ok_keeps (h.calls j) hkeeps fun k k' hw hu => ⟨?_, (hsame k k').mpr hu⟩
      have hk : k ≠ slot := by
        intro he
        rw [he, hwriter] at hw
        exact hj (Option.some.inj hw).symm
      exact (hother k hk).2.trans hw

theorem storeField (h : EventInv s) (field : EventField) (value : UInt64) :
    EventInv (s.storeField slot field value) := by
  have hentry : ∀ k, ((s.storeField slot field value).events k).used = (s.events k).used ∧
      ((s.storeField slot field value).events k).key = (s.events k).key := by
    intro k
    by_cases hk : k = slot
    · subst hk
      simp [EventMap.storeField, EventMap.setEntry]
    · have he : (s.storeField slot field value).events k = s.events k :=
        Function.update_of_ne hk _ _
      rw [he]
      exact ⟨rfl, rfl⟩
  have hsame : ∀ k k', (s.storeField slot field value).InUse k k' ↔ s.InUse k k' := by
    intro k k'
    rw [EventMap.InUse, (hentry k).1]
    exact Iff.rfl
  have hkeeps : s.Keeps (s.storeField slot field value) :=
    ⟨fun k => Nat.le_refl _, fun k hne => hne, fun k k' _ hu => (hsame k k').mpr hu,
      fun k k' _ hload hc => (hentry k).1.trans (hload hc)⟩
  refine h.table hkeeps rfl rfl ?_ ?_ ?_ ?_
  · intro k hu
    rw [(hentry k).1] at hu
    exact h.range k hu
  · exact fun k k' key' hu hu' => h.alone k k' key' ((hsame k key').mp hu) ((hsame k' key').mp hu')
  · exact fun k key' hc hw => (hentry k).2.trans (h.keyed k key' hc hw)
  · exact fun j => EventPc.ok_keeps (h.calls j) hkeeps fun k k' hw hu => ⟨hw, (hsame k k').mpr hu⟩

section Release

theorem release_of_ne {k : Nat} (hk : k ≠ slot) :
    (s.release i key slot).events k = s.events k := Function.update_of_ne hk _ _

theorem release_self :
    (s.release i key slot).events slot = { s.events slot with used := false } := by
  simp [EventMap.release, EventMap.setPc, EventMap.setEntry]

theorem release_used {k : Nat} (hu : ((s.release i key slot).events k).used = true) :
    (s.events k).used = true := by
  by_cases hk : k = slot
  · rw [hk, release_self] at hu
    exact nomatch hu
  · rwa [release_of_ne hk] at hu

theorem keeps_release (hclaimed : s.claimed slot = some key) :
    s.Keeps (s.release i key slot) := by
  have hmore : (s.release i key slot).lives key = s.lives key + 1 := Function.update_self _ _ _
  -- A handle whose life goes on is another one, and so are its entries.
  have hne : ∀ k k', (s.release i key slot).lives k' = s.lives k' → s.claimed k = some k' →
      k ≠ slot := by
    intro k k' hl hc he
    rw [he, hclaimed] at hc
    obtain rfl := Option.some.inj hc
    omega
  constructor
  · intro k
    by_cases hk : k = key
    · rw [hk, hmore]
      omega
    · exact Nat.le_of_eq (Function.update_of_ne hk _ _).symm
  · exact fun k hn => hn
  · intro k k' hl hu
    refine ⟨hu.1, ?_⟩
    rw [release_of_ne (hne k k' hl hu.1)]
    exact hu.2
  · intro k k' hl hload hc
    rw [release_of_ne (hne k k' hl hc)]
    exact hload hc

end Release

/-- The store of 0 to `used`, which ends a life of the handle. -/
theorem release (h : EventInv s) (hclaimed : s.claimed slot = some key)
    (hwriter : s.writer slot = none) : EventInv (s.release i key slot) := by
  have hkey : ∀ k, ((s.release i key slot).events k).key = (s.events k).key := by
    intro k
    by_cases hk : k = slot
    · rw [hk, release_self]
    · rw [release_of_ne hk]
  refine h.table (keeps_release hclaimed) rfl rfl ?_ ?_ ?_ ?_
  · exact fun k hu => h.range k (release_used hu)
  · exact fun k k' key' hu hu' =>
      h.alone k k' key' ⟨hu.1, release_used hu.2⟩ ⟨hu'.1, release_used hu'.2⟩
  · exact fun k key' hc hw => (hkey k).trans (h.keyed k key' hc hw)
  · refine forall_update_at (P := fun j (pc : EventPc) => pc.ok _ j (s.began j)) trivial
      fun j _ => ?_
    refine EventPc.ok_keeps (h.calls j) (keeps_release hclaimed) fun k k' hw hu =>
      ⟨hw, hu.1, ?_⟩
    rw [release_of_ne]
    · exact hu.2
    · intro he
      rw [he, hwriter] at hw
      exact nomatch hw

/-- A lookup is begun. -/
theorem call (h : EventInv s) {lookup : Lookup} :
    EventInv { s.setPc i (.findFrom lookup key 0) with
      began := Function.update s.began i (s.lives key) } := by
  refine ⟨h.range, h.alone, h.keyed, ?_, h.interned, h.same, h.found⟩
  intro j
  by_cases hj : j = i
  · subst hj
    simp only [EventMap.setPc, Function.update_self]
    exact EventPc.ok_findFrom (Nat.le_refl _)
  · simp only [EventMap.setPc, Function.update_of_ne hj]
    exact h.calls j

theorem step (h : EventInv s) {a : EventAct} (hg : oneClaim s a) (hs : s.step a = some s') :
    EventInv s' := by
  cases a with
  | call i lookup key =>
      simp only [EventMap.step] at hs
      split at hs
      · obtain rfl := Option.some.inj hs
        exact h.call
      · exact nomatch hs
  | set slot field value =>
      obtain rfl := Option.some.inj hs
      exact h.storeField field value
  | tick i =>
      have hknown := h.calls i
      simp only [EventMap.step] at hs
      simp only [oneClaim] at hg
      split at hs
      · exact nomatch hs
      · next lookup key slot hpc =>
          obtain rfl := Option.some.inj hs
          rw [hpc] at hknown
          refine h.move ?_
          split
          · next hu => exact ⟨hknown, (h.range slot hu).2, fun _ _ => hu⟩
          · exact EventPc.ok_findFrom hknown
      · next lookup key slot hpc =>
          obtain rfl := Option.some.inj hs
          rw [hpc] at hg
          exact h.loadKey hpc hg
      · next key slot hpc =>
          obtain rfl := Option.some.inj hs
          rw [hpc] at hg hknown
          split
          · exact h.move (EventPc.ok_casFrom hknown.1)
          · next hu =>
              have hfree : (s.events slot).used = false := by simpa using hu
              exact h.claim hpc hfree (hg hfree)
      · next key slot hpc =>
          obtain rfl := Option.some.inj hs
          exact h.storeKey hpc
      · next key slot hpc =>
          obtain rfl := Option.some.inj hs
          rw [hpc] at hknown
          exact h.answer hknown.2
      · next key slot field rest hpc =>
          obtain rfl := Option.some.inj hs
          have hstored : EventInv (s.storeField slot field 0) := h.storeField field 0
          have hafter := hstored.calls i
          rw [EventMap.storeField, EventMap.setEntry, hpc] at hafter
          exact hstored.move hafter
      · next key slot hpc =>
          obtain rfl := Option.some.inj hs
          rw [hpc] at hg
          exact h.release hg.1 hg.2

theorem run (acts : List EventAct) (hm : Meets EventMap.step oneClaim .init acts)
    (he : exec EventMap.step .init acts = some s) : EventInv s :=
  exec_invariant (fun _ _ _ h hg hs => h.step hg hs) .init hm he

end EventInv

/-! ## What the callers rely on -/

structure OneEntryPerKey (s : EventMap) : Prop where
  /-- The calls made in one life of a handle return one entry. -/
  same : ∀ r r', r ∈ s.interned → r' ∈ s.interned → r.key = r'.key →
    ∀ life, r.within life → r'.within life → r.slot = r'.slot
  /-- Two handles alive have two entries. -/
  distinct : ∀ r r', r ∈ s.interned → r' ∈ s.interned → r.within (s.lives r.key) →
    r'.within (s.lives r'.key) → r.key ≠ r'.key → r.slot ≠ r'.slot
  /-- The entry found under a handle was claimed for it. -/
  found : ∀ f, f ∈ s.found → f.claimed = some f.key

/-- The map under every interleaving that keeps to `oneClaim`. -/
theorem event_map_one_entry (acts : List EventAct) (s : EventMap)
    (hm : Meets EventMap.step oneClaim .init acts)
    (he : exec EventMap.step .init acts = some s) : OneEntryPerKey s := by
  have h := EventInv.run acts hm he
  refine ⟨h.same, fun r r' hr hr' hin hin' hne hslot => ?_, h.found⟩
  have hu := (h.interned r hr).2 hin
  have hu' := (h.interned r' hr').2 hin'
  rw [hslot] at hu
  exact hne (Option.some.inj (hu.1.symm.trans hu'.1))

/-- So many accesses of a call, with nothing in between. -/
def eventTicks (i n : Nat) : List EventAct := List.replicate n (.tick i)

/-- A handle is interned, found by a second call, and freed while a second
handle is interned; a new life of it gets an entry again. -/
def twoLives : List EventAct :=
  [.call 0 .intern 0x5000] ++ eventTicks 0 78 ++ [.call 1 .intern 0x5000] ++ eventTicks 1 2 ++
    [.call 1 .intern 0x6000] ++ eventTicks 1 40 ++ [.call 0 .free 0x5000] ++ eventTicks 0 3 ++
    eventTicks 1 39 ++ [.call 0 .intern 0x5000] ++ eventTicks 0 80

theorem event_map_two_lives : ∃ s, exec EventMap.step .init twoLives = some s ∧
    s.interned = [⟨0x5000, 0, 0, 0⟩, ⟨0x5000, 0, 0, 0⟩, ⟨0x6000, 0, 0, 0⟩, ⟨0x5000, 1, 1, 1⟩] ∧
    OneEntryPerKey s := by
  obtain ⟨s, hs, hi⟩ : ∃ s, exec EventMap.step .init twoLives = some s ∧
      s.interned = [⟨0x5000, 0, 0, 0⟩, ⟨0x5000, 0, 0, 0⟩, ⟨0x6000, 0, 0, 0⟩, ⟨0x5000, 1, 1, 1⟩] :=
    Option.map_eq_some_iff.mp (by decide +kernel :
      (exec EventMap.step .init twoLives).map EventMap.interned =
        some [⟨0x5000, 0, 0, 0⟩, ⟨0x5000, 0, 0, 0⟩, ⟨0x6000, 0, 0, 0⟩, ⟨0x5000, 1, 1, 1⟩])
  exact ⟨s, hs, hi, event_map_one_entry twoLives s (by decide +kernel) hs⟩

/-- Two calls have found no entry before either claims one. -/
def bothMiss : List EventAct :=
  [.call 0 .intern 0x5000, .call 1 .intern 0x5000] ++ eventTicks 0 64 ++ eventTicks 1 64 ++
    eventTicks 0 14 ++ eventTicks 1 15

theorem event_map_two_entries :
    ¬ ∀ (acts : List EventAct) (s : EventMap),
      exec EventMap.step .init acts = some s → OneEntryPerKey s := by
  intro h
  obtain ⟨s, hs, hi⟩ : ∃ s, exec EventMap.step .init bothMiss = some s ∧
      s.interned = [⟨0x5000, 0, 0, 0⟩, ⟨0x5000, 1, 0, 0⟩] :=
    Option.map_eq_some_iff.mp (by decide +kernel :
      (exec EventMap.step .init bothMiss).map EventMap.interned =
        some [⟨0x5000, 0, 0, 0⟩, ⟨0x5000, 1, 0, 0⟩])
  have hbad := (h bothMiss s hs).same ⟨0x5000, 0, 0, 0⟩ ⟨0x5000, 1, 0, 0⟩
    (by simp [hi]) (by simp [hi]) rfl 0 ⟨rfl, rfl⟩ ⟨rfl, rfl⟩
  exact absurd hbad (by decide)

/-- A handle that has been freed and given out again is looked up between the
compare-exchange and the store of the key of another that takes its old
entry. -/
example : (exec EventMap.step .init
    ([.call 0 .intern 0x5000] ++ eventTicks 0 78 ++ [.call 0 .free 0x5000] ++ eventTicks 0 3 ++
      [.call 1 .intern 0x6000] ++ eventTicks 1 65 ++ [.call 2 .find 0x5000] ++ eventTicks 2 2)).map
      EventMap.found = some [⟨0x5000, 0, some 0x5000⟩, ⟨0x5000, 0, some 0x6000⟩] := by
  decide +kernel

end AbiWrapper.Ref
