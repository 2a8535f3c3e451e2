import AbiWrapper.Lib.Run
import AbiWrapper.Ref.Bootstrap
import AbiWrapper.Proofs.Conversion
import AbiWrapper.Proofs.Vtable

/-!
# What a handshake that has passed is good for

No forwarder checks anything, so all of it has to be true from the moment its
constructor has returned: that the table has a function at the offset the
forwarder was compiled with, that it is the function of the slot it means, declared
with the same types, that the reverse maps are there, and that the wrapper's own
calls have not been seen to come back. The first three are a matter of what the
halves were made of (`compatible_reaches`): where they passed the checks and hash
one text, the offsets are those of the same slots. The text may be two texts, where
the hash is what cannot tell, and then they are far apart.

The maps are filled once in a process, by whoever comes first. A constructor that
finds the flag set relies on the one before it (`ProcessInv.built`). What a decoy has
noted stays noted until its own constructor looks, and then the process ends
(`ProcessInv.captured`).
-/

namespace AbiWrapper.Ref

open AbiWrapper.Lib

variable {alnum : Char → Bool} {a : AbiBuild alnum} {w : WrapperBuild alnum}

/-! ## Two halves -/

/-- What `mpiwrapper_get_vtable` has seen to. -/
structure Compatible (a : AbiBuild alnum) (w : WrapperBuild alnum) : Prop where
  version : a.version = w.version
  subversion : a.subversion = w.subversion
  hash : a.hash = w.hash
  size : a.vtableSize = w.vtableSize

/-- `dladdr` has not found both calls in one object. -/
def Outward (halves : Halves alnum) (i w : Nat) : Prop :=
  ∀ base, halves.abiBase i = some base → halves.implBase w ≠ some base

/-- What a wrapper has seen to before it hands out its table. -/
structure Accepted (halves : Halves alnum) (i w : Nat) : Prop where
  compatible : Compatible (halves.abi i) (halves.wrapper w)
  outward : Outward halves i w

/-- Why a wrapper rejects a libmpi_abi, and what it says then. -/
inductive Rejection (halves : Halves alnum) (i w : Nat) : String → Prop
  | version : (halves.abi i).version ≠ (halves.wrapper w).version →
      Rejection halves i w "MPI ABI major version mismatch between libmpi_abi and libmpiwrapper"
  | subversion : (halves.abi i).subversion ≠ (halves.wrapper w).subversion →
      Rejection halves i w "MPI ABI subversion mismatch between libmpi_abi and libmpiwrapper"
  | hash : (halves.abi i).hash ≠ (halves.wrapper w).hash →
      Rejection halves i w ("vtable layout mismatch: libmpi_abi and libmpiwrapper were " ++
        "generated from different slot lists")
  | size : (halves.abi i).hash = (halves.wrapper w).hash →
      (halves.abi i).vtableSize ≠ (halves.wrapper w).vtableSize →
      Rejection halves i w
        ("vtable size mismatch: libmpi_abi and libmpiwrapper agree on the slot " ++
          "list but not on its layout, which means they were built for different " ++
          "targets or with incompatible compiler settings")
  | captured {base : Nat} : halves.abiBase i = some base → halves.implBase w = some base →
      Rejection halves i w capturedDiagnostic
  | maps {diagnostic : String} : initReverseMaps (halves.wrapper w).impl = .error diagnostic →
      Rejection halves i w diagnostic

/-- The generator leaves no slot unfilled. -/
theorem everySlotFilled_none : everySlotFilled w = none := by
  have hany : w.vtable.any Option.isNone = false := by
    rw [WrapperBuild.vtable, w.checked.vtableInstance_eq, List.any_eq_false]
    intro body hbody
    obtain ⟨ep, -, rfl⟩ := List.mem_map.mp hbody
    exact Bool.false_ne_true
  rw [everySlotFilled, hany, if_neg Bool.false_ne_true]

theorem resolutionIsOutward_none {halves : Halves alnum} {i j : Nat} :
    resolutionIsOutward (halves.abiBase i) (halves.implBase j) = none ↔ Outward halves i j := by
  unfold Outward
  cases halves.abiBase i with
  | none => simp [resolutionIsOutward]
  | some base =>
      cases halves.implBase j with
      | none => simp [resolutionIsOutward]
      | some base' => simp [resolutionIsOutward, eq_comm]

theorem getVtableChecks_none {halves : Halves alnum} {i j : Nat}
    (h : getVtableChecks (halves.abi i) (halves.wrapper j) (halves.abiBase i)
      (halves.implBase j) = none) : Accepted halves i j := by
  rw [getVtableChecks, everySlotFilled_none, Option.or_none] at h
  repeat' split at h
  all_goals first
    | cases h
    | exact ⟨⟨Decidable.not_not.mp ‹_›, Decidable.not_not.mp ‹_›, Decidable.not_not.mp ‹_›,
        Decidable.not_not.mp ‹_›⟩, resolutionIsOutward_none.mp h⟩

theorem getVtableChecks_some {halves : Halves alnum} {i j : Nat} {diagnostic : String}
    (h : getVtableChecks (halves.abi i) (halves.wrapper j) (halves.abiBase i)
      (halves.implBase j) = some diagnostic) : Rejection halves i j diagnostic := by
  rw [getVtableChecks, everySlotFilled_none, Option.or_none] at h
  split at h
  · next hne => exact Option.some.inj h ▸ .version hne
  split at h
  · next hne => exact Option.some.inj h ▸ .subversion hne
  split at h
  · next hne => exact Option.some.inj h ▸ .hash hne
  split at h
  · next hhash hne => exact Option.some.inj h ▸ .size (Decidable.not_not.mp hhash) hne
  unfold resolutionIsOutward at h
  split at h
  · next base base' habi himpl =>
      split at h
      · next heq => exact Option.some.inj h ▸ .captured habi (heq ▸ himpl)
      · cases h
  · cases h

/-- Nothing else is asked of a libmpi_abi. -/
theorem getVtableChecks_accepts {halves : Halves alnum} {i j : Nat} (h : Accepted halves i j) :
    getVtableChecks (halves.abi i) (halves.wrapper j) (halves.abiBase i)
      (halves.implBase j) = none := by
  rw [getVtableChecks, if_neg (not_not.mpr h.compatible.version),
    if_neg (not_not.mpr h.compatible.subversion), if_neg (not_not.mpr h.compatible.hash),
    if_neg (not_not.mpr h.compatible.size), resolutionIsOutward_none.mpr h.outward,
    everySlotFilled_none]
  rfl

/-- Two headers of different slots, of which the hash does not tell. -/
def LayoutCollision (H H' : AbiHeader) (alnum : Char → Bool) : Prop :=
  ∃ text text', LayoutText alnum H text ∧ LayoutText alnum H' text' ∧
    fnv1a32 (encode text) = fnv1a32 (encode text') ∧ text ≠ text' ∧ FarApart text text'

/-- A call through the slot has reached the function that fills it, and both halves
declare it with the same types. -/
structure ReachesSlot (a : AbiBuild alnum) (w : WrapperBuild alnum) (slot : Text)
    (body : Option Text) : Prop where
  body : body = some (AbiHeader.bodyPrefix w.handwritten (unshifted slot) ++ slot)
  types : ∃ ep ∈ a.header.slots, ∃ ep' ∈ w.header.slots, ep.name = slot ∧
    slotKey alnum ep = slotKey alnum ep'

theorem compatible_reaches (h : Compatible a w) {slot : Text}
    (hslot : slot ∈ a.header.slots.map AbiEntryPoint.name) :
    LayoutCollision a.header w.header alnum ∨
      ReachesSlot a w slot (w.slotAt (a.slotOffset slot)) := by
  have htext := a.checked.layoutText
  have htext' := w.checked.layoutText
  have hagree := a.checked.layoutsAgree w.checked
  have hlayout : layoutHash alnum a.header = layoutHash alnum w.header := by
    rw [a.emitted, w.emitted, h.hash]
  by_cases hsame : a.header.slots.flatMap (slotText alnum) =
      w.header.slots.flatMap (slotText alnum)
  · refine .inr ?_
    have hkeys := hagree.same.mp hsame
    have hlen : a.header.slots.length = w.header.slots.length := by
      simpa using congrArg List.length hkeys
    have hidx := List.idxOf_lt_length_iff.mpr hslot
    rw [List.length_map] at hidx
    have hsize : a.pointerSize = w.pointerSize := by
      have hs := h.size
      rw [AbiBuild.vtableSize, AbiBuild.vtableSize, hlen] at hs
      exact Nat.eq_of_mul_eq_mul_left (by omega) hs
    have hnames : a.header.slots.map AbiEntryPoint.name =
        w.header.slots.map AbiEntryPoint.name := by
      have hmap := congrArg (List.map SlotKey.name) hkeys
      rw [List.map_map, List.map_map] at hmap
      exact hmap
    generalize hk : (a.header.slots.map AbiEntryPoint.name).idxOf slot = k at hidx
    have hidx' : k < w.header.slots.length := hlen ▸ hidx
    have hname : (a.header.slots.map AbiEntryPoint.name)[k]? = some slot := by
      rw [← hk]
      exact List.getElem?_idxOf hslot
    have hname' : (w.header.slots.map AbiEntryPoint.name)[k]? = some slot := by rw [← hnames, hname]
    have hkey : (a.header.slots.map (slotKey alnum))[k]? =
        (w.header.slots.map (slotKey alnum))[k]? := by rw [hkeys]
    rw [List.getElem?_map, List.getElem?_eq_getElem hidx, Option.map_some, Option.some_inj] at hname
    rw [List.getElem?_map, List.getElem?_eq_getElem hidx', Option.map_some,
      Option.some_inj] at hname'
    rw [List.getElem?_map, List.getElem?_map, List.getElem?_eq_getElem hidx,
      List.getElem?_eq_getElem hidx', Option.map_some, Option.map_some, Option.some_inj] at hkey
    refine ⟨?_, _, List.getElem_mem hidx, _, List.getElem_mem hidx', hname, hkey⟩
    rw [WrapperBuild.slotAt, AbiBuild.slotOffset, hk, hsize, Nat.mul_mod_left, if_pos rfl,
      Nat.mul_div_cancel k w.pointers, WrapperBuild.vtable, w.checked.vtableInstance_eq,
      List.getElem?_map, List.getElem?_eq_getElem hidx', Option.map_some, hname']
    rfl
  · refine .inl ⟨_, _, htext, htext', ?_, hsame, hagree.apart hlayout hsame⟩
    rw [htext.hash, htext'.hash] at hlayout
    exact Option.some.inj hlayout

/-! ## The process -/

variable {halves : Halves alnum} {s s' : Process}

def MapsBuilt (halves : Halves alnum) (s : Process) (w : Nat) : Prop :=
  ∃ m, initReverseMaps (halves.wrapper w).impl = .ok m ∧ s.maps w = some m

/-- What is true of a call that went through a wrapper's table. -/
structure WellForwarded (halves : Halves alnum) (r : ForwardedCall) : Prop where
  reaches : LayoutCollision (halves.abi r.caller).header (halves.wrapper r.wrapper).header alnum ∨
    ReachesSlot (halves.abi r.caller) (halves.wrapper r.wrapper)
      ((halves.abi r.caller).header.forwardedSlot r.entry) r.body
  level : isPmpi ((halves.abi r.caller).header.forwardedSlot r.entry) = isPmpi r.entry
  outward : Outward halves r.caller r.wrapper
  maps : ∃ m, initReverseMaps (halves.wrapper r.wrapper).impl = .ok m ∧ r.maps = some m

/-- What a constructor can rely on. One that fills the maps is the first, unless
it has failed. -/
def LoadingOk (halves : Halves alnum) (s : Process) (l : Loading) : Prop :=
  match l.phase with
  | .opened => s.vt l.caller = .null
  | .claimed => s.vt l.caller = .null ∧ Accepted halves l.caller l.wrapper ∧
      s.initialized l.wrapper = true ∧ (s.aborted = none → s.builds l.wrapper = 0)
  | .handed => s.vt l.caller = .null ∧ Accepted halves l.caller l.wrapper ∧
      MapsBuilt halves s l.wrapper
  | .probing => Accepted halves l.caller l.wrapper ∧ MapsBuilt halves s l.wrapper

/-- What a forwarder can rely on. -/
def VtOk (halves : Halves alnum) (s : Process) (i : Nat) : VtPointer → Prop
  | .null => True
  | .decoy => ∃ l, s.loading = some l ∧ l.caller = i ∧ l.phase = .probing
  | .table w => Accepted halves i w ∧ MapsBuilt halves s w

/-- Why a process has ended, and what it has said. -/
inductive EndedFor (halves : Halves alnum) (s : Process) : String × String → Prop
  | failed {error : String} : s.loading = none → EndedFor halves s ("dlopen failed", error)
  | notWrapper {path : String} : s.loading = none →
      EndedFor halves s ("not an mpiwrapper library", path)
  | rejected {l : Loading} {detail : String} : s.loading = some l → s.vt l.caller = .null →
      Rejection halves l.caller l.wrapper detail → EndedFor halves s (rejectedWhat, detail)
  | reentered {l : Loading} {name : Text} : s.loading = some l → s.vt l.caller = .null →
      (l.caller, name) ∈ s.captured → EndedFor halves s (reenteredWhat, reenteredDetail)

/-- The invariant. A wrapper whose flag is set has its maps, but for the one that a
constructor is filling. -/
structure ProcessInv (halves : Halves alnum) (s : Process) : Prop where
  fresh : ∀ w, s.initialized w = false → s.builds w = 0
  once : ∀ w, s.builds w ≤ 1
  built : ∀ w, s.initialized w = true →
    (∃ l, s.loading = some l ∧ l.wrapper = w ∧ l.phase = .claimed) ∨ MapsBuilt halves s w
  loading : ∀ l, s.loading = some l → LoadingOk halves s l
  vt : ∀ i, VtOk halves s i (s.vt i)
  captured : ∀ c ∈ s.captured, s.reentered c.1 = true ∧
    (s.vt c.1 = .decoy ∨ s.aborted ≠ none ∧ s.vt c.1 = .null)
  noted : ∀ i, s.reentered i = true → ∃ name, (i, name) ∈ s.captured
  calls : ∀ r ∈ s.calls, WellForwarded halves r
  ended : ∀ e, s.aborted = some e → EndedFor halves s e

theorem Process.step_cases {act : ProcessAct} (h : Process.step halves s act = some s') :
    s.aborted = none ∧
      ((∃ i answer, s.loading = none ∧ s.vt i = .null ∧ s' = s.start i answer) ∨
        (∃ l, s.loading = some l ∧ l.phase = .opened ∧ s' = s.check halves l) ∨
        (∃ l, s.loading = some l ∧ l.phase = .claimed ∧
          s' = s.build l (initReverseMaps (halves.wrapper l.wrapper).impl)) ∨
        (∃ l, s.loading = some l ∧ l.phase = .handed ∧ s' = s.probe halves l) ∨
        (∃ l, s.loading = some l ∧ l.phase = .probing ∧ s' = s.probed l) ∨
        ∃ i name, name ∈ (halves.abi i).header.names ∧ s.call halves i name = some s') := by
  unfold Process.step at h
  split at h
  · cases h
  · next hnot =>
      refine ⟨by simpa using hnot, ?_⟩
      split at h
      · next i answer hl =>
          split at h
          · next hv => exact .inl ⟨i, answer, hl, hv, (Option.some.inj h).symm⟩
          · cases h
      · next l hl =>
          split at h
          · next hp => exact .inr (.inl ⟨l, hl, hp, (Option.some.inj h).symm⟩)
          · cases h
      · next l hl =>
          split at h
          · next hp => exact .inr (.inr (.inl ⟨l, hl, hp, (Option.some.inj h).symm⟩))
          · cases h
      · next l hl =>
          split at h
          · next hp => exact .inr (.inr (.inr (.inl ⟨l, hl, hp, (Option.some.inj h).symm⟩)))
          · cases h
      · next l hl =>
          split at h
          · next hp =>
              exact .inr (.inr (.inr (.inr (.inl ⟨l, hl, hp, (Option.some.inj h).symm⟩))))
          · cases h
      · next i name =>
          split at h
          · next hn =>
              exact .inr (.inr (.inr (.inr (.inr ⟨i, name, List.contains_iff_mem.mp hn, h⟩))))
          · cases h
      · cases h

/-! ### One step -/

theorem VtOk.mono {i : Nat} {v : VtPointer} (hm : ∀ w, MapsBuilt halves s w → MapsBuilt halves s' w)
    (hne : v ≠ .decoy) (h : VtOk halves s i v) : VtOk halves s' i v := by
  cases v with
  | null => trivial
  | decoy => exact absurd rfl hne
  | table w => exact ⟨h.1, hm w h.2⟩

theorem LoadingOk.fail {l : Loading} (h : LoadingOk halves s l) (what detail : String) :
    LoadingOk halves (s.fail what detail) l := by
  unfold LoadingOk at h ⊢
  split at h
  · exact h
  · exact ⟨h.1, h.2.1, h.2.2.1, nofun⟩
  · exact h
  · exact h

theorem goes_on (hrun : s.aborted = none) (e : String × String) (he : s.aborted = some e) :
    EndedFor halves s' e :=
  nomatch hrun.symm.trans he

namespace ProcessInv

/-- Only the constructor that probes has a decoy. -/
theorem decoy (h : ProcessInv halves s) {l : Loading} (hl : s.loading = some l) {i : Nat}
    (hd : s.vt i = .decoy) : l.caller = i ∧ l.phase = .probing := by
  have hv := h.vt i
  rw [hd] at hv
  obtain ⟨l', hload, hcaller, hp⟩ := hv
  obtain rfl := Option.some.inj (hl.symm.trans hload)
  exact ⟨hcaller, hp⟩

theorem not_decoy (h : ProcessInv halves s) (hl : ∀ l, s.loading = some l → l.phase ≠ .probing)
    (i : Nat) : s.vt i ≠ .decoy := by
  intro hd
  have hv := h.vt i
  rw [hd] at hv
  obtain ⟨l, hload, -, hp⟩ := hv
  exact hl l hload hp

theorem captured_decoy (h : ProcessInv halves s) (hrun : s.aborted = none) {c : Nat × Text}
    (hc : c ∈ s.captured) : s.vt c.1 = .decoy :=
  (h.captured c hc).2.resolve_right fun hend => hend.1 hrun

theorem not_captured (h : ProcessInv halves s) (hrun : s.aborted = none)
    (hl : ∀ l, s.loading = some l → l.phase ≠ .probing) {c : Nat × Text} : c ∉ s.captured :=
  fun hc => h.not_decoy hl c.1 (h.captured_decoy hrun hc)

/-- The flag of a wrapper that no constructor is filling says that it is filled. -/
theorem filled (h : ProcessInv halves s) (hl : ∀ l, s.loading = some l → l.phase ≠ .claimed)
    {w : Nat} (hw : s.initialized w = true) : MapsBuilt halves s w :=
  (h.built w hw).resolve_left fun ⟨l, hload, _, hp⟩ => hl l hload hp

theorem fail (h : ProcessInv halves s) {what detail : String}
    (hd : EndedFor halves (s.fail what detail) (what, detail)) :
    ProcessInv halves (s.fail what detail) where
  fresh := h.fresh
  once := h.once
  built := h.built
  loading l hl := (h.loading l hl).fail what detail
  vt := h.vt
  captured c hc := ⟨(h.captured c hc).1, (h.captured c hc).2.imp_right fun hend => ⟨nofun, hend.2⟩⟩
  noted := h.noted
  calls := h.calls
  ended _ he := Option.some.inj he ▸ hd

theorem start (h : ProcessInv halves s) (hrun : s.aborted = none) (hl : s.loading = none) {i : Nat}
    (hv : s.vt i = .null) (answer : DlAnswer) : ProcessInv halves (s.start i answer) := by
  have hnot : ∀ l, s.loading = some l → False := fun l hload => nomatch hl.symm.trans hload
  cases answer with
  | failed error => exact h.fail (.failed hl)
  | notWrapper path => exact h.fail (.notWrapper hl)
  | opened w =>
      refine { h with built := fun v hw => ?_, loading := ?_, vt := fun j => ?_,
                      ended := goes_on hrun }
      · exact .inr (h.filled (fun l hload => (hnot l hload).elim) hw)
      · rintro l ⟨⟩
        exact hv
      · exact VtOk.mono (s := s) (fun _ hm => hm)
          (h.not_decoy (fun l hload => (hnot l hload).elim) j) (h.vt j)

theorem check (h : ProcessInv halves s) (hrun : s.aborted = none) {l : Loading}
    (hl : s.loading = some l) (hp : l.phase = .opened) : ProcessInv halves (s.check halves l) := by
  have hnull := h.loading l hl
  rw [LoadingOk, hp] at hnull
  have hphase : ∀ phase, phase ≠ .opened → ∀ l', s.loading = some l' → l'.phase ≠ phase := by
    rintro phase hne l' hload rfl
    obtain rfl := Option.some.inj (hl.symm.trans hload)
    exact hne hp
  have hvt := fun i => h.not_decoy (hphase .probing (by decide)) i
  have hfilled := fun w => h.filled (hphase .claimed (by decide)) (w := w)
  rw [Process.check]
  split
  · next diagnostic hd => exact h.fail (.rejected hl hnull (getVtableChecks_some hd))
  · next hnone =>
      have haccept := getVtableChecks_none hnone
      split
      · next hinit =>
          refine { h with built := fun v hv => .inr (hfilled v hv), loading := ?_,
                          vt := fun i => ?_, ended := goes_on hrun }
          · rintro l' ⟨⟩
            exact ⟨hnull, haccept, hfilled _ hinit⟩
          · exact VtOk.mono (s := s) (fun _ hm => hm) (hvt i) (h.vt i)
      · next hinit =>
          have hinit : s.initialized l.wrapper = false := by simpa using hinit
          refine { h with fresh := fun v hv => ?_, built := fun v hv => ?_, loading := ?_,
                          vt := fun i => ?_, ended := goes_on hrun }
          · rcases update_cases (P := fun b => b = false) hv with ⟨-, hv⟩ | ⟨-, hv⟩
            · cases hv
            · exact h.fresh v hv
          · rcases update_cases (P := fun b => b = true) hv with ⟨rfl, -⟩ | ⟨-, hv⟩
            · exact .inl ⟨_, rfl, rfl, rfl⟩
            · exact .inr (hfilled v hv)
          · rintro l' ⟨⟩
            exact ⟨hnull, haccept, Function.update_self _ _ _, fun _ => h.fresh _ hinit⟩
          · exact VtOk.mono (s := s) (fun _ hm => hm) (hvt i) (h.vt i)

theorem build (h : ProcessInv halves s) (hrun : s.aborted = none) {l : Loading}
    (hl : s.loading = some l) (hp : l.phase = .claimed) {built : Except String Rmaps}
    (hbuilt : initReverseMaps (halves.wrapper l.wrapper).impl = built) :
    ProcessInv halves (s.build l built) := by
  have hok := h.loading l hl
  rw [LoadingOk, hp] at hok
  obtain ⟨hnull, haccept, hinit, hbuilds⟩ := hok
  have honce : ∀ w, Function.update s.builds l.wrapper (s.builds l.wrapper + 1) w ≤ 1 :=
    forall_update (P := fun n => n ≤ 1) (by rw [hbuilds hrun]) h.once
  have hfresh : ∀ w, s.initialized w = false →
      Function.update s.builds l.wrapper (s.builds l.wrapper + 1) w = 0 := by
    intro w hw
    have hne : w ≠ l.wrapper := by
      rintro rfl
      exact nomatch hinit.symm.trans hw
    exact (Function.update_of_ne hne _ _).trans (h.fresh w hw)
  cases built with
  | error diagnostic =>
      have hfail : ProcessInv halves (s.fail rejectedWhat diagnostic) :=
        h.fail (.rejected hl hnull (.maps hbuilt))
      refine { hfail with fresh := hfresh, once := honce, loading := ?_, ended := ?_ }
      · intro l' hload
        obtain rfl := Option.some.inj (hl.symm.trans hload)
        show LoadingOk halves _ l
        rw [LoadingOk, hp]
        exact ⟨hnull, haccept, hinit, nofun⟩
      · rintro e ⟨⟩
        exact .rejected hl hnull (.maps hbuilt)
  | ok m =>
      have hmaps : ∀ w, w = l.wrapper ∨ MapsBuilt halves s w →
          MapsBuilt halves (s.build l (.ok m)) w := by
        intro w hw
        by_cases heq : w = l.wrapper
        · subst heq
          exact ⟨m, hbuilt, Function.update_self _ _ _⟩
        · obtain ⟨m', hm', hs⟩ := hw.resolve_left heq
          exact ⟨m', hm', (Function.update_of_ne heq _ _).trans hs⟩
      have hprobe : ∀ l', s.loading = some l' → l'.phase ≠ .probing := by
        intro l' hload
        obtain rfl := Option.some.inj (hl.symm.trans hload)
        rw [hp]
        decide
      refine { h with fresh := hfresh, once := honce, built := fun w hw => ?_, loading := ?_,
                      vt := fun i => ?_, ended := goes_on hrun }
      · refine .inr (hmaps w ?_)
        rcases h.built w hw with ⟨l', hload, hwrap, -⟩ | hbuilt
        · obtain rfl := Option.some.inj (hl.symm.trans hload)
          exact .inl hwrap.symm
        · exact .inr hbuilt
      · rintro l' ⟨⟩
        exact ⟨hnull, haccept, hmaps _ (.inl rfl)⟩
      · exact (h.vt i).mono (fun w hw => hmaps w (.inr hw)) (h.not_decoy hprobe i)

/-- One more call has gone through a table. -/
theorem through (h : ProcessInv halves s) (hrun : s.aborted = none) {i w : Nat} {entry : Text}
    (hentry : entry ∈ (halves.abi i).header.names) (haccept : Accepted halves i w)
    (hm : MapsBuilt halves s w) :
    ProcessInv halves (s.through halves i w entry ((halves.abi i).header.forwardedSlot entry)) := by
  obtain ⟨hmem, hlevel⟩ := (halves.abi i).checked.forwardedSlot_mem hentry
  refine { h with calls := fun r hr => ?_, ended := goes_on hrun }
  rcases List.mem_append.mp hr with hr | hr
  · exact h.calls r hr
  · rw [List.mem_singleton.mp hr]
    exact ⟨compatible_reaches haccept.compatible hmem, hlevel, haccept.outward, hm⟩

theorem probe (h : ProcessInv halves s) (hrun : s.aborted = none) {l : Loading}
    (hl : s.loading = some l) (hp : l.phase = .handed) : ProcessInv halves (s.probe halves l) := by
  have hok := h.loading l hl
  rw [LoadingOk, hp] at hok
  obtain ⟨hnull, haccept, hm⟩ := hok
  have hphase : ∀ phase, phase ≠ .handed → ∀ l', s.loading = some l' → l'.phase ≠ phase := by
    rintro phase hne l' hload rfl
    obtain rfl := Option.some.inj (hl.symm.trans hload)
    exact hne hp
  have hnone : ∀ c, c ∉ s.captured := fun c =>
    h.not_captured hrun (hphase .probing (by decide))
  obtain ⟨ep, hep, hname⟩ := List.mem_map.mp (halves.abi l.caller).probes
  have hentry : getVersion ∈ (halves.abi l.caller).header.names :=
    hname ▸ List.mem_map_of_mem (slots_subset hep)
  have hslot : (halves.abi l.caller).header.forwardedSlot getVersion = getVersion := by
    have hnone : (halves.abi l.caller).header.aliasOf getVersion = none := by
      rw [← hname]
      simpa using (List.mem_filter.mp hep).2
    rw [AbiHeader.forwardedSlot, hnone]
  have hbefore : ProcessInv halves
      (((s.enter l .probing).setReentered l.caller false).setVt l.caller .decoy) := by
    refine { h with built := fun w hw => ?_, loading := ?_, vt := ?_, captured := ?_, noted := ?_,
                    ended := goes_on hrun }
    · exact .inr (h.filled (hphase .claimed (by decide)) hw)
    · rintro l' ⟨⟩
      exact ⟨haccept, hm⟩
    · exact forall_update_at (P := fun i v => VtOk halves _ i v) ⟨_, rfl, rfl, rfl⟩ fun i _ =>
        VtOk.mono (s := s) (fun _ hm => hm) (h.not_decoy (hphase .probing (by decide)) i) (h.vt i)
    · exact fun c hc => absurd hc (hnone c)
    · intro i hi
      rcases update_cases (P := fun b => b = true) hi with ⟨-, hi⟩ | ⟨-, hi⟩
      · cases hi
      · exact h.noted i hi
  have hthrough := hbefore.through hrun hentry haccept hm
  rw [hslot] at hthrough
  exact hthrough

theorem probed (h : ProcessInv halves s) (hrun : s.aborted = none) {l : Loading}
    (hl : s.loading = some l) (hp : l.phase = .probing) : ProcessInv halves (s.probed l) := by
  have hok := h.loading l hl
  rw [LoadingOk, hp] at hok
  obtain ⟨haccept, hm⟩ := hok
  have hother : ∀ i, i ≠ l.caller → s.vt i ≠ .decoy := fun i hne hd => hne (h.decoy hl hd).1.symm
  rw [Process.probed]
  split
  · next hback =>
      obtain ⟨name, hname⟩ := h.noted l.caller hback
      have hnull : ProcessInv halves
          ((s.setVt l.caller .null).fail reenteredWhat reenteredDetail) := by
        refine { h with loading := ?_, vt := ?_, captured := fun c hc => ?_, ended := ?_ }
        · intro l' hload
          obtain rfl := Option.some.inj (hl.symm.trans hload)
          show LoadingOk halves _ l
          rw [LoadingOk, hp]
          exact ⟨haccept, hm⟩
        · exact forall_update_at (P := fun i v => VtOk halves _ i v) trivial fun i hne =>
            VtOk.mono (s := s) (fun _ hm => hm) (hother i hne) (h.vt i)
        · obtain ⟨hcaller, -⟩ := h.decoy hl (h.captured_decoy hrun hc)
          refine ⟨(h.captured c hc).1, .inr ⟨nofun, ?_⟩⟩
          rw [← hcaller]
          exact Function.update_self _ _ _
        · rintro e ⟨⟩
          exact .reentered hl (Function.update_self _ _ _) hname
      exact hnull
  · next hback =>
      refine { h with built := fun w hw => ?_, loading := nofun, vt := ?_,
                      captured := fun c hc => ?_, ended := goes_on hrun }
      · refine .inr (h.filled (fun l' hload heq => ?_) hw)
        obtain rfl := Option.some.inj (hl.symm.trans hload)
        exact nomatch hp.symm.trans heq
      · exact forall_update_at (P := fun i v => VtOk halves _ i v) ⟨haccept, hm⟩ fun i hne =>
          VtOk.mono (s := s) (fun _ hm => hm) (hother i hne) (h.vt i)
      · -- it would have been this constructor's decoy, and has not noted anything
        obtain ⟨hcaller, -⟩ := h.decoy hl (h.captured_decoy hrun hc)
        rw [hcaller] at hback
        exact absurd (h.captured c hc).1 hback

theorem call (h : ProcessInv halves s) (hrun : s.aborted = none) {i : Nat} {name : Text}
    (hn : name ∈ (halves.abi i).header.names) (hc : s.call halves i name = some s') :
    ProcessInv halves s' := by
  have hv := h.vt i
  rw [Process.call] at hc
  split at hc
  · cases hc
  · next hd =>
      cases Option.some.inj hc
      refine { h with captured := fun c hc => ?_, noted := fun j hj => ?_,
                      ended := goes_on hrun }
      · rcases List.mem_append.mp hc with hc | hc
        · refine ⟨?_, (h.captured c hc).2⟩
          by_cases heq : c.1 = i
          · rw [heq]
            exact Function.update_self _ _ _
          · exact (Function.update_of_ne heq _ _).trans (h.captured c hc).1
        · rw [List.mem_singleton.mp hc]
          exact ⟨Function.update_self _ _ _, .inl hd⟩
      · rcases update_cases (P := fun b => b = true) hj with ⟨rfl, -⟩ | ⟨-, hj⟩
        · exact ⟨name, List.mem_append_right _ (List.mem_singleton_self _)⟩
        · obtain ⟨name', hname⟩ := h.noted j hj
          exact ⟨name', List.mem_append_left _ hname⟩
  · next w ht =>
      rw [ht] at hv
      cases Option.some.inj hc
      exact h.through hrun hn hv.1 hv.2

theorem step (h : ProcessInv halves s) {act : ProcessAct}
    (hs : Process.step halves s act = some s') : ProcessInv halves s' := by
  obtain ⟨hrun, hcases⟩ := Process.step_cases hs
  rcases hcases with ⟨i, answer, hl, hv, rfl⟩ | ⟨l, hl, hp, rfl⟩ | ⟨l, hl, hp, rfl⟩ |
    ⟨l, hl, hp, rfl⟩ | ⟨l, hl, hp, rfl⟩ | ⟨i, name, hn, hc⟩
  · exact h.start hrun hl hv answer
  · exact h.check hrun hl hp
  · exact h.build hrun hl hp rfl
  · exact h.probe hrun hl hp
  · exact h.probed hrun hl hp
  · exact h.call hrun hn hc

theorem init : ProcessInv halves Process.init where
  fresh _ _ := rfl
  once _ := Nat.zero_le _
  built := nofun
  loading := nofun
  vt _ := trivial
  captured := nofun
  noted := nofun
  calls := nofun
  ended := nofun

end ProcessInv

/-! ### Every run -/

/-- What holds of a process with any libmpi_abi and wrappers in it. A libmpi_abi
whose entry points have been called while it probed never gets a table. -/
structure HandshakeHolds (halves : Halves alnum) (s : Process) : Prop where
  calls : ∀ r ∈ s.calls, WellForwarded halves r
  once : ∀ w, s.builds w ≤ 1
  loaded : ∀ i w, s.vt i = .table w → Accepted halves i w ∧ ∀ name, (i, name) ∉ s.captured
  decoy : ∀ i, s.vt i = .decoy → ∃ l, s.loading = some l ∧ l.caller = i ∧ l.phase = .probing
  ended : ∀ e, s.aborted = some e → EndedFor halves s e

theorem handshake_holds {run : List ProcessAct}
    (hrun : exec (Process.step halves) .init run = some s) : HandshakeHolds halves s := by
  have h : ProcessInv halves s := exec_keeps (fun _ _ _ h hs => h.step hs) .init hrun
  refine ⟨h.calls, h.once, fun i w hv => ⟨?_, fun name hc => ?_⟩, fun i hv => ?_, h.ended⟩
  · have hvt := h.vt i
    rw [hv] at hvt
    exact hvt.1
  · have hcap := (h.captured _ hc).2
    rw [hv] at hcap
    exact hcap.elim nofun fun hend => nomatch hend.2
  · have hvt := h.vt i
    rw [hv] at hvt
    exact hvt

/-- Both halves of one header. -/
def twinAbi : AbiBuild (fun _ => false) where
  version := 1
  subversion := 0
  header := attrHeader "int".toList
  checked := attrHeader_checked (forall_of_all (by decide))
  probes := by decide
  hash := fnv1a32 (encode ((attrHeader "int".toList).slots.flatMap (slotText fun _ => false)))
  emitted := (attrHeader_checked (forall_of_all (by decide))).layoutText.hash
  pointerSize := 8
  pointers := by decide

def twinWrapper : WrapperBuild (fun _ => false) :=
  ⟨twinAbi, fun name => name = "MPI_Comm_delete_attr".toList, plainHandles⟩

def attrDelete : Text := "PMPI_Attr_delete".toList

/-- Two of the one and of the other, each apart in its own object. -/
def twinHalves : Halves (fun _ => false) where
  abi _ := twinAbi
  wrapper _ := twinWrapper
  abiBase i := some (2 * i)
  implBase w := some (2 * w + 1)

/-- A libmpi_abi is loaded, and a thread calls what is an alias while another one
probes the same wrapper. -/
def aliasCalled : List ProcessAct :=
  [.start 0 (.opened 0), .check, .build, .probe, .probed, .start 1 (.opened 0), .check, .probe,
    .call 0 attrDelete, .probed, .call 1 attrDelete]

theorem aliasCalled_holds :
    ∃ s, exec (Process.step twinHalves) .init aliasCalled = some s ∧
      HandshakeHolds twinHalves s := by
  have hout : ∀ i, Outward twinHalves i 0 := by
    rintro i base ⟨⟩ heq
    have := Option.some.inj heq
    omega
  have hcompat : Compatible twinAbi twinWrapper := ⟨rfl, rfl, rfl, rfl⟩
  have haccept : ∀ i, Accepted twinHalves i 0 := fun i => ⟨hcompat, hout i⟩
  have hchecks : ∀ i, getVtableChecks (twinHalves.abi i) (twinHalves.wrapper 0)
      (twinHalves.abiBase i) (twinHalves.implBase 0) = none :=
    fun i => getVtableChecks_accepts (haccept i)
  have hmaps : initReverseMaps (twinHalves.wrapper 0).impl = .ok plainMaps := plainMaps_built
  have hnames : attrDelete ∈ twinAbi.header.names := by decide
  have hattr : ∀ i, attrDelete ∈ (twinHalves.abi i).header.names := fun _ => hnames
  obtain ⟨s, hs⟩ : ∃ s, exec (Process.step twinHalves) .init aliasCalled = some s := by
    simp [aliasCalled, exec, Process.step, Process.init, Process.start, Process.check, hchecks,
      hmaps, Process.build, Process.enter, Process.probe, Process.setVt, Process.setReentered,
      Process.through, Process.probed, Process.call, hattr]
  exact ⟨s, hs, handshake_holds hs⟩

end AbiWrapper.Ref
