import AbiWrapper.Proofs.ErrorClass
import AbiWrapper.Proofs.Spawn

/-!
# Error codes that were not written

A call that fails may leave its outputs as they were. Three bodies convert them
all the same: every error code of a spawn, and the class of
`MPI_Error_class`. What an entry had in it before is taken for a code, stored
as the caller's, and, if no case of the switch knows it, entered in the
registry for good.

The three are one loop of conversions and the conversion of the returned code
after it, so what comes of unwritten entries is said once, of that
(`converted_iff`).
-/

namespace AbiWrapper.Ref

open AbiWrapper.Lib

/-- What a body stores is the conversions of what the implementation has
written, entry by entry, and the registry has grown by codes that it has
returned. -/
structure CodesReturned (impl : ImplErrors) (wrote : Nat → Option Int32) (ierror : Int32)
    (t : ErrorTable) (stored : List Int32) (t' : ErrorTable) : Prop where
  outputs : ∃ codes, (∀ i c, codes[i]? = some c → wrote i = some c) ∧
    (convertAll impl codes t).1 = stored
  kept : t.Extends t'
  grown : ∀ slot, t.count ≤ slot → slot < t'.count →
    t'.slot slot = ierror ∨ ∃ i, wrote i = some (t'.slot slot)

section Conversions

variable {impl : ImplErrors} {t : ErrorTable} {codes : List Int32} {ierror : Int32}

/-- A conversion adds nothing to the registry but its code. -/
theorem toabi_grown {slot : Nat} (hnew : t.count ≤ slot)
    (hlt : slot < (errorcodeToabi impl ierror t).2.count) :
    (errorcodeToabi impl ierror t).2.slot slot = ierror := by
  have hcases := toabi_cases impl t ierror
  generalize errorcodeToabi impl ierror t = p at hcases hlt ⊢
  obtain ⟨abi, t'⟩ := p
  cases hcases with
  | interned _ _ _ ha =>
      obtain ⟨-, -, hcount, hslot⟩ := Registry.append_eq_some ha
      have hlt : slot < t'.count := hlt
      have heq : slot = t.count := by omega
      show t'.slot slot = ierror
      rw [hslot, heq, Function.update_self]
  | _ => exact absurd hlt (Nat.not_lt_of_le hnew)

theorem convertAll_length : (convertAll impl codes t).1.length = codes.length := by
  induction codes generalizing t with
  | nil => rfl
  | cons code rest ih => exact congrArg (· + 1) ih

theorem convertAll_grown {slot : Nat} (hnew : t.count ≤ slot)
    (hlt : slot < (convertAll impl codes t).2.count) :
    (convertAll impl codes t).2.slot slot ∈ codes := by
  induction codes generalizing t with
  | nil => exact absurd hlt (Nat.not_lt_of_le hnew)
  | cons code rest ih =>
      by_cases hfirst : slot < (errorcodeToabi impl code t).2.count
      · have hext : (errorcodeToabi impl code t).2.Extends
            (convertAll impl rest (errorcodeToabi impl code t).2).2 := convertAll_extends
        have hslot := (hext.2 slot hfirst).trans (toabi_grown hnew hfirst)
        exact List.mem_cons.mpr (.inl hslot)
      · exact List.mem_cons_of_mem _ (ih (Nat.not_lt.mp hfirst) hlt)

def foundCodes (wrote : Nat → Option Int32) (stack : Nat → Int32) (i n : Nat) : List Int32 :=
  (List.range' i n).map fun i => (wrote i).getD (stack i)

/-- Converting the first entries and then the returned code is right exactly
where all of the entries have been written. -/
theorem converted_iff {wrote : Nat → Option Int32} {stack : Nat → Int32} {n : Nat} :
    CodesReturned impl wrote ierror t (convertAll impl (foundCodes wrote stack 0 n) t).1
        (errorcodeToabi impl ierror (convertAll impl (foundCodes wrote stack 0 n) t).2).2 ↔
      ∀ i, i < n → wrote i ≠ none := by
  have hlen : (foundCodes wrote stack 0 n).length = n := by simp [foundCodes]
  constructor
  · intro h i hi hnone
    obtain ⟨codes, hwrote, hstored⟩ := h.outputs
    have hcodes : codes.length = n := by
      have hstoredLen := congrArg List.length hstored
      rwa [convertAll_length, convertAll_length, hlen] at hstoredLen
    have hget := hwrote i _ (List.getElem?_eq_getElem (hcodes ▸ hi))
    exact nomatch hnone.symm.trans hget
  · intro hall
    have hfound : ∀ i c, (foundCodes wrote stack 0 n)[i]? = some c → wrote i = some c := by
      intro i c hc
      obtain ⟨hi, hget⟩ := List.getElem?_eq_some_iff.mp hc
      rw [hlen] at hi
      obtain ⟨code, hcode⟩ := Option.ne_none_iff_exists'.mp (hall i hi)
      simp only [foundCodes, List.getElem_map, List.getElem_range', Nat.zero_add, Nat.one_mul,
        hcode, Option.getD_some] at hget
      rw [hcode, hget]
    refine ⟨⟨_, hfound, rfl⟩, ?_, fun slot hnew hlt => ?_⟩
    · exact convertAll_extends.trans (toabi_cases impl _ ierror).extends
    · by_cases hfirst : slot < (convertAll impl (foundCodes wrote stack 0 n) t).2.count
      · rw [(toabi_cases impl _ ierror).extends.2 slot hfirst]
        obtain ⟨i, hi, hget⟩ := List.mem_iff_getElem.mp (convertAll_grown hnew hfirst)
        exact .inr ⟨i, hfound i _ (List.getElem?_eq_some_iff.mpr ⟨hi, hget⟩)⟩
      · exact .inl (toabi_grown (Nat.not_lt.mp hfirst) hlt)

/-- Where nothing is converted there is nothing to say. -/
theorem CodesReturned.nothing {wrote : Nat → Option Int32} :
    CodesReturned impl wrote ierror t [] t :=
  ⟨⟨[], nofun, rfl⟩, .refl t, fun _ hnew hlt => absurd hlt (Nat.not_lt_of_le hnew)⟩

end Conversions

/-! ## Spawning -/

section Spawning

variable {impl : SpawnImpl} {malloc : Nat → Bool} {atRoot : Bool} {ret : SpawnReturn}
  {stack : Nat → Int32} {w : World}

/-- What a spawn leaves of the error codes when it has made its call. -/
theorem finishSpawn_codes {c : SpawnCall} {n reads : Nat} :
    (finishSpawn impl.toImpl c n reads (ret.reply stack) w).errcodes =
        (convertAll impl.errors (foundCodes ret.wrote stack 0 n) w.errors).1 ∧
      (finishSpawn impl.toImpl c n reads (ret.reply stack) w).world.errors =
        (errorcodeToabi impl.errors ret.ierror
          (convertAll impl.errors (foundCodes ret.wrote stack 0 n) w.errors).2).2 := by
  simp [finishSpawn, foundCodes, errcodesLoop_convertAll, World.toabi, SpawnReturn.reply]

/-- How a spawn goes: it stops with nothing converted, or it converts as many
error codes as the arguments say. -/
inductive Spawns (impl : SpawnImpl) (ret : SpawnReturn) (stack : Nat → Int32) (w : World)
    (n : Nat) : SpawnResult → Prop
  | stopped {reads : Nat} {code : Int32} {intercomm : Option UInt64} (hn : n = 0) :
      Spawns impl ret stack w n (stoppedSpawn reads code intercomm w)
  | finished {c : SpawnCall} {reads : Nat} :
      Spawns impl ret stack w n (finishSpawn impl.toImpl c n reads (ret.reply stack) w)

theorem Spawns.returned_iff {n : Nat} {r : SpawnResult} (h : Spawns impl ret stack w n r) :
    CodesReturned impl.errors ret.wrote ret.ierror w.errors r.errcodes r.world.errors ↔
      ∀ i, i < n → ret.wrote i ≠ none := by
  cases h with
  | stopped hn =>
      subst hn
      exact ⟨fun _ _ hi => absurd hi (Nat.not_lt_zero _), fun _ => .nothing⟩
  | @finished c reads =>
      have hcodes := @finishSpawn_codes impl ret stack w c n reads
      rw [hcodes.1, hcodes.2]
      exact converted_iff

theorem SpawnArgs.nconverted_eq {args : SpawnArgs} (h : args.ignore = true ∨
    spawnStageOk malloc 4 args.maxprocs.toNat = true) :
    args.nconverted malloc = if args.ignore then 0 else args.maxprocs.toNat := by
  rw [nconverted]
  cases hi : args.ignore with
  | true => rfl
  | false => simp [h.resolve_left (by simp [hi])]

theorem SpawnArgs.nconverted_zero {args : SpawnArgs} (h : ¬args.reaches malloc) :
    args.nconverted malloc = 0 := by
  rw [nconverted]
  split
  · rfl
  · next hgo =>
      have hstage : args.ignore = true ∨ spawnStageOk malloc 4 args.maxprocs.toNat = true := by
        cases hi : args.ignore <;> simp_all
      have hneg : ¬0 ≤ args.maxprocs := fun hpos => h ⟨hpos, hstage⟩
      omega

theorem commSpawn_spawns {args : SpawnArgs} :
    Spawns impl ret stack w (args.nconverted malloc)
      (commSpawn impl malloc atRoot (fun _ => ret.reply stack) args w) := by
  by_cases hr : args.reaches malloc
  · rw [commSpawn_reaches hr, SpawnArgs.nconverted_eq hr.2]
    exact .finished
  · have hzero := SpawnArgs.nconverted_zero hr
    rw [commSpawn]
    split
    · exact .stopped hzero
    · next hpos =>
        rw [if_pos]
        · exact .stopped hzero
        · have hno := fun hs => hr ⟨by omega, hs⟩
          simpa using hno

/-- The array of a spawn that has got as far as staging it. -/
theorem SpawnMultipleArgs.nconverted_eq {args : SpawnMultipleArgs} {reads n : Nat}
    (hpos : ¬args.count < 0) (hstage : spawnStageOk malloc impl.infoSize args.count.toNat = true)
    (hread : (infosLoop impl.toImpl args.infos 0 args.count.toNat).2.isSome = true)
    (hn : nerrcodes args = (reads, .total n)) :
    args.nconverted impl malloc =
      if args.ignore then 0 else if spawnStageOk malloc 4 n then n else 0 := by
  rw [nconverted]
  cases hi : args.ignore with
  | true => rfl
  | false =>
      rw [nerrcodes, hi, if_neg Bool.false_ne_true] at hn
      simp [hpos, hstage, hread, hn]

theorem commSpawnMultiple_spawns {args : SpawnMultipleArgs} {r : SpawnResult}
    (h : commSpawnMultiple impl malloc atRoot (fun _ => ret.reply stack) args w = some r) :
    Spawns impl ret stack w (args.nconverted impl malloc) r := by
  rw [commSpawnMultiple] at h
  split at h
  · next hneg =>
      cases h
      exact .stopped (if_pos (by simp [hneg]))
  · next hpos =>
      have hcount : ¬args.count < 0 := hpos
      split at h
      · cases h
      · next reads hn =>
          cases h
          refine .stopped ?_
          rw [nerrcodes] at hn
          split at hn
          · cases hn
          · rw [SpawnMultipleArgs.nconverted, hn]
            exact ite_self 0
      · next reads n hn =>
          split at h
          · next hstage =>
              cases h
              refine .stopped (if_pos ?_)
              rw [hstage, Bool.or_true]
          · next hstage =>
              split at h
              · cases h
              · next reads' infos hinfos =>
                  have hread : (infosLoop impl.toImpl args.infos 0 args.count.toNat).2.isSome =
                      true := by
                    rw [hinfos]
                    rfl
                  have heq : args.nconverted impl malloc = _ :=
                    SpawnMultipleArgs.nconverted_eq hcount (by simpa using hstage) hread hn
                  split at h
                  · next hstop =>
                      cases h
                      refine .stopped (heq.trans ?_)
                      simp_all
                  · next hgo =>
                      cases h
                      have hlen : args.nconverted impl malloc = n := by
                        rw [heq]
                        cases hi : args.ignore with
                        | true =>
                            rw [nerrcodes, hi] at hn
                            cases hn
                            rfl
                        | false => simp_all
                      rw [hlen]
                      exact .finished

end Spawning

/-! ## All three -/

/-- `MPI_Error_class` converts one code, its class. -/
theorem errorClass_returned_iff (impl : ImplErrors) (ierror : Int32) (wrote : Option Int32)
    (stack abiErrorcode : Int32) (t : ErrorTable) {r : Int32 × Int32 × ErrorTable}
    (h : errorClass impl (fun _ => ⟨ierror, wrote.getD stack⟩) abiErrorcode t = some r) :
    CodesReturned impl (fun _ => wrote) ierror t [r.2.1] r.2.2 ↔ wrote ≠ none := by
  obtain ⟨ierrorcode, -, rfl⟩ := Option.map_eq_some_iff.mp h
  have hiff := @converted_iff impl t ierror (fun _ => wrote) (fun _ => stack) 1
  exact hiff.trans ⟨fun h => h 0 Nat.one_pos, fun h _ _ => h⟩

/-- The error codes and the registry are left as the implementation has asked
for exactly where it has written every code that the body converts. -/
theorem error_codes_returned_iff (impl : SpawnImpl) (malloc : Nat → Bool) (atRoot : Bool)
    (ret : SpawnReturn) (stack : Nat → Int32) (w : World) :
    (∀ args : SpawnArgs,
      let r := commSpawn impl malloc atRoot (fun _ => ret.reply stack) args w
      CodesReturned impl.errors ret.wrote ret.ierror w.errors r.errcodes r.world.errors ↔
        ∀ i, i < args.nconverted malloc → ret.wrote i ≠ none) ∧
    (∀ (args : SpawnMultipleArgs) (r : SpawnResult),
      commSpawnMultiple impl malloc atRoot (fun _ => ret.reply stack) args w = some r →
      (CodesReturned impl.errors ret.wrote ret.ierror w.errors r.errcodes r.world.errors ↔
        ∀ i, i < args.nconverted impl malloc → ret.wrote i ≠ none)) ∧
    ∀ (wrote : Option Int32) (content abiErrorcode : Int32) (r : Int32 × Int32 × ErrorTable),
      errorClass impl.errors (fun _ => ⟨ret.ierror, wrote.getD content⟩) abiErrorcode
        w.errors = some r →
      (CodesReturned impl.errors (fun _ => wrote) ret.ierror w.errors [r.2.1] r.2.2 ↔
        wrote ≠ none) := by
  refine ⟨fun args => ?_, fun args r h => ?_, fun wrote content abiErrorcode r h => ?_⟩
  · exact commSpawn_spawns.returned_iff
  · exact (commSpawnMultiple_spawns h).returned_iff
  · exact errorClass_returned_iff impl.errors ret.ierror wrote content abiErrorcode w.errors h

/-- A spawn that fails with `MPI_ERR_SPAWN` and writes no error code. -/
def failedSpawn : SpawnReturn := ⟨53, 0, fun _ => none⟩

/-- Of two processes. What was in the array has become error codes. -/
theorem unwritten_codes_entered :
    let r := commSpawn plainSpawn (fun _ => true) true
      (fun _ => failedSpawn.reply fun i => Int32.ofNat (70000 + i)) (leafArgs 2 false) plainWorld
    r.errcodes = [0x4000, 0x4001] ∧ r.world.errors.count = 2 ∧
      r.world.errors.slot 0 = 70000 ∧ r.world.errors.slot 1 = 70001 ∧
      ¬ CodesReturned plainSpawn.errors failedSpawn.wrote failedSpawn.ierror plainWorld.errors
        r.errcodes r.world.errors := by
  refine ⟨by decide +kernel, by decide +kernel, by decide +kernel, by decide +kernel, ?_⟩
  rw [commSpawn_spawns.returned_iff]
  exact fun h => h 0 (by decide) rfl

/-- One that writes them all. -/
def reportedSpawn : SpawnReturn := ⟨53, 0, fun _ => some 53⟩

def oneCommand : SpawnMultipleArgs :=
  ⟨1, 0, 0, 0, fun _ => some 2, fun _ => some 0x130, 0, 0x101, false⟩

theorem reportedSpawn_returned :
    ∃ r, commSpawnMultiple plainSpawn (fun _ => true) true
        (fun _ => reportedSpawn.reply fun _ => 70000) oneCommand plainWorld = some r ∧
      CodesReturned plainSpawn.errors reportedSpawn.wrote reportedSpawn.ierror plainWorld.errors
        r.errcodes r.world.errors := by
  have hiff := (error_codes_returned_iff plainSpawn (fun _ => true) true reportedSpawn
    (fun _ => 70000) plainWorld).2.1 oneCommand
  exact ⟨_, rfl, (hiff _ rfl).mpr fun _ _ => nofun⟩

end AbiWrapper.Ref
