import AbiWrapper.Proofs.HandleBijection
import AbiWrapper.Ref.Significance

/-!
# What converting the parameters does

The loops of a body, once for all of them. A conversion stops at the first
entry that is missing or too large, and `arrayStop` finds that entry without
running the loop. A conversion that does not stop has read every array to its
end; one that stops has read no array further than that.

The two-run lemma says that the arguments which reach a call depend on their
own parameters alone.
-/

namespace AbiWrapper.Ref

/-- Why a conversion stops. -/
inductive Stop
  | fault | tooLarge
deriving DecidableEq, Repr

def Scan.stop {α : Type} : Scan α → Option Stop
  | .ok _ => none
  | .fault => some .fault
  | .tooLarge => some .tooLarge

@[simp] theorem Scan.stop_ok {α : Type} {a : α} : (Scan.ok a).stop = none := rfl
@[simp] theorem Scan.stop_fault {α : Type} : (Scan.fault : Scan α).stop = some .fault := rfl
@[simp] theorem Scan.stop_tooLarge {α : Type} :
    (Scan.tooLarge : Scan α).stop = some .tooLarge := rfl

@[simp] theorem Scan.stop_map {α β : Type} {f : α → β} {s : Scan α} :
    (s.map f).stop = s.stop := by
  cases s <;> rfl

theorem Scan.stop_eq_none {α : Type} {s : Scan α} : s.stop = none ↔ ∃ a, s = .ok a := by
  cases s <;> simp [Scan.stop]

/-- Why the narrowing loop stops at an entry. -/
def countStop : Option Int → Option Stop
  | none => some .fault
  | some n => if fitsInt n then none else some .tooLarge

/-- Why the narrowing loop stops in an array of a given length. -/
def arrayStop (array : Nat → Option Int) (len : Nat) : Option Stop :=
  (List.range len).findSome? fun i => countStop (array i)

/-- The loop that converts datatypes stops at a missing entry only. -/
def typesStop (array : Nat → Option UInt64) (len : Nat) : Option Stop :=
  (List.range len).findSome? fun i => if (array i).isNone then some .fault else none

/-! ## One array -/

section Loops

variable {impl : Impl} {array : Nat → Option Int} {abiTypes : Nat → Option UInt64} {i len : Nat}

theorem narrowLoop_reads_le : (narrowLoop array i len).1 ≤ len := by
  induction len generalizing i with
  | zero => exact Nat.le_refl 0
  | succ len ih =>
      have h := @ih (i + 1)
      rw [narrowLoop]
      split
      · simp
      · split
        · simp only []
          omega
        · simp

theorem narrowLoop_reads_of_ok (h : (narrowLoop array i len).2.stop = none) :
    (narrowLoop array i len).1 = len := by
  induction len generalizing i with
  | zero => rfl
  | succ len ih =>
      rw [narrowLoop] at h ⊢
      split at h
      · simp [Scan.stop] at h
      · split at h
        · next hfit =>
            simp only [Scan.stop_map] at h
            simp [hfit, ih h]
        · simp [Scan.stop] at h

theorem narrowLoop_stop : (narrowLoop array i len).2.stop =
    (List.range' i len).findSome? fun i => countStop (array i) := by
  induction len generalizing i with
  | zero => rfl
  | succ len ih =>
      rw [narrowLoop, List.range'_succ, List.findSome?_cons]
      cases h : array i with
      | none => rfl
      | some n =>
          by_cases hfit : fitsInt n
          · simp [countStop, hfit, ih]
          · simp [countStop, hfit, Scan.stop]

theorem typesLoop_reads_le : (typesLoop impl abiTypes i len).1 ≤ len := by
  induction len generalizing i with
  | zero => exact Nat.le_refl 0
  | succ len ih =>
      have h := @ih (i + 1)
      rw [typesLoop]
      split
      · simp
      · simp only []
        omega

theorem typesLoop_stop : (typesLoop impl abiTypes i len).2.stop =
    (List.range' i len).findSome? fun i =>
      if (abiTypes i).isNone then some .fault else none := by
  induction len generalizing i with
  | zero => rfl
  | succ len ih =>
      rw [typesLoop, List.range'_succ, List.findSome?_cons]
      cases h : abiTypes i with
      | none => rfl
      | some abi => simp [ih]

end Loops

/-! ## One parameter -/

def paramStop (args : Args) (len : Param → Nat) : Param × ParamKind → Option Stop
  | (p, .counts) => arrayStop (args.counts p) (len p)
  | (p, .types ignoredInPlace) =>
      if ignoredInPlace ∧ args.pointer .sendbuf = abiInPlace then none
      else typesStop (args.types p) (len p)
  | _ => none

variable {impl : Impl} {args args' : Args} {len : Param → Nat}
  {params : List (Param × ParamKind)} {p : Param} {kind : ParamKind}

theorem convertParam_stop : (convertParam impl args (len p) p kind).2.stop =
    paramStop args len (p, kind) := by
  cases kind with
  | counts =>
      simp only [convertParam, paramStop, arrayStop, List.range_eq_range', Scan.stop_map]
      exact narrowLoop_stop
  | types ignoredInPlace =>
      simp only [convertParam, paramStop, typesStop, List.range_eq_range']
      split
      · rfl
      · rw [Scan.stop_map]
        exact typesLoop_stop
  | _ => rfl

theorem convertParam_reads_le {n : Nat} : (convertParam impl args n p kind).1 ≤ n := by
  cases kind with
  | counts => exact narrowLoop_reads_le
  | types ignoredInPlace =>
      rw [convertParam]
      split
      · exact Nat.zero_le n
      · exact typesLoop_reads_le
  | _ => exact Nat.zero_le n

/-! ## All parameters -/

theorem convertParams_cons_ok {val : ArgVal}
    (h : (convertParam impl args (len p) p kind).2 = .ok val) :
    convertParams impl args len ((p, kind) :: params) =
      ((p, (convertParam impl args (len p) p kind).1) :: (convertParams impl args len params).1,
        (convertParams impl args len params).2.map ((p, val) :: ·)) := by
  rw [convertParams]
  simp only [h]

theorem convertParams_cons_stop (h : (convertParam impl args (len p) p kind).2.stop ≠ none) :
    (convertParams impl args len ((p, kind) :: params)).1 =
        [(p, (convertParam impl args (len p) p kind).1)] ∧
      (convertParams impl args len ((p, kind) :: params)).2.stop =
        (convertParam impl args (len p) p kind).2.stop := by
  rw [convertParams]
  cases hval : (convertParam impl args (len p) p kind).2 with
  | ok val => simp [hval] at h
  | fault => simp only [hval, Scan.stop_fault, and_self]
  | tooLarge => simp only [hval, Scan.stop_tooLarge, and_self]

theorem convertParams_stop : (convertParams impl args len params).2.stop =
    params.findSome? (paramStop args len) := by
  induction params with
  | nil => rfl
  | cons pk rest ih =>
      obtain ⟨p, kind⟩ := pk
      rw [List.findSome?_cons, ← @convertParam_stop impl, ← ih]
      cases hstop : (convertParam impl args (len p) p kind).2.stop with
      | none =>
          obtain ⟨val, hval⟩ := Scan.stop_eq_none.mp hstop
          rw [convertParams_cons_ok hval, Scan.stop_map]
      | some stop =>
          rw [(convertParams_cons_stop (by simp [hstop])).2, hstop]

@[simp] theorem entriesRead_cons {n : Nat} {q : Param} {log : List (Param × Nat)} :
    entriesRead ((q, n) :: log) p = if p = q then n else entriesRead log p := by
  by_cases h : p = q
  · simp [entriesRead, h]
  · have hne : (p == q) = false := by simpa using h
    simp [entriesRead, List.lookup_cons, h, hne]

@[simp] theorem entriesRead_nil : entriesRead [] p = 0 := rfl

theorem convertParams_cons_eq_ok {vals : List (Param × ArgVal)}
    (h : (convertParams impl args len ((p, kind) :: params)).2 = .ok vals) :
    ∃ val rest, (convertParam impl args (len p) p kind).2 = .ok val ∧
      (convertParams impl args len params).2 = .ok rest ∧ vals = (p, val) :: rest := by
  cases hval : (convertParam impl args (len p) p kind).2 with
  | ok val =>
      rw [convertParams_cons_ok hval] at h
      cases hrest : (convertParams impl args len params).2 with
      | ok rest =>
          rw [hrest] at h
          exact ⟨val, rest, rfl, rfl, (Scan.ok.inj h).symm⟩
      | fault => rw [hrest] at h; exact nomatch h
      | tooLarge => rw [hrest] at h; exact nomatch h
  | fault => rw [convertParams] at h; simp [hval] at h
  | tooLarge => rw [convertParams] at h; simp [hval] at h

theorem entriesRead_le : entriesRead (convertParams impl args len params).1 p ≤ len p := by
  induction params with
  | nil => exact Nat.zero_le _
  | cons pk rest ih =>
      obtain ⟨q, kind⟩ := pk
      have hle := @convertParam_reads_le impl args q kind (len q)
      cases hstop : (convertParam impl args (len q) q kind).2.stop with
      | none =>
          obtain ⟨val, hval⟩ := Scan.stop_eq_none.mp hstop
          rw [convertParams_cons_ok hval, entriesRead_cons]
          split
          · next h => exact h ▸ hle
          · exact ih
      | some stop =>
          rw [(convertParams_cons_stop (by simp [hstop])).1, entriesRead_cons]
          split
          · next h => exact h ▸ hle
          · simp

/-- An array whose conversion does not stop is read to its end. -/
theorem entriesRead_of_ok (hok : (convertParams impl args len params).2.stop = none)
    (hmem : (p, .counts) ∈ params) (hnodup : (params.map Prod.fst).Nodup) :
    entriesRead (convertParams impl args len params).1 p = len p := by
  induction params with
  | nil => simp at hmem
  | cons pk rest ih =>
      obtain ⟨q, kind⟩ := pk
      rw [List.map_cons, List.nodup_cons] at hnodup
      have hstop : (convertParam impl args (len q) q kind).2.stop = none := by
        rw [convertParams_stop, List.findSome?_cons, ← @convertParam_stop impl] at hok
        split at hok
        · exact nomatch hok
        · assumption
      obtain ⟨val, hval⟩ := Scan.stop_eq_none.mp hstop
      rw [convertParams_cons_ok hval] at hok ⊢
      rw [Scan.stop_map] at hok
      rw [entriesRead_cons]
      rcases List.mem_cons.mp hmem with heq | hrest
      · obtain ⟨rfl, rfl⟩ := Prod.mk.inj heq
        have hnarrow : (narrowLoop (args.counts p) 0 (len p)).2.stop = none := by
          rw [convertParam, Scan.stop_map] at hstop
          exact hstop
        rw [if_pos rfl]
        exact narrowLoop_reads_of_ok hnarrow
      · have hp : p ∈ rest.map Prod.fst := List.mem_map_of_mem hrest
        have hne : p ≠ q := fun h => hnodup.1 (h ▸ hp)
        rw [if_neg hne]
        exact ih hok hrest hnodup.2

/-- Two runs that both reach a call make it with the same arguments for every
parameter that converts the same in both. -/
theorem convertParams_filter {ignored : Param → Bool} {vals vals' : List (Param × ArgVal)}
    (hsame : ∀ p kind, (p, kind) ∈ params → ignored p = false →
      (convertParam impl args (len p) p kind).2 = (convertParam impl args' (len p) p kind).2)
    (h : (convertParams impl args len params).2 = .ok vals)
    (h' : (convertParams impl args' len params).2 = .ok vals') :
    vals.filter (fun a => !ignored a.1) = vals'.filter (fun a => !ignored a.1) := by
  induction params generalizing vals vals' with
  | nil =>
      cases h
      cases h'
      rfl
  | cons pk rest ih =>
      obtain ⟨p, kind⟩ := pk
      obtain ⟨val, rvals, hval, hrest, rfl⟩ := convertParams_cons_eq_ok h
      obtain ⟨val', rvals', hval', hrest', rfl⟩ := convertParams_cons_eq_ok h'
      have hrec := ih (fun p kind hm => hsame p kind (List.mem_cons_of_mem _ hm)) hrest hrest'
      cases hi : ignored p with
      | true => simpa [hi] using hrec
      | false =>
          have hsame := hsame p kind List.mem_cons_self hi
          rw [hval, hval', Scan.ok.injEq] at hsame
          simp [hi, hsame, hrec]

/-! ## Up to the call -/

/-- What the conversions' end makes of a body. -/
def Body.converted (b : Body) (nstaged : Nat) : Scan (List (Param × ArgVal)) → Prepared
  | .ok vals => .call ⟨b.coll, b.form, vals⟩ nstaged
  | .tooLarge => .tooLarge
  | .fault => .fault

section Prepare

variable {b : Body} {q : CommQueries} {heap : Heap} {len : ExtentVar → Nat}

theorem prepare_unfit (h : b.scalarsFit args = false) :
    b.prepare impl q heap args = ([], .tooLarge) := by
  simp [Body.prepare, h]

theorem prepare_query {ierror : Int32} (h : b.scalarsFit args = true)
    (he : b.extents impl args q = .error ierror) :
    b.prepare impl q heap args = ([], .queryError ierror) := by
  simp [Body.prepare, h, he]

theorem prepare_memory (h : b.scalarsFit args = true) (he : b.extents impl args q = .ok len)
    (hm : b.memoryOk impl heap len = false) :
    b.prepare impl q heap args = ([], .noMemory) := by
  simp [Body.prepare, h, he, hm]

theorem prepare_converted (h : b.scalarsFit args = true)
    (he : b.extents impl args q = .ok len) (hm : b.memoryOk impl heap len = true) :
    b.prepare impl q heap args =
      ((convertParams impl args (fun p => len (b.extentVar p)) b.params).1,
        b.converted (b.nstaged len)
          (convertParams impl args (fun p => len (b.extentVar p)) b.params).2) := by
  simp only [Body.prepare, h, he, hm, if_true]
  rcases convertParams impl args (fun p => len (b.extentVar p)) b.params with ⟨log, vals⟩
  cases vals <;> rfl

end Prepare

/-! ## A process without troubles -/

def plainHandles : ImplHandles := ⟨fun _ => true, id⟩

def plainMaps : Rmaps :=
  match initReverseMaps plainHandles with
  | .ok maps => maps
  | .error _ => Rmaps.static

theorem plainMaps_built : initReverseMaps plainHandles = .ok plainMaps := by
  have hok : (initReverseMaps plainHandles).toBool = true := by decide +kernel
  rw [plainMaps]
  cases h : initReverseMaps plainHandles with
  | ok maps => rfl
  | error e => exact absurd hok (by simp [h, Except.toBool])

/-- An implementation with the ABI's values throughout. -/
def plainImpl : Impl where
  errors := ⟨fun _ => true, id, fun _ _ _ _ _ _ h => h, by decide +kernel⟩
  handles := plainHandles
  maps := plainMaps
  built := plainMaps_built
  ranks := ⟨abiAnySource, abiProcNull, abiRoot, abiUndefined, by decide, by decide⟩
  bottom := abiBottom
  inPlace := abiInPlace
  datatypeSize := 8
  slots := stagedRequestSlots

/-- Of the handles that are nobody's constants it leaves those that are out of
the reserved window. -/
theorem plain_translates {c : HandleClass} {bits : UInt64} (hc : c ∈ plainImpl.handles.classes)
    (hb : bits ≠ rmapEmpty)
    (hall : (plainImpl.handles.predef c).all (fun p => p.2 != bits) = true) :
    handleToabi plainImpl.maps c bits false =
      if inPredefRange bits then (abiNull c, true) else (bits, false) := by
  have ht := translates plainImpl.built hc hb
  split
  · next hr => exact ht.hidden (predef_ne hall) hr false
  · next hr => exact (ht.dynamic (predef_ne hall) hr false).1

/-- A caller all of whose arrays are there and small. -/
def plainArgs (root : Int) : Args where
  pointer _ := abiBottom
  number p := if p = .root then root else 0
  handle _ := 0
  counts _ _ := some 0
  types _ _ := some 0

/-- A process with memory. -/
def ample : Heap := ⟨fun _ => true, some 0⟩

theorem plainArgs_stop {root : Int} {len : Param → Nat} {params : List (Param × ParamKind)} :
    params.findSome? (paramStop (plainArgs root) len) = none := by
  rw [List.findSome?_eq_none_iff]
  rintro ⟨p, kind⟩ -
  cases kind <;> simp [paramStop, plainArgs, arrayStop, typesStop, countStop, fitsInt]

theorem ample_memoryOk {b : Body} {len : ExtentVar → Nat} :
    b.memoryOk impl ample len = true := by
  cases h : b.form <;> simp [Body.memoryOk, Body.stageOk, ample, h]

/-- An implementation that succeeds at once. -/
def plainTarget (_ : Call) : Reply := ⟨0, 0x84000001, ⟨0, true⟩⟩

def plainWorld : World := ⟨.empty, false, .init⟩

end AbiWrapper.Ref
