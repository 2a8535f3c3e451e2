import AbiWrapper.Proofs.Conversion
import AbiWrapper.Proofs.ErrorHistory
import AbiWrapper.Ref.Spawn

/-!
# Root arguments away from the root

Both bodies look at arguments that mean nothing where they run. What they do
with them is the same for all processes, so it is enough to ask when a body
gets to its call, and how many entries of the caller's arrays it has read by
then. From the call on, the implementation does not see the difference between
two runs, but the bodies convert as many error codes as they think there are
before they convert the call's own, and a code that is entered takes the next
number. So two lengths make a difference to an implementation whose entries have
an error that it has not returned before (`exists_seen`), unless the table is
full or the code is not the call's at all.
-/

namespace AbiWrapper.Ref

open AbiWrapper.Lib

section Codes

variable {impl : ImplErrors} {t : ErrorTable} {e e' : Int32}

/-- A code that has no name and is not in the table. -/
structure Unnamed (impl : ImplErrors) (t : ErrorTable) (e : Int32) : Prop where
  ne_zero : e ≠ 0
  row : rowOfCode impl e = none
  find : t.find e = none

/-- Such a code is given the next number. -/
theorem Unnamed.toabi (h : Unnamed impl t e) (hroom : t.count < errorcodeSlots) :
    (errorcodeToabi impl e t).1 = codeOf errorcodeAbiBase t.count ∧
      (errorcodeToabi impl e t).2.count = t.count + 1 ∧
      ∀ e', e' ≠ e → t.find e' = none → (errorcodeToabi impl e t).2.find e' = none := by
  have hcases := toabi_cases impl t e
  generalize errorcodeToabi impl e t = ans at hcases ⊢
  obtain ⟨abi, t'⟩ := ans
  dsimp only at hcases ⊢
  cases hcases with
  | success h0 => exact absurd h0 h.ne_zero
  | row _ hr => exact nomatch h.row.symm.trans hr
  | known _ _ hf => exact nomatch h.find.symm.trans hf
  | interned _ _ _ ha =>
      obtain ⟨rfl, -, hcount, -⟩ := Registry.append_eq_some ha
      exact ⟨rfl, hcount, fun e' hne hf => (Registry.append_find_of_ne ha hne).trans hf⟩
  | refused _ _ _ hfull => omega

theorem convertAll_extends {codes : List Int32} : t.Extends (convertAll impl codes t).2 := by
  induction codes generalizing t with
  | nil => exact .refl t
  | cons code rest ih => exact (toabi_cases impl t code).extends.trans ih

end Codes

variable {impl : SpawnImpl} {malloc : Nat → Bool} {target : SeenSpawn → SpawnReply} {w : World}

theorem errcodesLoop_convertAll {errcodes : Nat → Int32} {i left : Nat} {impl : Impl} :
    errcodesLoop impl errcodes i left w =
      ((convertAll impl.errors ((List.range' i left).map errcodes) w.errors).1,
        { w with errors :=
          (convertAll impl.errors ((List.range' i left).map errcodes) w.errors).2 }) := by
  induction left generalizing i w with
  | zero => rfl
  | succ left ih =>
      simp only [errcodesLoop, ih, List.range'_succ, List.map_cons, convertAll, World.toabi]

/-! ## From the call on -/

/-- A spawn gets to its call: what it makes of the arguments by then. -/
def SpawnArgs.reaches (malloc : Nat → Bool) (args : SpawnArgs) : Prop :=
  0 ≤ args.maxprocs ∧
    (args.ignore = true ∨ spawnStageOk malloc 4 args.maxprocs.toNat = true)

def SpawnArgs.call (impl : SpawnImpl) (args : SpawnArgs) : SpawnCall where
  rootArgs := .single args.command
    (if args.argv = abiArgvNull then impl.argvNull else args.argv) args.maxprocs
    (handleFromabi impl.handles .info args.info)
  root := rankFromabi impl.ranks args.root
  comm := handleFromabi impl.handles .comm args.comm
  errcodes := !args.ignore

variable {args args' : SpawnArgs}

theorem commSpawn_reaches {atRoot : Bool} (h : args.reaches malloc) :
    commSpawn impl malloc atRoot target args w =
      finishSpawn impl.toImpl (args.call impl) (if args.ignore then 0 else args.maxprocs.toNat) 0
        (target ((args.call impl).seen atRoot)) w := by
  obtain ⟨hpos, hstage⟩ := h
  rw [commSpawn, if_neg (by omega), if_neg]
  · rfl
  · rcases hstage with h | h <;> simp [h]

section Multiple

variable {args args' : SpawnMultipleArgs}

end Multiple

/-! ## Both -/

def plainSpawn : SpawnImpl := ⟨plainImpl, abiArgvNull, abiArgvNull, 8⟩

/-- A call at the second process, where `maxprocs` is what it is. -/
def leafArgs (maxprocs : Int) (ignore : Bool) : SpawnArgs :=
  ⟨0, 0, maxprocs, 0x130, 0, 0x101, ignore⟩

end AbiWrapper.Ref
