import AbiWrapper.Ref.Staging
import Mathlib.Logic.Relation

/-!
# The loops are the accesses, run to the end

`attachStep` and `releaseStep` are what threads interleave; `stagedAttach` and
`stagedRelease` are what one thread sees. An operation that nobody interrupts
makes its accesses one after the other until it returns, and has then done what
the loop does.
-/

namespace AbiWrapper.Ref

open Relation

variable {slots : Nat} {key : UInt64} {block : Option Block} {t : StagedTable}
  {probe left slot : Nat}

/-! ## Attaching -/

/-- An attach makes its next access. -/
def AttachAlone (slots : Nat) (key : UInt64) (block : Option Block)
    (p p' : AttachPc × StagedTable) : Prop :=
  attachStep slots key block p.1 p.2 = p'

/-- An attach with `left` probes to make. -/
def attachAt (probe left slot : Nat) : AttachPc :=
  if 0 < left then .load probe slot else .ret .full

theorem attachNext_eq (h : probe + (left + 1) = slots) :
    attachNext slots probe slot = attachAt (probe + 1) left ((slot + 1) % slots) := by
  rw [attachNext, attachAt]
  exact if_congr (by omega) rfl rfl

theorem attachLoop_alone (h : probe + left = slots) :
    ReflTransGen (AttachAlone slots key block) (attachAt probe left slot, t)
      (.ret (attachLoop slots key block left slot t).1,
        (attachLoop slots key block left slot t).2) := by
  induction left generalizing probe slot with
  | zero => exact .refl
  | succ left ih =>
      have hat : attachAt probe (left + 1) slot = .load probe slot := if_pos (Nat.succ_pos left)
      rw [hat, attachLoop]
      by_cases hfree : t.key slot = keyEmpty ∨ t.key slot = keyTomb
      · rw [if_pos hfree]
        have hload : AttachAlone slots key block (.load probe slot, t)
            (.cas probe slot (t.key slot), t) := if_pos hfree
        have hcas : AttachAlone slots key block (.cas probe slot (t.key slot), t)
            (.store slot, t.setKey slot key) := if_pos rfl
        exact .head hload (.head hcas (.head rfl (.head rfl .refl)))
      · rw [if_neg hfree]
        by_cases hdup : t.key slot = key
        · rw [if_pos hdup]
          have hload : AttachAlone slots key block (.load probe slot, t) (.ret .duplicate, t) :=
            (if_neg hfree).trans (if_pos hdup)
          exact .single hload
        · rw [if_neg hdup]
          have hload : AttachAlone slots key block (.load probe slot, t)
              (attachAt (probe + 1) left ((slot + 1) % slots), t) :=
            (if_neg hfree).trans ((if_neg hdup).trans (by rw [attachNext_eq h]))
          exact .head hload (ih (by omega))

theorem stagedAttach_alone :
    ReflTransGen (AttachAlone slots key block) (attachStart slots key, t)
      (.ret (stagedAttach slots key block t).1, (stagedAttach slots key block t).2) := by
  rw [attachStart, stagedAttach]
  by_cases hkey : reservedKey key
  · rw [if_pos hkey, if_pos hkey]
  · rw [if_neg hkey, if_neg hkey]
    exact attachLoop_alone (Nat.zero_add slots)

/-! ## Releasing -/

/-- A release makes its next access; what it frees is collected. -/
def ReleaseAlone (slots : Nat) (key : UInt64)
    (p p' : ReleasePc × StagedTable × List Block) : Prop :=
  let (pc, t, freed) := releaseStep slots key p.1 p.2.1
  p' = (pc, t, p.2.2 ++ freed.toList)

/-- A release with `left` probes to make. -/
def releaseAt (probe left slot : Nat) : ReleasePc :=
  if 0 < left then .load probe slot else .ret

theorem releaseNext_eq (h : probe + (left + 1) = slots) :
    releaseNext slots probe slot = releaseAt (probe + 1) left ((slot + 1) % slots) := by
  rw [releaseNext, releaseAt]
  exact if_congr (by omega) rfl rfl

theorem releaseLoop_alone (h : probe + left = slots) :
    ReflTransGen (ReleaseAlone slots key) (releaseAt probe left slot, t, [])
      (.ret, (releaseLoop slots key left slot t).1,
        (releaseLoop slots key left slot t).2.toList) := by
  induction left generalizing probe slot with
  | zero => exact .refl
  | succ left ih =>
      have hat : releaseAt probe (left + 1) slot = .load probe slot := if_pos (Nat.succ_pos left)
      rw [hat, releaseLoop]
      by_cases hempty : t.key slot = keyEmpty
      · rw [if_pos hempty]
        have hload : ReleaseAlone slots key (.load probe slot, t, []) (.ret, t, []) := by
          simp [ReleaseAlone, releaseStep, hempty]
        exact .single hload
      · rw [if_neg hempty]
        by_cases hother : t.key slot = key
        · rw [if_neg (not_not.mpr hother)]
          have hne : key ≠ keyEmpty := hother ▸ hempty
          have hload : ReleaseAlone slots key (.load probe slot, t, []) (.cas slot, t, []) := by
            simp [ReleaseAlone, releaseStep, hother, hne]
          have hcas : ReleaseAlone slots key (.cas slot, t, [])
              (.swap slot, t.setKey slot keyLocked, []) := by
            simp [ReleaseAlone, releaseStep, hother]
          exact .head hload (.head hcas (.head rfl (.head rfl (.head rfl (.head rfl .refl)))))
        · rw [if_pos hother]
          have hload : ReleaseAlone slots key (.load probe slot, t, [])
              (releaseAt (probe + 1) left ((slot + 1) % slots), t, []) := by
            simp [ReleaseAlone, releaseStep, hempty, hother, releaseNext_eq h]
          exact .head hload (ih (by omega))

theorem stagedRelease_alone :
    ReflTransGen (ReleaseAlone slots key) (.any, t, [])
      (.ret, (stagedRelease slots key t).1, (stagedRelease slots key t).2.toList) := by
  rw [stagedRelease]
  cases hany : stagedAny t with
  | true =>
      refine .head (b := (releaseAt 0 slots (stagedHome slots key), t, [])) ?_
        (releaseLoop_alone (Nat.zero_add slots))
      by_cases hs : 0 < slots <;> simp [ReleaseAlone, releaseStep, hany, hs, releaseAt]
  | false =>
      have hret : ReleaseAlone slots key (.any, t, []) (.ret, t, []) := by
        simp [ReleaseAlone, releaseStep, hany]
      exact .single hret

end AbiWrapper.Ref
