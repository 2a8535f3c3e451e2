import AbiWrapper.Ref.Autobuf
import Mathlib.Logic.Relation

/-!
# The loops of the buffer table are its accesses, run to the end

`claimStep` and `unclaimStep` are what threads interleave; `autobufClaim` and
`autobufRelease` are what one thread sees. A call that nobody interrupts makes
its accesses one after the other until it returns, and has then done what the
loop does and freed what the loop frees.
-/

namespace AbiWrapper.Ref

open Relation

variable {slots left slot block : Nat} {scope : UInt64} {t : AutobufTable} {freed : List Nat}

/-- A claim makes its next access; what it frees is collected. -/
def ClaimAlone (slots : Nat) (scope : UInt64) (block : Nat)
    (p p' : ClaimPc × AutobufTable × List Nat) : Prop :=
  let (pc, t, freed) := claimStep slots scope block p.1 p.2.1
  p' = (pc, t, p.2.2 ++ freed.toList)

/-- What a claim that returns has made of the table, from what its loop has. -/
def claimEnd (block : Nat) (t : AutobufTable) (freed : List Nat) :
    Option AutobufTable → ClaimPc × AutobufTable × List Nat
  | some t' => (.ret true, t', freed)
  | none => (.ret false, t, freed ++ [block])

theorem claimLoop_alone (h : slot + left = slots) :
    ReflTransGen (ClaimAlone slots scope block) (claimNext slots slot, t, freed)
      (claimEnd block t freed (claimLoop scope block left slot t)) := by
  induction left generalizing slot with
  | zero =>
      have hdone : claimNext slots slot = .discard := if_neg (by omega)
      rw [hdone]
      exact .single rfl
  | succ left ih =>
      have hat : claimNext slots slot = .cas slot := if_pos (by omega)
      rw [hat, claimLoop]
      by_cases hvacant : t.scope slot = 0
      · rw [if_pos hvacant]
        have hcas : ClaimAlone slots scope block (.cas slot, t, freed)
            (.store slot, t.setScope slot scope, freed) := by
          simp [ClaimAlone, claimStep, hvacant]
        have hstore : ClaimAlone slots scope block (.store slot, t.setScope slot scope, freed)
            (.ret true, (t.setScope slot scope).setBlock slot (some block), freed) := by
          simp [ClaimAlone, claimStep]
        exact .head hcas (.single hstore)
      · rw [if_neg hvacant]
        have hcas : ClaimAlone slots scope block (.cas slot, t, freed)
            (claimNext slots (slot + 1), t, freed) := by
          simp [ClaimAlone, claimStep, hvacant]
        exact .head hcas (ih (by omega))

theorem autobufClaim_alone (hscope : scope ≠ 0) :
    ∃ pc, ReflTransGen (ClaimAlone slots scope block) (claimNext slots 0, t, [])
      (pc, (autobufClaim slots scope (some block) t).2.1,
        (autobufClaim slots scope (some block) t).2.2.toList) ∧
      pc = .ret (autobufClaim slots scope (some block) t).1.isSome := by
  have hloop : ReflTransGen (ClaimAlone slots scope block) (claimNext slots 0, t, [])
      (claimEnd block t [] (claimLoop scope block slots 0 t)) :=
    claimLoop_alone (Nat.zero_add slots)
  rw [autobufClaim, if_neg hscope]
  cases hc : claimLoop scope block slots 0 t with
  | some t' =>
      rw [hc] at hloop
      exact ⟨_, hloop, rfl⟩
  | none =>
      rw [hc] at hloop
      exact ⟨_, hloop, rfl⟩

/-- A release makes its next access; what it frees is collected. -/
def UnclaimAlone (slots : Nat) (scope : UInt64)
    (p p' : UnclaimPc × AutobufTable × List Nat) : Prop :=
  let (pc, t, freed) := unclaimStep slots scope p.1 p.2.1
  p' = (pc, t, p.2.2 ++ freed.toList)

theorem unclaimLoop_alone (h : slot + left = slots) :
    ReflTransGen (UnclaimAlone slots scope) (unclaimNext slots slot, t, freed)
      (.ret (unclaimLoop scope left slot t).2.isSome, (unclaimLoop scope left slot t).1,
        freed ++ (unclaimLoop scope left slot t).2.toList) := by
  induction left generalizing slot t with
  | zero =>
      have hdone : unclaimNext slots slot = .ret false := if_neg (by omega)
      rw [hdone, unclaimLoop, Option.toList_none, List.append_nil]
      exact .refl
  | succ left ih =>
      have hat : unclaimNext slots slot = .load slot := if_pos (by omega)
      rw [hat, unclaimLoop]
      by_cases hother : t.scope slot ≠ scope
      · rw [if_pos hother]
        have hload : UnclaimAlone slots scope (.load slot, t, freed)
            (unclaimNext slots (slot + 1), t, freed) := by
          simp [UnclaimAlone, unclaimStep, hother]
        exact .head hload (ih (by omega))
      · rw [if_neg hother]
        have hload : UnclaimAlone slots scope (.load slot, t, freed) (.swap slot, t, freed) := by
          simp [UnclaimAlone, unclaimStep, not_not.mp hother]
        cases hb : t.block slot with
        | none =>
            have hswap : UnclaimAlone slots scope (.swap slot, t, freed)
                (unclaimNext slots (slot + 1), t.setBlock slot none, freed) := by
              simp [UnclaimAlone, unclaimStep, hb]
            exact .head hload (.head hswap (ih (by omega)))
        | some block =>
            have hswap : UnclaimAlone slots scope (.swap slot, t, freed)
                (.clear slot block, t.setBlock slot none, freed) := by
              simp [UnclaimAlone, unclaimStep, hb]
            have hclear : UnclaimAlone slots scope
                (.clear slot block, t.setBlock slot none, freed)
                (.free block, (t.setBlock slot none).setScope slot 0, freed) := by
              simp [UnclaimAlone, unclaimStep]
            exact .head hload (.head hswap (.head hclear (.single rfl)))

theorem autobufRelease_alone :
    ReflTransGen (UnclaimAlone slots scope) (unclaimNext slots 0, t, [])
      (.ret (autobufRelease slots scope t).2.isSome, (autobufRelease slots scope t).1,
        (autobufRelease slots scope t).2.toList) := unclaimLoop_alone (Nat.zero_add slots)

end AbiWrapper.Ref
