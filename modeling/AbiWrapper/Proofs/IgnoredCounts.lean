import AbiWrapper.Proofs.InPlace
import Mathlib.Tactic.Tauto

/-!
# Scalar counts that are ignored

A fallback narrows every scalar count before it does anything else. Some of
these counts mean nothing in a given call — the send count of a process that
sends in place, the receive count of one that is not a gather's root — and an
application that passes one may leave it uninitialized. Two calls that differ
in nothing else are told apart where exactly one of them has an ignored count
that does not fit.
-/

namespace AbiWrapper.Ref

variable {c : Collective} {form : Form} {impl : Impl} {comm : Communicator} {q : CommQueries}
  {heap : Heap} {target : Call → Reply} {args : Args} {w : World} {ignored : Param → Bool}
  {number : Param → Int}

/-- What is seen of a body's run as to its call and its code. -/
def Body.outcome (b : Body) (ignored : Param → Bool) (impl : Impl) (q : CommQueries)
    (heap : Heap) (target : Call → Reply) (args : Args) (w : World) :
    Option (Option Call × Int32) :=
  (b.run impl q heap (fun call => target (call.significant ignored)) args w).map fun r =>
    (r.call.map (Call.significant ignored), r.code)

/-- All scalar counts that are ignored fit an `int`. -/
def ignoredFit (b : Body) (ignored : Param → Bool) (args : Args) : Prop :=
  ∀ p, (p, .count) ∈ b.params → ignored p = true → fitsInt (args.number p)

def significantFit (b : Body) (ignored : Param → Bool) (args : Args) : Prop :=
  ∀ p, (p, .count) ∈ b.params → ignored p = false → fitsInt (args.number p)

/-- Past the scalar counts, the body refuses with the code it refuses these
with: an array has an entry that is too large, or the implementation fails the
question for the arrays' lengths with that code. -/
def refusesArrays (b : Body) (impl : Impl) (q : CommQueries) (heap : Heap) (args : Args)
    (w : World) : Prop :=
  match b.extents impl args q with
  | .error ierror => (errorcodeToabi impl.errors ierror w.errors).1 = abiErrValueTooLarge
  | .ok len => b.memoryOk impl heap len = true ∧
      b.params.findSome? (paramStop args fun p => len (b.extentVar p)) = some .tooLarge

theorem scalarsFit_iff {b : Body} (ignored : Param → Bool) : b.scalarsFit args = true ↔
    significantFit b ignored args ∧ ignoredFit b ignored args := by
  simp only [Body.scalarsFit, List.all_eq_true, decide_eq_true_eq]
  constructor
  · intro h
    have hfit : ∀ p, (p, .count) ∈ b.params → fitsInt (args.number p) := by
      intro p hp
      exact (h _ hp).resolve_left (not_not.mpr rfl)
    exact ⟨fun p hp _ => hfit p hp, fun p hp _ => hfit p hp⟩
  · rintro ⟨hsig, hign⟩ ⟨p, kind⟩ hp
    by_cases hk : kind = .count
    · subst hk
      right
      cases hi : ignored p with
      | true => exact hign p hp hi
      | false => exact hsig p hp hi
    · exact .inl hk

/-! ## One run -/

theorem outcome_unfit {b : Body} (h : b.scalarsFit args = false) :
    b.outcome ignored impl q heap target args w = some (none, abiErrValueTooLarge) := by
  rw [Body.outcome, run_unfit h]
  rfl

/-- A run whose scalar counts fit ends like one whose do not exactly if the
arrays are refused. -/
theorem outcome_refused_iff {b : Body} (h : b.scalarsFit args = true) :
    b.outcome ignored impl q heap target args w = some (none, abiErrValueTooLarge) ↔
      refusesArrays b impl q heap args w := by
  rw [Body.outcome, refusesArrays]
  cases he : b.extents impl args q with
  | error ierror =>
      rw [run_query h he]
      simp [stopped, World.toabi]
  | ok len =>
  cases hm : b.memoryOk impl heap len with
  | false =>
      rw [run_memory h he hm]
      simp [stopped, hm]
      decide
  | true =>
      have hstop := @convertParams_stop impl args (fun p => len (b.extentVar p)) b.params
      rw [run_converted h he hm]
      simp only [← hstop]
      cases (convertParams impl args (fun p => len (b.extentVar p)) b.params).2 <;>
        simp [Body.conclude, finish_call, stopped, hm]

/-! ## Two runs -/

/-- The arguments with other counts and ranks. -/
def withNumbers (args : Args) (number : Param → Int) : Args := { args with number }

theorem paramStop_withNumbers {len : Param → Nat} :
    paramStop (withNumbers args number) len = paramStop args len := by
  funext ⟨p, kind⟩
  cases kind <;> rfl

theorem outcome_eq {b : Body} (hroot : number .root = args.number .root)
    (hsame : ∀ p kind, (p, kind) ∈ b.params → ignored p = false → number p = args.number p)
    (h : b.scalarsFit args = true) (h' : b.scalarsFit (withNumbers args number) = true) :
    b.outcome ignored impl q heap target args w =
      b.outcome ignored impl q heap target (withNumbers args number) w := by
  have hext : b.extents impl (withNumbers args number) q = b.extents impl args q := by
    simp [Body.extents, withNumbers, hroot]
  have hobs : (b.run impl q heap (fun c => target (c.significant ignored)) args w).map
        (·.observed ignored) =
      (b.run impl q heap (fun c => target (c.significant ignored)) (withNumbers args number)
        w).map (·.observed ignored) := by
    cases he : b.extents impl args q with
    | error ierror => rw [run_query h he, run_query h' (hext.trans he)]
    | ok len =>
    cases hm : b.memoryOk impl heap len with
    | false => rw [run_memory h he hm, run_memory h' (hext.trans he) hm]
    | true =>
        rw [run_converted h he hm, run_converted h' (hext.trans he) hm]
        rw [conclude_observed_iff]
        · rw [convertParams_stop, convertParams_stop, paramStop_withNumbers]
        · intro vals vals'
          refine convertParams_filter fun p kind hp hi => ?_
          have hnumber := hsame p kind hp hi
          cases kind with
          | count | rank => simp [convertParam, withNumbers, hnumber]
          | _ => rfl
  have hout := congrArg (Option.map fun r : BodyResult => (r.call, r.code)) hobs
  simpa [Body.outcome, Option.map_map, Function.comp_def, BodyResult.observed] using hout

theorem refusesArrays_withNumbers {b : Body} (hroot : number .root = args.number .root) :
    refusesArrays b impl q heap (withNumbers args number) w ↔
      refusesArrays b impl q heap args w := by
  have hext : b.extents impl (withNumbers args number) q = b.extents impl args q := by
    simp [Body.extents, withNumbers, hroot]
  rw [refusesArrays, refusesArrays, hext]
  simp only [paramStop_withNumbers]

/-- Two runs differ where the scalar counts stop one of them and the arrays do
not stop the other. -/
theorem outcome_eq_iff {b : Body} (hroot : number .root = args.number .root)
    (hsame : ∀ p kind, (p, kind) ∈ b.params → ignored p = false → number p = args.number p) :
    b.outcome ignored impl q heap target args w =
        b.outcome ignored impl q heap target (withNumbers args number) w ↔
      b.scalarsFit args = b.scalarsFit (withNumbers args number) ∨
        refusesArrays b impl q heap args w := by
  cases h : b.scalarsFit args with
  | true =>
      cases h' : b.scalarsFit (withNumbers args number) with
      | true => simp [outcome_eq hroot hsame h h']
      | false =>
          rw [outcome_unfit h', outcome_refused_iff h]
          simp
  | false =>
      rw [outcome_unfit h]
      cases h' : b.scalarsFit (withNumbers args number) with
      | true =>
          rw [eq_comm, outcome_refused_iff h', refusesArrays_withNumbers hroot]
          simp
      | false => simp [outcome_unfit h']

/-- Two calls that differ only in ignored scalar counts have the same outcome if
and only if the ignored counts fit in both or in neither, or a significant
scalar count does not fit, or the arrays are refused anyway. -/
theorem ignored_counts_iff
    (h : ∀ p, ignoredCount c comm args p = false → number p = args.number p) :
    (fallbackBody c form).outcome (ignoredCount c comm args) impl q heap target args w =
        (fallbackBody c form).outcome (ignoredCount c comm args) impl q heap target
          (withNumbers args number) w ↔
      (ignoredFit (fallbackBody c form) (ignoredCount c comm args) args ↔
        ignoredFit (fallbackBody c form) (ignoredCount c comm args)
          (withNumbers args number)) ∨
      ¬significantFit (fallbackBody c form) (ignoredCount c comm args) args ∨
      refusesArrays (fallbackBody c form) impl q heap args w := by
  have hroot : number .root = args.number .root := h .root rfl
  have hsig : significantFit (fallbackBody c form) (ignoredCount c comm args)
        (withNumbers args number) ↔
      significantFit (fallbackBody c form) (ignoredCount c comm args) args := by
    constructor <;> intro hs p hp hi
    · rw [← h p hi]
      exact hs p hp hi
    · show fitsInt (number p)
      rw [h p hi]
      exact hs p hp hi
  rw [outcome_eq_iff hroot fun p _ _ hi => h p hi, Bool.eq_iff_iff,
    scalarsFit_iff (ignoredCount c comm args), scalarsFit_iff (ignoredCount c comm args), hsig]
  tauto

def onlyRecvcount (n : Int) (p : Param) : Int := if p = .recvcount then n else 0

theorem onlyRecvcount_ignored {n : Int} (p : Param)
    (h : ignoredCount .gather rootPair (plainArgs 0) p = false) :
    onlyRecvcount n p = (plainArgs 0).number p := by
  cases p <;> first | rfl | exact nomatch h

/-- Of two processes the second is not the root, and its receive count can be
anything that fits. -/
theorem nonRoot_recvcount_ignored :
    (fallbackBody .gather .persistent).outcome (ignoredCount .gather rootPair (plainArgs 0))
        plainImpl rootPair.queries ample plainTarget (plainArgs 0) plainWorld =
      (fallbackBody .gather .persistent).outcome (ignoredCount .gather rootPair (plainArgs 0))
        plainImpl rootPair.queries ample plainTarget
        (withNumbers (plainArgs 0) (onlyRecvcount 1000)) plainWorld := by
  refine (ignored_counts_iff onlyRecvcount_ignored).mpr (.inl (iff_of_true ?_ ?_))
  · intro p _ _
    simp [plainArgs, fitsInt]
  · intro p _ _
    show fitsInt (onlyRecvcount 1000 p)
    rw [onlyRecvcount]
    split <;> decide

/-- One that does not fit keeps it from calling at all. -/
theorem nonRoot_recvcount_refused :
    ¬∀ number : Param → Int,
      (∀ p, ignoredCount .gather rootPair (plainArgs 0) p = false →
        number p = (plainArgs 0).number p) →
      (fallbackBody .gather .blocking).outcome (ignoredCount .gather rootPair (plainArgs 0))
          plainImpl rootPair.queries ample plainTarget (plainArgs 0) plainWorld =
        (fallbackBody .gather .blocking).outcome (ignoredCount .gather rootPair (plainArgs 0))
          plainImpl rootPair.queries ample plainTarget
          (withNumbers (plainArgs 0) number) plainWorld := by
  intro h
  exact absurd (h (onlyRecvcount (2147483648)) onlyRecvcount_ignored) (by decide)

end AbiWrapper.Ref
