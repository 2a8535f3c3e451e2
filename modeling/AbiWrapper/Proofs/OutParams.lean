import AbiWrapper.Ref.OutParams

/-!
# When the outputs of a body are defined

A body stores the conversion of a local, or something that does not depend on
the stack at all. So an output is defined unless the local has no value of its
own and nothing was written there, which is a matter of the parameter's class,
of the caller's arguments and of the implementation.

Every early return is sound, whatever it is for, and so is every output of a
class whose local starts with a value. What is left are the handles and arrays
of a call that reported success, and the classes that are stored whether it did
or not.
-/

namespace AbiWrapper.Ref

/-! ## One cell -/

/-- The stack reaches a cell through a local without a value alone. -/
theorem held_eq {ep : EntryPoint} (cv : Conversions) (args : CallerArgs) {answers : Answers}
    {p : OutParam} {i : Nat}
    (h : ep.uninitialised p = true → (answers.wrote p.name i).isSome = true) :
    ∃ v, ∀ stack, ep.held cv stack args answers p i = some v := by
  cases hw : answers.wrote p.name i with
  | some v =>
      refine ⟨v, ?_⟩
      intro stack
      simp only [EntryPoint.held, hw]
  | none =>
      have hi : ep.uninitialised p = false := by
        rw [hw] at h
        simpa using h
      refine ⟨EntryPoint.initial cv args p i, ?_⟩
      intro stack
      simp only [EntryPoint.held, hw, hi]
      rfl

theorem held_blank {ep : EntryPoint} {cv : Conversions} {args : CallerArgs} {answers : Answers}
    {p : OutParam} {i : Nat} (hi : ep.uninitialised p = true)
    (hw : answers.wrote p.name i = none) :
    ep.held cv (fun _ _ => none) args answers p i = none := by
  simp only [EntryPoint.held, hw, hi]
  rfl

theorem leaves_defined_iff (ep : EntryPoint) (cv : Conversions) (args : CallerArgs)
    (answers : Answers) (p : OutParam) (i : Nat) :
    (∃ v, ∀ stack, ep.leaves cv stack args answers p i = some v) ↔
      (ep.converts args answers p i = true → ep.uninitialised p = true →
        (answers.wrote p.name i).isSome = true) := by
  constructor
  · intro ⟨v, hv⟩ hc hi
    cases hw : answers.wrote p.name i with
    | some _ => rfl
    | none =>
        have hblank := hv fun _ _ => none
        simp only [EntryPoint.leaves, hc, held_blank hi hw] at hblank
        exact nomatch hblank
  · intro h
    cases hc : ep.converts args answers p i with
    | false =>
        refine ⟨ep.kept cv args answers p i, ?_⟩
        intro stack
        simp [EntryPoint.leaves, hc]
    | true =>
        obtain ⟨v, hv⟩ := held_eq cv args (h hc)
        refine ⟨EntryPoint.convert cv p (ep.entry cv args p i) v, ?_⟩
        intro stack
        simp [EntryPoint.leaves, hc, hv stack]

/-! ## A body -/

/-- The bodies that never call the implementation. -/
theorem defined_of_form (ep : EntryPoint) (cv : Conversions) {form : BodyForm}
    (args : CallerArgs) (answers : Answers) (h : form ≠ .emitted) :
    OutputsDefined ep cv form args answers := by
  intro p _ i
  cases form with
  | emitted => exact absurd rfl h
  | stub => exact ⟨_, fun _ => rfl⟩
  | getField field param => exact ⟨_, fun _ => rfl⟩
  | setField field param => exact ⟨_, fun _ => rfl⟩

/-- Every return before the call. -/
theorem defined_of_refusal {ep : EntryPoint} (cv : Conversions) {args : CallerArgs}
    {answers : Answers} {exit : BodyExit} (h : ep.refusal args answers = some exit) :
    OutputsDefined ep cv .emitted args answers := by
  intro p _ i
  refine ⟨ep.outDefined cv args p i (args.memory p.name i), ?_⟩
  intro stack
  simp only [EntryPoint.run, h]

theorem defined_of_call {ep : EntryPoint} {cv : Conversions} {args : CallerArgs}
    {answers : Answers} (h : ep.refusal args answers = none) :
    OutputsDefined ep cv .emitted args answers ↔ Answered ep args answers := by
  simp only [OutputsDefined, EntryPoint.run, h]
  constructor
  · intro hd p hp i
    exact (leaves_defined_iff ep cv args answers p i).mp (hd p hp i)
  · intro ha p hp i
    exact (leaves_defined_iff ep cv args answers p i).mpr (ha p hp i)

theorem emitted_defined_iff (ep : EntryPoint) (cv : Conversions) (args : CallerArgs)
    (answers : Answers) :
    OutputsDefined ep cv .emitted args answers ↔
      (ep.refusal args answers = none → Answered ep args answers) := by
  cases hr : ep.refusal args answers with
  | none =>
      rw [defined_of_call hr]
      simp
  | some exit =>
      have hd := defined_of_refusal cv hr
      simp [hd]

/-- Every parameter list, every form of a body and every way through it: the
outputs are defined exactly when the body returns before its call, or the
implementation wrote all that is converted from a local without a value. -/
theorem outputs_defined_iff (ep : EntryPoint) (cv : Conversions) (form : BodyForm)
    (args : CallerArgs) (answers : Answers) :
    OutputsDefined ep cv form args answers ↔
      (form = .emitted → ep.refusal args answers = none → Answered ep args answers) := by
  by_cases hf : form = .emitted
  · subst hf
    rw [emitted_defined_iff]
    simp
  · have hd := defined_of_form ep cv args answers hf
    simp [hd, hf]

/-! ## A call that fails and writes nothing -/

/-- The outputs that are stored whether the call succeeded or not. -/
def EntryPoint.unguarded (ep : EntryPoint) (p : OutParam) : Bool :=
  match p.cls with
  | .widenOut | .scalarOut _ => !ep.nullable && !ep.outlives
  | _ => false

theorem converts_of_unguarded {ep : EntryPoint} {p : OutParam} (h : ep.unguarded p = true)
    (args : CallerArgs) (answers : Answers) :
    ep.uninitialised p = true ∧ ep.converts args answers p 0 = true := by
  obtain ⟨name, cls, zeroed⟩ := p
  cases cls <;> simp_all [EntryPoint.unguarded, EntryPoint.uninitialised, EntryPoint.converts,
    EntryPoint.wanted]

theorem unguarded_of_converts {ep : EntryPoint} {p : OutParam} {args : CallerArgs}
    {answers : Answers} {i : Nat} (he : answers.ierror ≠ 0)
    (hc : ep.converts args answers p i = true) (hi : ep.uninitialised p = true) :
    ep.unguarded p = true := by
  obtain ⟨name, cls, zeroed⟩ := p
  cases ho : ep.outlives <;> cases cls <;>
    simp_all [EntryPoint.unguarded, EntryPoint.uninitialised, EntryPoint.converts]

/-- Such a call is what the unguarded classes come to grief at, and no other. -/
theorem defined_of_failed_iff {ep : EntryPoint} (cv : Conversions) {args : CallerArgs}
    {answers : Answers} (hr : ep.refusal args answers = none) (he : answers.ierror ≠ 0)
    (hw : ∀ x i, answers.wrote x i = none) :
    OutputsDefined ep cv .emitted args answers ↔
      ∀ p, p ∈ ep.params → ep.unguarded p = false := by
  rw [defined_of_call hr]
  constructor
  · intro ha p hp
    cases hu : ep.unguarded p with
    | false => rfl
    | true =>
        obtain ⟨hi, hc⟩ := converts_of_unguarded hu args answers
        have hsome := ha p hp 0 hc hi
        rw [hw] at hsome
        exact nomatch hsome
  · intro h p hp i hc hi
    have hu := unguarded_of_converts he hc hi
    rw [h p hp] at hu
    exact nomatch hu

/-! ## Entry points -/

/-- Entry points all of whose locals start with a value. -/
theorem defined_of_initialised {ep : EntryPoint}
    (h : ∀ p, p ∈ ep.params → ep.uninitialised p = false) (cv : Conversions) (form : BodyForm)
    (args : CallerArgs) (answers : Answers) : OutputsDefined ep cv form args answers := by
  by_cases hf : form = .emitted
  · subst hf
    rw [emitted_defined_iff]
    intro _ p hp i _ hi
    rw [h p hp] at hi
    cases hi
  · exact defined_of_form ep cv args answers hf

/-- The requests start as the caller's, and the statuses as zeros. -/
theorem testsome_defined (cv : Conversions) (form : BodyForm) (args : CallerArgs)
    (answers : Answers) : OutputsDefined testsome cv form args answers :=
  defined_of_initialised (by simp [testsome, EntryPoint.uninitialised]) cv form args answers

/-- The outputs of a query are null handles and zeros to begin with. -/
theorem cvarGetInfo_defined (cv : Conversions) (form : BodyForm) (args : CallerArgs)
    (answers : Answers) : OutputsDefined cvarGetInfo cv form args answers :=
  defined_of_initialised (by
    simp [cvarGetInfo, EntryPoint.uninitialised, EntryPoint.outlives, EntryPoint.stagedIn])
    cv form args answers

/-- Entry points with one local that has no value. -/
theorem answered_iff_only {ep : EntryPoint} {q : OutParam} {args : CallerArgs}
    {answers : Answers} (hq : q ∈ ep.params) (hqi : ep.uninitialised q = true)
    (honly : ∀ p, p ∈ ep.params → ep.uninitialised p = true → p = q) :
    Answered ep args answers ↔
      ∀ i, ep.converts args answers q i = true → (answers.wrote q.name i).isSome = true := by
  constructor
  · intro ha i hc
    exact ha q hq i hc hqi
  · intro h p hp i hc hi
    obtain rfl := honly p hp hi
    exact h i hc

/-- A handle is looked at when the call succeeded. -/
theorem commSplit_defined_iff (cv : Conversions) (args : CallerArgs) (answers : Answers) :
    OutputsDefined commSplit cv .emitted args answers ↔
      (answers.ierror = 0 → (answers.wrote "newcomm" 0).isSome = true) := by
  have hr : commSplit.refusal args answers = none := rfl
  have honly : ∀ p, p ∈ commSplit.params → commSplit.uninitialised p = true →
      p = ⟨"newcomm", .handleOut (.handle .comm), false⟩ := by
    simp [commSplit, EntryPoint.uninitialised]
  rw [defined_of_call hr, answered_iff_only (by simp [commSplit]) rfl honly]
  simp [EntryPoint.converts, EntryPoint.outlives, EntryPoint.wanted, commSplit,
    EntryPoint.stagedIn]

/-- So is the request of a call that keeps its arrays, once there are ranks to
make them for and memory to put them in. -/
theorem ialltoallw_defined_iff (cv : Conversions) (args : CallerArgs) (answers : Answers) :
    OutputsDefined ialltoallw cv .emitted args answers ↔
      (ialltoallw.refusal args answers = none → answers.ierror = 0 →
        (answers.wrote "request" 0).isSome = true) := by
  have honly : ∀ p, p ∈ ialltoallw.params → ialltoallw.uninitialised p = true →
      p = ⟨"request", .handleOut (.handle .request), false⟩ := by
    simp [ialltoallw, EntryPoint.uninitialised]
  rw [emitted_defined_iff, answered_iff_only (by simp [ialltoallw]) rfl honly]
  simp [EntryPoint.converts, EntryPoint.outlives, ialltoallw, EntryPoint.stagedIn,
    EntryPoint.requestOut]

/-- A rank is stored in any case. -/
theorem commRank_defined_iff (cv : Conversions) (args : CallerArgs) (answers : Answers) :
    OutputsDefined commRank cv .emitted args answers ↔
      (answers.wrote "rank" 0).isSome = true := by
  have hr : commRank.refusal args answers = none := rfl
  have honly : ∀ p, p ∈ commRank.params → commRank.uninitialised p = true →
      p = ⟨"rank", .scalarOut .rank, true⟩ := by
    simp [commRank, EntryPoint.uninitialised]
  rw [defined_of_call hr, answered_iff_only (by simp [commRank]) rfl honly]
  simp [EntryPoint.converts, EntryPoint.outlives, EntryPoint.wanted, commRank,
    EntryPoint.stagedIn]

theorem packSizeC_refusal (args : CallerArgs) (answers : Answers) :
    packSizeC.refusal args answers =
      if fitsInt (args.value "incount") then none else some (.refused abiErrValueTooLarge) := by
  by_cases hf : fitsInt (args.value "incount") <;>
    simp [EntryPoint.refusal, packSizeC, narrowGuard, hf, EntryPoint.stageOk,
      EntryPoint.outlives, EntryPoint.staged, EntryPoint.stagedIn, EntryPoint.narrowOk]

/-- So is a size, of a count that is not refused. -/
theorem packSizeC_defined_iff (cv : Conversions) (args : CallerArgs) (answers : Answers) :
    OutputsDefined packSizeC cv .emitted args answers ↔
      (fitsInt (args.value "incount") → (answers.wrote "size" 0).isSome = true) := by
  have honly : ∀ p, p ∈ packSizeC.params → packSizeC.uninitialised p = true →
      p = ⟨"size", .widenOut, true⟩ := by
    simp [packSizeC, EntryPoint.uninitialised]
  rw [emitted_defined_iff, answered_iff_only (by simp [packSizeC]) rfl honly, packSizeC_refusal]
  simp [EntryPoint.converts, EntryPoint.outlives, EntryPoint.wanted, packSizeC,
    EntryPoint.stagedIn]

/-! ## A size that nothing computed -/

/-- Values that are the same on both sides. -/
def sameConversions : Conversions where
  fromabi _ v := v
  toabi _ v := v
  null _ := 0
  abiNull _ := 0
  status _ v _ := v
  field _ v := v
  setField _ _ v := v

/-- One element of a datatype that the implementation does not know. -/
def packSizeArgs : CallerArgs where
  value x := if x = "incount" then 1 else 0
  memory _ _ := 0
  absent _ := false

/-- `MPI_ERR_TYPE`. -/
def packSizeFails : Answers where
  extent _ := .ok 0
  stage _ := true
  ierror := 3
  wrote _ _ := none

/-- The caller's size is what the stack held. -/
theorem packSizeC_leaves_stack (v : Int) :
    (packSizeC.run sameConversions .emitted (fun _ _ => some v) packSizeArgs
      packSizeFails).memory ⟨"size", .widenOut, true⟩ 0 = some v := by
  have hr : packSizeC.refusal packSizeArgs packSizeFails = none := by
    rw [packSizeC_refusal]
    rfl
  simp only [EntryPoint.run, hr]
  rfl

theorem packSizeC_undefined :
    ¬ ∀ (ep : EntryPoint) (cv : Conversions) (form : BodyForm) (args : CallerArgs)
      (answers : Answers), OutputsDefined ep cv form args answers := by
  intro h
  obtain ⟨v, hv⟩ := h packSizeC sameConversions .emitted packSizeArgs packSizeFails
    ⟨"size", .widenOut, true⟩ (by simp [packSizeC]) 0
  have h0 := (packSizeC_leaves_stack 0).symm.trans (hv _)
  have h7 := (packSizeC_leaves_stack 7).symm.trans (hv _)
  exact absurd (Option.some.inj (h0.trans h7.symm)) (by decide)

end AbiWrapper.Ref
