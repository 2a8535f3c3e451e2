import AbiWrapper.Proofs.ErrorHistory

/-!
# The class of a reported error

An application that gets an ABI error code asks for its class through the
wrapper, which translates the code down, asks the implementation, and
translates the class up. For a code that came from the implementation this is
the implementation's own answer.

The wrapper also reports errors of its own, by the ABI's predefined values. Two
of these are optional in the switches, since MPI added them late. Where the
implementation lacks such a class the value has no case on the way down, so the
implementation is asked about `MPI_ERR_OTHER` instead and that is the answer.
`MPI_ERR_VALUE_TOO_LARGE` came with the large-count functions, so that an
implementation which needs the fallbacks for these is the one to lack the class
that the fallbacks refuse with.
-/

namespace AbiWrapper.Ref

open AbiWrapper.Lib

inductive WrapperError
  | valueTooLarge | count | arg | intern | abi | unsupportedOperation
deriving DecidableEq, Repr

def WrapperError.code : WrapperError → Int32
  | .valueTooLarge => abiErrValueTooLarge
  | .count => abiErrCount
  | .arg => abiErrArg
  | .intern => abiErrIntern
  | .abi => abiErrAbi
  | .unsupportedOperation => abiErrUnsupportedOperation

/-- Where the code that a call returns comes from. -/
inductive ErrorOrigin
  | translated (ierror : Int32)
  | made (error : WrapperError)
deriving DecidableEq, Repr

namespace ErrorOrigin

/-- The ABI code returned. -/
def report (impl : ImplErrors) (t : ErrorTable) : ErrorOrigin → Int32
  | .translated ierror => (errorcodeToabi impl ierror t).1
  | .made error => error.code

/-- What returning it does to the registry. -/
def calls : ErrorOrigin → List ErrorCall
  | .translated ierror => [.toabi ierror]
  | .made _ => []

/-- The implementation has the class of an error the wrapper made. -/
def named (impl : ImplErrors) : ErrorOrigin → Prop
  | .translated _ => True
  | .made error => ∀ row, row ∈ errorRows → row.abi = error.code → impl.compiles row = true

end ErrorOrigin

/-- `MPI_Error_class` maps each class the implementation has to itself. -/
structure ClassesFixed (impl : ImplErrors) (target : Int32 → Outcome) : Prop where
  fixed : ∀ row, row ∈ errorRows → impl.compiles row = true →
    target (impl.code row.abi) = ⟨0, impl.code row.abi⟩

/-- The implementation knows the class of a code it returned. -/
def ErrorOrigin.genuine (target : Int32 → Outcome) : ErrorOrigin → Prop
  | .translated ierror => (target ierror).ierror = 0
  | .made _ => True

/-- Reported in any state whose registry is not full, the code has its class in
every later state: itself if the ABI predefines it, else the translation of the
class of the code it stands for. -/
def KeepsClass (impl : ImplErrors) (target : Int32 → Outcome) (o : ErrorOrigin) : Prop :=
  ∀ calls more, (ErrorState.after impl calls).table.count < errorcodeSlots →
    let abi := o.report impl (ErrorState.after impl calls).table
    let t := (ErrorState.after impl (calls ++ o.calls ++ more)).table
    ∃ r, errorClass impl target abi t = some r ∧ r.1 = 0 ∧
      ((∃ row, row ∈ errorRows ∧ row.abi = abi) → r.2.1 = abi) ∧
      ((∀ row, row ∈ errorRows → row.abi ≠ abi) → ∀ ierror, o = .translated ierror →
        r.2.1 = (errorcodeToabi impl (target ierror).number t).1)

variable {impl : ImplErrors} {target : Int32 → Outcome} {t : ErrorTable}

theorem toabi_class {row : ErrorRow} (h : row ∈ errorRows) (hc : impl.compiles row = true) :
    errorcodeToabi impl (impl.code row.abi) t = (row.abi, t) := by
  rw [errorcodeToabi, if_neg (impl.ne_success row h hc)]
  cases hf : rowOfCode impl (impl.code row.abi) with
  | some row' =>
      obtain ⟨hm, hc', he⟩ := rowOfCode_eq_some hf
      exact congrArg (·, t) (impl.distinct row' hm row h hc' hc he)
  | none => exact absurd (decide_eq_true ⟨hc, rfl⟩) (List.find?_eq_none.mp hf row h)

/-- Asked about a code that stands for `ierror`, the wrapper answers with the
translation of its class. -/
theorem errorClass_of_fromabi (target : Int32 → Outcome) {abi ierror : Int32}
    (hd : errorcodeFromabi impl abi t = some ierror) (hs : (target ierror).ierror = 0) :
    ∃ r, errorClass impl target abi t = some r ∧ r.1 = 0 ∧
      r.2.1 = (errorcodeToabi impl (target ierror).number t).1 := by
  rw [errorClass, hd, Option.map_some]
  refine ⟨_, rfl, ?_, rfl⟩
  show (errorcodeToabi impl (target ierror).ierror _).1 = 0
  rw [hs]
  rfl

theorem errorClass_class (hfix : ClassesFixed impl target) {row : ErrorRow}
    (h : row ∈ errorRows) (hc : impl.compiles row = true) :
    ∃ r, errorClass impl target row.abi t = some r ∧ r.1 = 0 ∧ r.2.1 = row.abi := by
  have htarget := hfix.fixed row h hc
  obtain ⟨r, hr, h0, hcls⟩ := errorClass_of_fromabi target (fromabi_row (t := t) h hc)
    (by rw [htarget])
  rw [htarget, toabi_class h hc] at hcls
  exact ⟨r, hr, h0, hcls⟩

theorem errorClass_lacking (hfix : ClassesFixed impl target) {row : ErrorRow}
    (h : row ∈ errorRows) (hc : impl.compiles row = false) :
    ∃ r, errorClass impl target row.abi t = some r ∧ r.2.1 = abiErrOther := by
  have hother : (⟨abiErrOther, "MPI_ERR_OTHER", false⟩ : ErrorRow) ∈ errorRows := by
    decide +kernel
  have hcother : impl.compiles ⟨abiErrOther, "MPI_ERR_OTHER", false⟩ = true := rfl
  have htarget := hfix.fixed _ hother hcother
  have hd := fromabi_lacking (t := t) h hc
  obtain ⟨r, hr, -, hcls⟩ := errorClass_of_fromabi target hd (by rw [htarget])
  rw [htarget, toabi_class hother hcother] at hcls
  exact ⟨r, hr, hcls⟩

theorem report_extends (impl : ImplErrors) (o : ErrorOrigin) (calls more : List ErrorCall) :
    (ErrorState.after impl (calls ++ o.calls)).table.Extends
      (ErrorState.after impl (calls ++ o.calls ++ more)).table := by
  rw [ErrorState.after_append (c := calls ++ o.calls)]
  exact ((ErrorInv.after impl (calls ++ o.calls)).run more).2.1

theorem Toabi.later {e abi : Int32} {t' : ErrorTable} (h : Toabi impl t e abi t')
    (hroom : t.count < errorcodeSlots) {t'' : ErrorTable} (hext : t'.Extends t'') :
    errorcodeFromabi impl abi t'' = some e := by
  cases h with
  | success he => exact congrArg some he.symm
  | row he hr =>
      obtain ⟨hm, hc, hcode⟩ := rowOfCode_eq_some hr
      exact (fromabi_row hm hc).trans (congrArg some hcode)
  | known he hr hf =>
      obtain ⟨hlt, -, hs⟩ := Registry.find_eq_some hf
      obtain ⟨hlt', hs'⟩ := hext.slot_of_lt hlt hs
      exact fromabi_code hlt' hs'
  | interned he hr hf ha =>
      obtain ⟨hlt, hs⟩ := Registry.append_slot ha
      obtain ⟨hlt', hs'⟩ := hext.slot_of_lt hlt hs
      exact fromabi_code hlt' hs'
  | refused he hr hf hfull => omega

/-- A predefined code that a translation answers is a class of the
implementation, unless a full table refused. -/
theorem Toabi.predefined {e abi : Int32} {t' : ErrorTable} (h : Toabi impl t e abi t')
    (hroom : t.count < errorcodeSlots) (hp : ∃ row, row ∈ errorRows ∧ row.abi = abi) :
    ∃ row, row ∈ errorRows ∧ impl.compiles row = true ∧ row.abi = abi := by
  obtain ⟨row, hm, hrow⟩ := hp
  have hdynamic : ∀ slot, slot < errorcodeSlots → abi = codeOf errorcodeAbiBase slot → False :=
    fun slot hlt hc => ne_row_of_dynamic (errorCode_dynamic hlt) hm (hrow.trans hc)
  cases h with
  | success => exact absurd hrow (errorRows_ne_zero hm)
  | row _ hr =>
      obtain ⟨hm', hc', -⟩ := rowOfCode_eq_some hr
      exact ⟨_, hm', hc', rfl⟩
  | known _ _ hf => exact (hdynamic _ (Registry.find_eq_some hf).2.1 rfl).elim
  | interned _ _ _ ha => exact (hdynamic _ (Registry.append_eq_some ha).2.1 rfl).elim
  | refused _ _ _ hfull => omega

/-- A reported error keeps its class exactly if it came from the implementation
or the implementation has the class of what the wrapper made. -/
theorem error_class_kept_iff (hfix : ClassesFixed impl target) {o : ErrorOrigin}
    (hgen : o.genuine target) : KeepsClass impl target o ↔ o.named impl := by
  cases o with
  | translated ierror =>
      refine iff_of_true (fun calls more hroom => ?_) trivial
      have hcases := toabi_cases impl (ErrorState.after impl calls).table ierror
      have hext := report_extends impl (.translated ierror) calls more
      rw [ErrorState.after_append] at hext
      have hd := hcases.later hroom hext
      obtain ⟨r, hr, h0, hcls⟩ := errorClass_of_fromabi target hd hgen
      refine ⟨r, hr, h0, fun hp => ?_, fun _ e he => ?_⟩
      · obtain ⟨row, hm, hc, hrow⟩ := hcases.predefined hroom hp
        obtain ⟨r', hr', -, hself⟩ := errorClass_class (t := (ErrorState.after impl
          (calls ++ (ErrorOrigin.translated ierror).calls ++ more)).table) hfix hm hc
        rw [hrow] at hr' hself
        obtain rfl := Option.some.inj (hr.symm.trans hr')
        exact hself
      · obtain rfl : ierror = e := ErrorOrigin.translated.inj he
        exact hcls
  | made error =>
      have hrow : ∃ row, row ∈ errorRows ∧ row.abi = error.code := by
        cases error <;> decide +kernel
      constructor
      · intro hk row hm habi
        cases hc : impl.compiles row with
        | true => rfl
        | false =>
            have hroom : 0 < errorcodeSlots := by decide
            obtain ⟨r, hr, -, hself, -⟩ := hk [] [] hroom
            obtain ⟨r', hr', hlack⟩ :=
              errorClass_lacking (t := (ErrorState.after impl []).table) hfix hm hc
            rw [habi] at hr'
            obtain rfl := Option.some.inj (hr.symm.trans hr')
            have hbad : error.code = abiErrOther := (hself hrow).symm.trans hlack
            cases error <;> exact absurd hbad (by decide)
      · intro hn calls more _
        obtain ⟨row, hm, habi⟩ := hrow
        obtain ⟨r, hr, h0, hself⟩ := errorClass_class (t := (ErrorState.after impl
          (calls ++ (ErrorOrigin.made error).calls ++ more)).table) hfix hm (hn row hm habi)
        rw [habi] at hr hself
        exact ⟨r, hr, h0, fun _ => hself, fun hno => absurd habi (hno row hm)⟩

/-- An implementation with the ABI's values and none of the optional classes. -/
def withoutOptional : ImplErrors where
  has _ := false
  code abi := abi
  distinct _ _ _ _ _ _ h := h
  ne_success _ h _ := errorRows_ne_zero h

/-- Its `MPI_Error_class`: the mandatory classes are their own, and all other
codes are in the class of `MPI_ERR_OTHER`. -/
def plainClass (ierror : Int32) : Outcome :=
  ⟨0, if 0 ≤ ierror ∧ ierror ≤ 57 then ierror else abiErrOther⟩

theorem plainClass_fixed : ClassesFixed withoutOptional plainClass := ⟨by decide +kernel⟩

theorem withoutOptional_keeps_count :
    KeepsClass withoutOptional plainClass (.made .count) ↔
      ErrorOrigin.named withoutOptional (.made .count) :=
  error_class_kept_iff plainClass_fixed trivial

/-- The refusal of a large count loses its class on it. -/
theorem withoutOptional_loses_valueTooLarge :
    ¬ ∀ (impl : ImplErrors) (target : Int32 → Outcome) (o : ErrorOrigin),
        ClassesFixed impl target → o.genuine target → KeepsClass impl target o := by
  intro hall
  obtain ⟨r, hr, -, hself, -⟩ := hall withoutOptional plainClass (.made .valueTooLarge)
    plainClass_fixed trivial [] [] (by decide)
  have hother : (errorClass withoutOptional plainClass abiErrValueTooLarge .empty).map
      (fun r => r.2.1) = some abiErrOther := by decide +kernel
  have hbad : (some r).map (fun r => r.2.1) = some abiErrOther := hr ▸ hother
  have hrow : ∃ row, row ∈ errorRows ∧ row.abi = abiErrValueTooLarge := by decide +kernel
  exact absurd ((Option.some.inj hbad).symm.trans (hself hrow)) (by decide)

end AbiWrapper.Ref
