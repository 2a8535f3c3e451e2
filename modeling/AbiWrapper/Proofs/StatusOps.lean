import AbiWrapper.Proofs.HandleBijection
import AbiWrapper.Proofs.Status
import AbiWrapper.Ref.StatusOps

/-!
# A program's statuses behind the wrapper are the implementation's

`StatusSim` says what an ABI object and the implementation's own have to do with
each other: the named fields of the second are what the first ones mean, and
its private bytes are in the scratch area. That is all a call needs to be given
an object the implementation cannot tell from its own (`StatusSim.down`), and
whatever such a call leaves is related again once it is converted
(`StatusSim.up`).

An error code means something through a table that grows, so it is related only
if no later table can change what it means (`ErrorNames`). `MPI_ERROR` is the one
field in which the two sides may differ. A call on several requests that sets no
error leaves that of a status alone, and the wrapper stores `MPI_SUCCESS` over
it. And where natively it has no value it has some behind the wrapper, which the
way down translates; the program must not have come by one of the lowest
integers there (`ErrorDefined`).
-/

namespace AbiWrapper.Ref

open AbiWrapper.Lib

/-! ## Error codes -/

/-- An ABI code stands for an implementation's, now and from now on. -/
def ErrorNames (impl : ImplErrors) (t : ErrorTable) (abi e : Int32) : Prop :=
  ∀ t', t.Extends t' → errorcodeFromabi impl abi t' = some e

section Errors

variable {impl : ImplErrors} {t t' : ErrorTable} {abi e : Int32}

theorem ErrorNames.mono (h : ErrorNames impl t abi e) (hext : t.Extends t') :
    ErrorNames impl t' abi e := fun _ hext' => h _ (hext.trans hext')

theorem errorNames_toabi (hroom : t.count < errorcodeSlots) :
    ErrorNames impl (errorcodeToabi impl e t).2 (errorcodeToabi impl e t).1 e :=
  fun _ hext => (toabi_cases impl t e).later hroom hext

theorem toabi_extends : t.Extends (errorcodeToabi impl e t).2 := (toabi_cases impl t e).extends

theorem errorNames_success : ErrorNames impl t 0 0 := fun _ _ => rfl

theorem errorNames_unsupported :
    ErrorNames impl t abiErrUnsupportedOperation (impl.code abiErrUnsupportedOperation) := by
  intro t' _
  have hrow : (⟨abiErrUnsupportedOperation, "MPI_ERR_UNSUPPORTED_OPERATION", false⟩ : ErrorRow) ∈
      errorRows := by decide +kernel
  exact fromabi_row hrow rfl

theorem ErrorNames.defined (h : ErrorNames impl t abi e) :
    -2147483648 + errorcodeAbiBase.toInt ≤ abi.toInt := by
  have hsome : (errorcodeFromabi impl abi t).isSome = true := by
    rw [h t (.refl t)]
    rfl
  exact fromabi_isSome.mp hsome

/-- A code that the wrapper returns can be given back to it. -/
theorem toabi_defined :
    -2147483648 + errorcodeAbiBase.toInt ≤ (errorcodeToabi impl e t).1.toInt := by
  rcases (toabi_cases impl t e).back with hback | ⟨-, -, hother⟩
  · have hsome : (errorcodeFromabi impl (errorcodeToabi impl e t).1
        (errorcodeToabi impl e t).2).isSome = true := by
      rw [hback]
      rfl
    exact fromabi_isSome.mp hsome
  · rw [hother]
    decide

end Errors

/-! ## One status -/

variable {fmt : IntFormat} {L : StatusLayout} {impl : ImplStatus fmt L}

theorem SameStatus.refl (st : Bytes) : SameStatus fmt L st st := ⟨rfl, rfl, fun _ _ _ => rfl⟩

theorem SameStatus.trans {st st' st'' : Bytes} (h : SameStatus fmt L st st')
    (h' : SameStatus fmt L st' st'') : SameStatus fmt L st st'' where
  source := h.source.trans h'.source
  tag := h.tag.trans h'.tag
  hidden a ha hnot := (h.hidden a ha hnot).trans (h'.hidden a ha hnot)

/-- What `MPI_ERROR` has behind the wrapper, by what it is natively. -/
def ErrorMark.names (impl : ImplStatus fmt L) (t : ErrorTable) (abi value : Int32) :
    ErrorMark → Prop
  | .unset => True
  | .set => ErrorNames impl.consts.errors t abi value
  | .kept => abi = 0

theorem ErrorMark.names_mono {t t' : ErrorTable} {abi value : Int32} {mark : ErrorMark}
    (h : mark.names impl t abi value) (hext : t.Extends t') : mark.names impl t' abi value := by
  cases mark with
  | unset => trivial
  | set => exact ErrorNames.mono h hext
  | kept => exact h

namespace StatusField

/-- An ABI value of a field means the implementation's. -/
def names (impl : ImplStatus fmt L) (t : ErrorTable) (mark : ErrorMark) (abi value : Int32) :
    StatusField → Prop
  | .source => impl.consts.rankFromabi abi = value
  | .tag => impl.consts.tagFromabi abi = value
  | .error => mark.names impl t abi value

/-- A value that a field may have: a source or a tag is a number or a sentinel. -/
def proper (impl : ImplStatus fmt L) (value : Int32) : StatusField → Prop
  | .source => impl.consts.rankSentinels.proper value
  | .tag => impl.consts.tagSentinels.proper value
  | .error => True

variable {f g : StatusField} {t t' : ErrorTable} {mark mark' : ErrorMark} {abi value : Int32}

theorem names_mono (h : f.names impl t mark abi value) (hext : t.Extends t') :
    f.names impl t' mark abi value := by
  cases f with
  | source => exact h
  | tag => exact h
  | error => exact ErrorMark.names_mono h hext

/-- Only an error can be without a value. -/
theorem names_of_ne (hf : f ≠ .error) (h : f.names impl t mark abi value) :
    f.names impl t' mark' abi value := by
  cases f with
  | source => exact h
  | tag => exact h
  | error => exact absurd rfl hf

theorem abiOff_le : f.abiOff + 4 ≤ abiInternal := by cases f <;> decide

theorem implOff_le : L.namedOff ≤ f.implOff L ∧ f.implOff L + 4 ≤ L.tailOff := by
  cases f with
  | source => simp only [implOff, StatusLayout.source, StatusLayout.tailOff]; omega
  | tag => simp only [implOff, StatusLayout.tag, StatusLayout.tailOff]; omega
  | error => simp only [implOff, StatusLayout.error, StatusLayout.tailOff]; omega

/-- Two fields are two places, of either object. -/
theorem abi_ne (h : f ≠ g) : f.abiOff + 4 ≤ g.abiOff ∨ g.abiOff + 4 ≤ f.abiOff := by
  cases f <;> cases g <;> first | exact absurd rfl h | decide

theorem impl_ne (h : f ≠ g) :
    f.implOff L + 4 ≤ g.implOff L ∨ g.implOff L + 4 ≤ f.implOff L := by
  have habi := abi_ne h
  have hoff : ∀ f : StatusField, f.implOff L = L.namedOff + f.abiOff := by
    intro f
    cases f with
    | source => rfl
    | tag => rfl
    | error => rfl
  rw [hoff, hoff]
  omega

end StatusField

/-- A private byte may be given another value. -/
theorem SameStatus.update {st st' : Bytes} (h : SameStatus fmt L st st') {a : Nat} {b : UInt8}
    (ha : a < L.namedOff ∨ L.tailOff ≤ a) :
    SameStatus fmt L (Function.update st a b) (Function.update st' a b) := by
  have hint : ∀ (m : Bytes) (f : StatusField),
      Bytes.getInt fmt (Function.update m a b) (f.implOff L) = m.getInt fmt (f.implOff L) := by
    intro m f
    have hoff := StatusField.implOff_le (f := f) (L := L)
    exact Bytes.getInt_congr fun i hi => Function.update_of_ne (by omega) _ _
  refine ⟨?_, ?_, fun a' hlt hnot => ?_⟩
  · exact (hint st .source).trans (h.source.trans (hint st' .source).symm)
  · exact (hint st .tag).trans (h.tag.trans (hint st' .tag).symm)
  · simp only [Function.update_apply, h.hidden a' hlt hnot]

theorem SameStatus.putError {st : Bytes} {ierror : Int32} :
    SameStatus fmt L st (st.putInt fmt L.error ierror) := by
  have hoff := StatusField.implOff_le (f := .error) (L := L)
  have hsource := StatusField.impl_ne (f := .source) (g := .error) (L := L) (by decide)
  have htag := StatusField.impl_ne (f := .tag) (g := .error) (L := L) (by decide)
  refine ⟨(Bytes.getInt_putInt_ne hsource).symm, (Bytes.getInt_putInt_ne htag).symm, ?_⟩
  intro a _ hnot
  simp only [StatusField.implOff] at hoff
  exact (Bytes.putInt_outside (by omega)).symm

/-- A status whose fields an implementation can have set so. -/
def ProperStatus (impl : ImplStatus fmt L) (st : Bytes) : Prop :=
  ∀ f : StatusField, f.proper impl (st.getInt fmt (f.implOff L))

theorem ProperStatus.congr {st st' : Bytes} (h : ProperStatus impl st)
    (hsame : SameStatus fmt L st st') : ProperStatus impl st' := by
  intro f
  have hf := h f
  cases f with
  | source => exact hsame.source ▸ hf
  | tag => exact hsame.tag ▸ hf
  | error => exact hf

/-- MPI's empty status, with which a call with one status sets `MPI_ERROR`. -/
def EmptyStatus (impl : ImplStatus fmt L) (st : Bytes) : Prop :=
  st.getInt fmt L.source = impl.consts.anySource ∧ st.getInt fmt L.tag = impl.consts.anyTag

theorem EmptyStatus.congr {st st' : Bytes} (hsame : SameStatus fmt L st st') :
    EmptyStatus impl st ↔ EmptyStatus impl st' := by
  rw [EmptyStatus, EmptyStatus, hsame.source, hsame.tag]

theorem statusEmpty_iff {st : Bytes} :
    statusEmpty fmt L impl.consts st = true ↔ EmptyStatus impl st := decide_eq_true_iff

/-- What is in `MPI_ERROR` of an ABI object can be translated. -/
def ErrorDefined (fmt : IntFormat) (abi : Bytes) : Prop :=
  -2147483648 + errorcodeAbiBase.toInt ≤ (abi.getInt fmt abiError).toInt

/-- An ABI object and the implementation's that it stands for. -/
structure StatusSim (impl : ImplStatus fmt L) (t : ErrorTable) (abi st : Bytes)
    (mark : ErrorMark) : Prop where
  field : ∀ f : StatusField,
    f.names impl t mark (abi.getInt fmt f.abiOff) (st.getInt fmt (f.implOff L))
  head : ∀ i, i < L.headLen → abi (abiInternal + i) = st i
  tail : ∀ i, i < L.tailLen → abi (abiInternal + L.headLen + i) = st (L.tailOff + i)
  proper : ProperStatus impl st

namespace StatusSim

variable {t t' : ErrorTable} {abi st stack low : Bytes} {mark : ErrorMark} {withError : Bool}

theorem source (h : StatusSim impl t abi st mark) :
    impl.consts.rankFromabi (abi.getInt fmt abiSource) = st.getInt fmt L.source := h.field .source

theorem tag (h : StatusSim impl t abi st mark) :
    impl.consts.tagFromabi (abi.getInt fmt abiTag) = st.getInt fmt L.tag := h.field .tag

theorem error (h : StatusSim impl t abi st mark) :
    mark.names impl t (abi.getInt fmt abiError) (st.getInt fmt L.error) := h.field .error

theorem mono (h : StatusSim impl t abi st mark) (hext : t.Extends t') :
    StatusSim impl t' abi st mark :=
  { h with field := fun f => StatusField.names_mono (h.field f) hext }

/-- An error that has a value need not have one. -/
theorem unset (h : StatusSim impl t abi st mark) : StatusSim impl t abi st .unset :=
  { h with
    field := fun f => by
      by_cases hf : f = .error
      · subst hf
        trivial
      · exact StatusField.names_of_ne hf (h.field f) }

/-- What a call is given is the implementation's own object to it. -/
theorem down (h : StatusSim impl t abi st mark)
    (hdown : statusFromabi fmt L impl.consts abi stack t = some low) :
    SameStatus fmt L low st where
  source := (statusFromabi_source hdown).trans h.source
  tag := (statusFromabi_tag hdown).trans h.tag
  hidden a ha hnot := by
    rcases hnot with hhead | htail
    · have hi : a < L.headLen := hhead
      rw [statusFromabi_head hdown hi, h.head a hi]
    · obtain ⟨i, rfl⟩ : ∃ i, a = L.tailOff + i := ⟨a - L.tailOff, (Nat.add_sub_of_le htail).symm⟩
      have hi : i < L.tailLen := Nat.lt_sub_iff_add_lt'.mpr ha
      rw [statusFromabi_tail hdown hi, h.tail i hi]

/-- An error with a value comes down, but for one that a call on several requests
has left alone. -/
theorem down_error (h : StatusSim impl t abi st mark)
    (hdown : statusFromabi fmt L impl.consts abi stack t = some low) :
    (mark = .set → low.getInt fmt L.error = st.getInt fmt L.error) ∧
      (mark = .kept → low.getInt fmt L.error = 0) := by
  have herror := statusFromabi_error hdown
  have hnames := h.error
  constructor
  · rintro rfl
    exact Option.some.inj (herror.symm.trans (hnames t (.refl t)))
  · rintro rfl
    have hzero : abi.getInt fmt abiError = 0 := hnames
    rw [hzero] at herror
    exact (Option.some.inj herror).symm

/-- What a call leaves is related again once it is converted, but for the error,
which the two conversions treat differently. -/
theorem up {left : Bytes} (hleft : SameStatus fmt L left st) (hproper : ProperStatus impl st)
    (herror : mark.names impl t'
      ((statusToabi fmt L impl.consts withError left abi stack t).1.getInt fmt abiError)
      (st.getInt fmt L.error)) :
    StatusSim impl t' (statusToabi fmt L impl.consts withError left abi stack t).1 st mark where
  field f := by
    cases f with
    | source =>
        show impl.consts.rankFromabi _ = _
        rw [StatusField.abiOff, statusToabi_source, hleft.source]
        exact rank_back (hproper .source)
    | tag =>
        show impl.consts.tagFromabi _ = _
        rw [StatusField.abiOff, statusToabi_tag, hleft.tag]
        exact tag_back (hproper .tag)
    | error => exact herror
  head i hi := by
    have hfit := L.private_le
    have hoff : i < L.namedOff := hi
    have hsize := L.named_le
    rw [statusToabi_internal (by omega), statusBlob_head hi]
    exact hleft.hidden i (by omega) (.inl hoff)
  tail i hi := by
    have hfit := L.private_le
    have hlt : L.tailOff + i < L.size := Nat.add_lt_of_lt_sub' hi
    rw [Nat.add_assoc, statusToabi_internal (by omega), statusBlob_tail hi]
    exact hleft.hidden _ hlt (.inr (Nat.le_add_right _ _))
  proper := hproper

/-- An accessor stores what names the value it means, and nothing else changes. -/
theorem setField {f : StatusField} {x value : Int32} (h : StatusSim impl t abi st mark)
    (hx : f.names impl t .set x value) (hproper : f.proper impl value) :
    StatusSim impl t (abi.putInt fmt f.abiOff x) (st.putInt fmt (f.implOff L) value)
      (if f = .error then .set else mark) where
  field g := by
    by_cases hfg : f = g
    · subst hfg
      rw [Bytes.getInt_putInt, Bytes.getInt_putInt]
      split
      · exact hx
      · next hf => exact StatusField.names_of_ne hf hx
    · rw [Bytes.getInt_putInt_ne (StatusField.abi_ne hfg).symm,
        Bytes.getInt_putInt_ne (StatusField.impl_ne hfg).symm]
      split
      · next hf => exact StatusField.names_of_ne (fun hg => hfg (hf.trans hg.symm)) (h.field g)
      · exact h.field g
  head i hi := by
    have hoff : i < L.namedOff := hi
    have habi := StatusField.abiOff_le (f := f)
    have himpl := StatusField.implOff_le (f := f) (L := L)
    rw [Bytes.putInt_outside (by omega), Bytes.putInt_outside (by omega), h.head i hi]
  tail i hi := by
    have habi := StatusField.abiOff_le (f := f)
    have himpl := StatusField.implOff_le (f := f) (L := L)
    rw [Bytes.putInt_outside (by omega), Bytes.putInt_outside (by omega), h.tail i hi]
  proper g := by
    by_cases hfg : f = g
    · subst hfg
      rw [Bytes.getInt_putInt]
      exact hproper
    · rw [Bytes.getInt_putInt_ne (StatusField.impl_ne hfg).symm]
      exact h.proper g

theorem statusConvert_at {dst : Bytes} {a : Nat} (ha : a < abiInternal + abiScratch) :
    statusConvert abi dst a = abi a := by
  have hat : dst.copy 0 abi 0 (abiInternal + abiScratch) (0 + a) = abi (0 + a) := Bytes.copy_at ha
  rwa [Nat.zero_add] at hat

theorem statusConvert_field {dst : Bytes} {f : StatusField} :
    (statusConvert abi dst).getInt fmt f.abiOff = abi.getInt fmt f.abiOff := by
  have hoff := StatusField.abiOff_le (f := f)
  exact Bytes.getInt_congr fun i hi => statusConvert_at (by omega)

/-- A converted status is a copy. -/
theorem convert {dst : Bytes} (h : StatusSim impl t abi st mark) :
    StatusSim impl t (statusConvert abi dst) st mark := by
  have hfit := L.private_le
  refine ⟨?_, ?_, ?_, h.proper⟩
  · intro f
    rw [statusConvert_field]
    exact h.field f
  · intro i hi
    rw [statusConvert_at (by omega)]
    exact h.head i hi
  · intro i hi
    rw [statusConvert_at (by omega)]
    exact h.tail i hi

end StatusSim

section Converted

variable {withError : Bool} {st abi stack : Bytes} {t : ErrorTable}

theorem statusToabi_extends :
    t.Extends (statusToabi fmt L impl.consts withError st abi stack t).2 := by
  rw [statusToabi]
  split
  · exact toabi_extends
  · exact .refl t

theorem statusToabiWhole_names (hroom : t.count < errorcodeSlots) :
    ErrorNames impl.consts.errors (statusToabiWhole fmt L impl.consts st abi stack t).2
      ((statusToabiWhole fmt L impl.consts st abi stack t).1.getInt fmt abiError)
      (st.getInt fmt L.error) := by
  rw [statusToabiWhole, statusToabi_error.1, statusToabi_error.2]
  exact errorNames_toabi hroom

/-- A status that is not empty leaves the error of the ABI object. -/
theorem statusToabiKeepError_kept (hempty : statusEmpty fmt L impl.consts st = false) :
    (statusToabi fmt L impl.consts false st abi stack t).1.getInt fmt abiError =
      abi.getInt fmt abiError :=
  Bytes.getInt_congr fun _ hi => (statusToabiKeepError_error hempty hi).1

theorem statusToabiKeepError_empty (hempty : statusEmpty fmt L impl.consts st = true) :
    statusToabiKeepError fmt L impl.consts st abi stack t =
      statusToabiWhole fmt L impl.consts st abi stack t := by
  rw [statusToabiKeepError, statusToabiWhole, statusToabi, statusToabi, hempty]
  rfl

theorem statusToabiWhole_defined :
    ErrorDefined fmt (statusToabiWhole fmt L impl.consts st abi stack t).1 := by
  rw [ErrorDefined, statusToabiWhole, statusToabi_error.1]
  exact toabi_defined

theorem statusToabiKeepError_defined (h : ErrorDefined fmt abi) :
    ErrorDefined fmt (statusToabiKeepError fmt L impl.consts st abi stack t).1 := by
  cases hempty : statusEmpty fmt L impl.consts st with
  | true =>
      rw [statusToabiKeepError_empty hempty]
      exact statusToabiWhole_defined
  | false =>
      rw [ErrorDefined, statusToabiKeepError, statusToabiKeepError_kept hempty]
      exact h

theorem setField_defined {f : StatusField} {x value : Int32} (h : ErrorDefined fmt abi)
    (hx : f.names impl t .set x value) : ErrorDefined fmt (abi.putInt fmt f.abiOff x) := by
  by_cases hf : f = .error
  · subst hf
    have hx : ErrorNames impl.consts.errors t x value := hx
    have hput : (abi.putInt fmt StatusField.error.abiOff x).getInt fmt abiError = x :=
      Bytes.getInt_putInt
    rw [ErrorDefined, hput]
    exact hx.defined
  · have hkeep : (abi.putInt fmt f.abiOff x).getInt fmt abiError = abi.getInt fmt abiError :=
      Bytes.getInt_putInt_ne (StatusField.abi_ne (Ne.symm hf))
    rw [ErrorDefined, hkeep]
    exact h

end Converted

/-! ## Answers -/

/-- A count is the same on both sides, undefined or a number. -/
def CountNames (impl : ImplStatus fmt L) (abi native : Int) : Prop :=
  (native = impl.consts.undefined.toInt → abi = abiStatusUndefined) ∧
    (native ≠ impl.consts.undefined.toInt → abi = native)

theorem countToabi_names {count : Int} : CountNames impl (countToabi fmt L impl count) count := by
  rw [countToabi]
  split
  · next h => exact ⟨fun _ => rfl, fun hne => absurd h hne⟩
  · next h => exact ⟨fun he => absurd he h, fun _ => rfl⟩

/-- An answer of the wrapper, and the implementation's own. -/
def AnswerNames (impl : ImplStatus fmt L) (t : ErrorTable) (a : StatusAnswer) :
    NativeAnswer → Prop
  | .count ierror value =>
      ErrorNames impl.consts.errors t a.code ierror ∧ Option.Rel (CountNames impl) a.value value
  | .flag ierror value => ErrorNames impl.consts.errors t a.code ierror ∧ a.value = value
  | .done ierror => ErrorNames impl.consts.errors t a.code ierror ∧ a.value = none
  | .field f value => a.code = 0 ∧ ∃ abi : Int32, a.value = some abi.toInt ∧
      ∀ native, value = some native → f.names impl t .set abi native
  -- The wrapper has `MPI_SUCCESS` there.
  | .keptError _ => a = ⟨0, some 0⟩

theorem AnswerNames.mono {t t' : ErrorTable} {a : StatusAnswer} {native : NativeAnswer}
    (h : AnswerNames impl t a native) (hext : t.Extends t') : AnswerNames impl t' a native := by
  cases native with
  | count ierror value => exact ⟨h.1.mono hext, h.2⟩
  | flag ierror value => exact ⟨h.1.mono hext, h.2⟩
  | done ierror => exact ⟨h.1.mono hext, h.2⟩
  | field f value =>
      obtain ⟨h0, abi, habi, hnames⟩ := h
      exact ⟨h0, abi, habi, fun native hv => StatusField.names_mono (hnames native hv) hext⟩
  | keptError value => exact h

/-! ## Programs -/

/-- A program behind the wrapper and the same one without it. -/
structure StatusRel (impl : ImplStatus fmt L) (n : NativeState) (s : StatusState) : Prop where
  status : ∀ v st, n.status v = some st → StatusSim impl s.errors (s.abi v) st (n.mark v)
  /-- Only a status that has been given a value has an error. -/
  mark : ∀ v, n.status v = none → n.mark v = .unset
  defined : ∀ v, ErrorDefined fmt (s.abi v)
  answers : List.Forall₂ (AnswerNames impl s.errors) s.answers n.answers

/-- A call that fails leaves the object as it is. -/
theorem StatusState.changed_self {s : StatusState} {v : Nat} {a : StatusAnswer} {t : ErrorTable} :
    s.changed v (a, s.abi v, t) = s.answered (a, t) := by
  rw [StatusState.changed, StatusState.store, StatusState.answered, Function.update_eq_self]
  rfl

/-- The local has the error that the function has set, or none. -/
theorem filled_same {status : Bytes} {withError : Bool} :
    SameStatus fmt L status (StatusState.filled fmt L status withError) := by
  cases withError with
  | true => exact .refl status
  | false => exact .putError

theorem keepError_same {n : NativeState} {v : Nat} {status : Bytes} :
    SameStatus fmt L status (n.keepError fmt L v status) := by
  rw [NativeState.keepError]
  split
  · exact .putError
  · exact .refl status

theorem SameStatus.symm {st st' : Bytes} (h : SameStatus fmt L st st') : SameStatus fmt L st' st :=
  ⟨h.source.symm, h.tag.symm, fun a ha hnot => (h.hidden a ha hnot).symm⟩

namespace StatusRel

variable {n : NativeState} {s : StatusState} {v : Nat}

theorem init {t : ErrorTable} {abi : Nat → Bytes} (hdef : ∀ v, ErrorDefined fmt (abi v)) :
    StatusRel impl .init ⟨t, abi, []⟩ where
  status _ _ h := nomatch h
  mark _ _ := rfl
  defined := hdef
  answers := .nil

theorem mono {t : ErrorTable} (h : StatusRel impl n s) (hext : s.errors.Extends t) :
    StatusRel impl n { s with errors := t } where
  status v st hv := (h.status v st hv).mono hext
  mark := h.mark
  defined := h.defined
  answers := h.answers.imp fun _ _ ha => ha.mono hext

theorem store {r : Bytes × ErrorTable} {st : Bytes} {mark : ErrorMark} (h : StatusRel impl n s)
    (hext : s.errors.Extends r.2) (hsim : StatusSim impl r.2 r.1 st mark)
    (hdef : ErrorDefined fmt r.1) : StatusRel impl (n.store v st mark) (s.store v r) where
  status w st' hw := by
    simp only [NativeState.store, StatusState.store, Function.update_apply] at hw ⊢
    split at hw
    · next hwv =>
        subst hwv
        cases hw
        simpa only [if_true] using hsim
    · next hwv => simpa only [hwv, if_false] using (h.status w st' hw).mono hext
  mark w hw := by
    simp only [NativeState.store, Function.update_apply] at hw ⊢
    split at hw
    · cases hw
    · next hwv => simpa only [hwv, if_false] using h.mark w hw
  defined := forall_update hdef h.defined
  answers := h.answers.imp fun _ _ ha => ha.mono hext

theorem answered {r : StatusAnswer × ErrorTable} {a : NativeAnswer} (h : StatusRel impl n s)
    (hext : s.errors.Extends r.2) (ha : AnswerNames impl r.2 r.1 a) :
    StatusRel impl (n.answered a) (s.answered r) where
  status w st hw := (h.status w st hw).mono hext
  mark := h.mark
  defined := h.defined
  answers := List.rel_append (h.answers.imp fun _ _ ha => ha.mono hext) (.cons ha .nil)

/-- What a call is given of a variable. -/
theorem given (h : StatusRel impl n s) (v : Nat) (stack : Bytes) :
    ∃ down, statusFromabi fmt L impl.consts (s.abi v) stack s.errors = some down :=
  Option.isSome_iff_exists.mp (statusFromabi_isSome.mpr (h.defined v))

/-- What a body with a status to change makes of its call. -/
theorem changed {r : Int32 × Bytes} {left down st stack : Bytes} (h : StatusRel impl n s)
    (hroom : s.errors.count < errorcodeSlots) (hv : n.status v = some st)
    (hdown : statusFromabi fmt L impl.consts (s.abi v) stack s.errors = some down)
    (hleft : SameStatus fmt L left r.2)
    (hnamed : ∀ a, L.namedOff ≤ a → a < L.tailOff → r.2 a = st a ∧ left a = down a) :
    StatusRel impl (n.changed v r)
      (s.changed v (statusStored fmt L impl r.1 left (s.abi v) stack s.errors)) := by
  have hsim := h.status v st hv
  have hint : ∀ f : StatusField, r.2.getInt fmt (f.implOff L) = st.getInt fmt (f.implOff L) ∧
      left.getInt fmt (f.implOff L) = down.getInt fmt (f.implOff L) := by
    intro f
    have hoff := StatusField.implOff_le (f := f) (L := L)
    exact ⟨Bytes.getInt_congr fun i hi => (hnamed _ (by omega) (by omega)).1,
      Bytes.getInt_congr fun i hi => (hnamed _ (by omega) (by omega)).2⟩
  have hproper : ProperStatus impl r.2 := fun f => (hint f).1 ▸ hsim.proper f
  have herror : r.2.getInt fmt L.error = st.getInt fmt L.error ∧
      left.getInt fmt L.error = down.getInt fmt L.error := hint .error
  rw [NativeState.changed, StatusState.changed, statusStored]
  by_cases h0 : r.1 = 0
  · simp only [h0, if_true]
    refine answered (h.store statusToabi_extends (StatusSim.up hleft hproper ?_)
      statusToabiWhole_defined) toabi_extends ⟨errorNames_success, rfl⟩
    have hnames : ErrorNames impl.consts.errors
        (statusToabiWhole fmt L impl.consts left (s.abi v) stack s.errors).2
        ((statusToabiWhole fmt L impl.consts left (s.abi v) stack s.errors).1.getInt fmt abiError)
        (left.getInt fmt L.error) := statusToabiWhole_names hroom
    obtain ⟨hset, hkept⟩ := hsim.down_error hdown
    cases hmark : n.mark v with
    | unset => trivial
    | set =>
        rw [herror.2, hset hmark, ← herror.1] at hnames
        exact hnames
    | kept =>
        rw [ErrorMark.names, statusToabi_error.1, herror.2, hkept hmark]
        rfl
  · have hself := s.changed_self (v := v)
      (a := ⟨(errorcodeToabi impl.consts.errors r.1 s.errors).1, none⟩)
      (t := (errorcodeToabi impl.consts.errors r.1 s.errors).2)
    rw [StatusState.changed] at hself
    simp only [h0, if_false]
    rw [hself]
    exact h.answered toabi_extends ⟨errorNames_toabi hroom, rfl⟩

variable {stack : Bytes}

/-- The error of a variable is named by that of its object. -/
theorem keptError {status : Bytes} (h : StatusRel impl n s) :
    (n.mark v).names impl s.errors ((s.abi v).getInt fmt abiError)
      ((n.keepError fmt L v status).getInt fmt L.error) := by
  rw [NativeState.keepError]
  cases hold : n.status v with
  | none =>
      rw [h.mark v hold]
      trivial
  | some old =>
      simp only [Bytes.getInt_putInt]
      exact (h.status v old hold).error

/-- A received status has the error that its variable had, unless it is empty. -/
theorem received {status : Bytes} {withError : Bool} (h : StatusRel impl n s)
    (hroom : s.errors.count < errorcodeSlots) (hproper : ProperStatus impl status)
    (hempty : withError = true ↔ EmptyStatus impl status) :
    StatusRel impl (n.received fmt L v status withError)
      (s.store v (statusToabiKeepError fmt L impl.consts
        (StatusState.filled fmt L status withError) (s.abi v) stack s.errors)) := by
  cases withError with
  | true =>
      have hkeep : statusEmpty fmt L impl.consts status = true :=
        statusEmpty_iff.mpr (hempty.mp rfl)
      simp only [NativeState.received, StatusState.filled, if_true]
      rw [statusToabiKeepError_empty hkeep]
      exact h.store statusToabi_extends
        (StatusSim.up (.refl status) hproper (statusToabiWhole_names hroom))
        statusToabiWhole_defined
  | false =>
      have hsame : SameStatus fmt L status (StatusState.filled fmt L status false) := filled_same
      have hkeep : statusEmpty fmt L impl.consts (StatusState.filled fmt L status false) =
          false := by
        rw [← Bool.not_eq_true, statusEmpty_iff, ← EmptyStatus.congr hsame, ← hempty]
        exact Bool.false_ne_true
      simp only [NativeState.received, Bool.false_eq_true, if_false]
      refine h.store statusToabi_extends (StatusSim.up (hsame.symm.trans keepError_same)
        (hproper.congr keepError_same) ?_) (statusToabiKeepError_defined (h.defined v))
      rw [statusToabiKeepError_kept hkeep]
      exact ErrorMark.names_mono h.keptError statusToabi_extends

/-- An element of an array of statuses is converted whole. -/
theorem completed {status : Bytes} {withError : Bool} (h : StatusRel impl n s)
    (hroom : s.errors.count < errorcodeSlots) (hproper : ProperStatus impl status) :
    StatusRel impl (n.completed fmt L v status withError)
      (s.store v (statusToabiWhole fmt L impl.consts (StatusState.filled fmt L status withError)
        (s.abi v) stack s.errors)) := by
  cases withError with
  | true =>
      simp only [NativeState.completed, StatusState.filled, if_true]
      exact h.store statusToabi_extends
        (StatusSim.up (.refl status) hproper (statusToabiWhole_names hroom))
        statusToabiWhole_defined
  | false =>
      have hsame : SameStatus fmt L status (StatusState.filled fmt L status false) := filled_same
      simp only [NativeState.completed, Bool.false_eq_true, if_false]
      refine h.store statusToabi_extends (StatusSim.up (hsame.symm.trans keepError_same)
        (hproper.congr keepError_same) ?_) statusToabiWhole_defined
      have hzero : (StatusState.filled fmt L status false).getInt fmt L.error = 0 := by
        simp only [StatusState.filled, Bool.false_eq_true, if_false, Bytes.getInt_putInt]
      -- Behind the wrapper there was no error.
      cases hmark : n.mark v with
      | unset => trivial
      | set | kept =>
          rw [ErrorMark.leftAlone, ErrorMark.names, statusToabi_error.1, hzero]
          rfl

/-- A body whose function the implementation lacks. -/
theorem lacking {a : NativeAnswer} (h : StatusRel impl n s)
    (ha : AnswerNames impl s.errors ⟨abiErrUnsupportedOperation, none⟩ a) :
    StatusRel impl (n.answered a) (s.answered (⟨abiErrUnsupportedOperation, none⟩, s.errors)) :=
  h.answered (.refl s.errors) ha

/-- The `#ifdef`s choose what a program would. -/
theorem queryTarget_eq {q : StatusQuery} :
    impl.queryTarget q = NativeState.queryFunction impl q := by
  unfold ImplStatus.queryTarget NativeState.queryFunction
  cases q <;> simp only [StatusQuery.otherwise, Option.filter]

theorem setterTarget_eq {q : StatusSetter} :
    impl.setterTarget q = NativeState.setterFunction impl q := by
  unfold ImplStatus.setterTarget NativeState.setterFunction
  cases q <;> simp only [StatusSetter.otherwise, Option.filter]

theorem queried {st : Bytes} {q : StatusQuery} {abiDatatype datatype : UInt64}
    (h : StatusRel impl n s) (hroom : s.errors.count < errorcodeSlots)
    (hv : n.status v = some st)
    (hmeans : HandleMeans impl.handles .datatype abiDatatype datatype) :
    ∃ s', (statusQuery fmt L impl q (s.abi v) abiDatatype stack s.errors).map s.answered =
        some s' ∧
      StatusRel impl
        (match NativeState.queryFunction impl q with
          | none => n.answered (.count (NativeState.lacking impl) none)
          | some q =>
              let r := impl.fns.query q st datatype
              n.answered (.count r.1 (if r.1 = 0 then some r.2 else none))) s' := by
  rw [statusQuery, queryTarget_eq]
  cases hq : NativeState.queryFunction impl q with
  | none => exact ⟨_, rfl, h.lacking ⟨errorNames_unsupported, .none⟩⟩
  | some target =>
      obtain ⟨down, hdown⟩ := h.given v stack
      have hsame := (h.status v st hv).down hdown
      simp only [hdown, Option.map_some, hmeans.fromabi]
      rw [impl.fns.query_congr hsame]
      refine ⟨_, rfl, h.answered toabi_extends ⟨errorNames_toabi hroom, ?_⟩⟩
      split
      · exact .some countToabi_names
      · exact .none

theorem cancelTested {st : Bytes} (h : StatusRel impl n s)
    (hroom : s.errors.count < errorcodeSlots) (hv : n.status v = some st) :
    ∃ s', (testCancelled fmt L impl (s.abi v) stack s.errors).map s.answered = some s' ∧
      StatusRel impl
        (if impl.hasTestCancelled then
          let r := impl.fns.testCancelled st
          n.answered (.flag r.1 (if r.1 = 0 then some r.2 else none))
        else n.answered (.flag (NativeState.lacking impl) none)) s' := by
  rw [testCancelled]
  cases hhas : impl.hasTestCancelled with
  | false =>
      simp only [Bool.false_eq_true, if_false]
      exact ⟨_, rfl, h.lacking ⟨errorNames_unsupported, rfl⟩⟩
  | true =>
      obtain ⟨down, hdown⟩ := h.given v stack
      have hsame := (h.status v st hv).down hdown
      simp only [if_true, hdown, Option.map_some]
      rw [impl.fns.testCancelled_congr hsame]
      exact ⟨_, rfl, h.answered toabi_extends ⟨errorNames_toabi hroom, rfl⟩⟩

theorem elementsSet {st : Bytes} {q : StatusSetter} {abiDatatype datatype : UInt64} {count : Int}
    (h : StatusRel impl n s) (hroom : s.errors.count < errorcodeSlots)
    (hv : n.status v = some st)
    (hmeans : HandleMeans impl.handles .datatype abiDatatype datatype) :
    ∃ s', (statusSetElements fmt L impl q (s.abi v) abiDatatype count stack s.errors).map
        (s.changed v) = some s' ∧
      StatusRel impl
        (match NativeState.setterFunction impl q with
          | none => n.answered (.done (NativeState.lacking impl))
          | some q => n.changed v (impl.fns.setElements q st datatype count)) s' := by
  rw [statusSetElements, setterTarget_eq]
  cases hq : NativeState.setterFunction impl q with
  | none =>
      simp only [Option.map_some]
      rw [StatusState.changed_self]
      exact ⟨_, rfl, h.lacking ⟨errorNames_unsupported, rfl⟩⟩
  | some target =>
      obtain ⟨down, hdown⟩ := h.given v stack
      have hcongr := impl.fns.setElements_congr (q := target) (n := count) (d := datatype)
        ((h.status v st hv).down hdown)
      simp only [hdown, Option.map_some, hmeans.fromabi]
      rw [hcongr.1]
      exact ⟨_, rfl, h.changed hroom hv hdown hcongr.2 fun a hlo hhi =>
        ⟨impl.fns.setElements_named hlo hhi, impl.fns.setElements_named hlo hhi⟩⟩

theorem cancelledSet {st : Bytes} {flag : Int} (h : StatusRel impl n s)
    (hroom : s.errors.count < errorcodeSlots) (hv : n.status v = some st) :
    ∃ s', (statusSetCancelled fmt L impl (s.abi v) flag stack s.errors).map (s.changed v) =
        some s' ∧
      StatusRel impl
        (if impl.hasSetCancelled then n.changed v (impl.fns.setCancelled st flag)
        else n.answered (.done (NativeState.lacking impl))) s' := by
  rw [statusSetCancelled]
  cases hhas : impl.hasSetCancelled with
  | false =>
      simp only [Bool.false_eq_true, if_false, Option.map_some]
      rw [StatusState.changed_self]
      exact ⟨_, rfl, h.lacking ⟨errorNames_unsupported, rfl⟩⟩
  | true =>
      obtain ⟨down, hdown⟩ := h.given v stack
      have hcongr : _ ∧ SameStatus fmt L _ (impl.fns.setCancelled st flag).2 :=
        impl.fns.setCancelled_congr ((h.status v st hv).down hdown)
      simp only [if_true, hdown, Option.map_some]
      rw [hcongr.1]
      exact ⟨_, rfl, h.changed hroom hv hdown hcongr.2 fun a hlo hhi =>
        ⟨impl.fns.setCancelled_named hlo hhi, impl.fns.setCancelled_named hlo hhi⟩⟩

theorem fieldRead {st : Bytes} {f : StatusField} (h : StatusRel impl n s)
    (hv : n.status v = some st) :
    StatusRel impl (n.answered (n.fieldAnswer fmt L f v st))
      (s.answered (⟨0, some ((s.abi v).getInt fmt f.abiOff).toInt⟩, s.errors)) := by
  have hsim := h.status v st hv
  refine h.answered (.refl s.errors) ?_
  rw [NativeState.fieldAnswer]
  split
  · next hf =>
      subst hf
      have herror := hsim.error
      cases hmark : n.mark v with
      | unset => exact ⟨rfl, _, rfl, nofun⟩
      | set =>
          rw [hmark] at herror
          refine ⟨rfl, _, rfl, fun native hn => ?_⟩
          cases hn
          exact herror
      | kept =>
          rw [hmark] at herror
          have hzero : (s.abi v).getInt fmt StatusField.error.abiOff = 0 := herror
          show (⟨0, some ((s.abi v).getInt fmt StatusField.error.abiOff).toInt⟩ : StatusAnswer) =
            ⟨0, some 0⟩
          rw [hzero, Int32.toInt_zero]
  · next hf =>
      refine ⟨rfl, _, rfl, fun native hn => ?_⟩
      cases hn
      exact StatusField.names_of_ne hf (hsim.field f)

theorem fieldSet {st : Bytes} {f : StatusField} {x value : Int32} (h : StatusRel impl n s)
    (hv : n.status v = some st) (hx : f.names impl s.errors .set x value)
    (hproper : f.proper impl value) :
    StatusRel impl
      ((n.store v (st.putInt fmt (f.implOff L) value)
        (if f = .error then .set else n.mark v)).answered (.done 0))
      ((s.store v ((s.abi v).putInt fmt f.abiOff x, s.errors)).answered
        (⟨0, none⟩, s.errors)) := by
  have hsim := (h.status v st hv).setField hx hproper
  have hstore := h.store (v := v) (r := ((s.abi v).putInt fmt f.abiOff x, s.errors))
    (.refl s.errors) hsim (setField_defined (h.defined v) hx)
  exact hstore.answered (.refl s.errors) ⟨errorNames_success, rfl⟩

theorem converted {st : Bytes} {src dst : Nat} (h : StatusRel impl n s)
    (hv : n.status src = some st) :
    StatusRel impl (n.store dst st (n.mark src))
      (s.store dst (statusConvert (s.abi src) (s.abi dst), s.errors)) := by
  have hdef : ErrorDefined fmt (statusConvert (s.abi src) (s.abi dst)) := by
    have hkeep : (statusConvert (s.abi src) (s.abi dst)).getInt fmt abiError =
        (s.abi src).getInt fmt abiError := StatusSim.statusConvert_field (f := .error)
    rw [ErrorDefined, hkeep]
    exact h.defined src
  exact h.store (.refl s.errors) (h.status src st hv).convert hdef

end StatusRel

/-- What an action has to keep to. A status that a call leaves is proper, and a
call with one status sets `MPI_ERROR` in the empty one alone; and what a program
passes behind the wrapper means what it passes without. -/
def statusOpOk (impl : ImplStatus fmt L) (t : ErrorTable) : StatusOp → Prop
  | .receive _ status withError =>
      ProperStatus impl status ∧ (withError = true ↔ EmptyStatus impl status)
  | .complete _ status _ => ProperStatus impl status
  | .query _ _ abiDatatype datatype | .setElements _ _ abiDatatype datatype _ =>
      HandleMeans impl.handles .datatype abiDatatype datatype
  | .setField f _ abi value => f.names impl t .set abi value ∧ f.proper impl value
  | .testCancelled _ | .setCancelled .. | .getField .. | .convert .. => True

/-- And the table has room for a code. -/
def statusActOk (impl : ImplStatus fmt L) (p : NativeState × StatusState) (a : StatusAct) : Prop :=
  p.2.errors.count < errorcodeSlots ∧ statusOpOk impl p.2.errors a.op

/-- A step of the program without the wrapper is one behind it. -/
theorem status_step :
    StepSimulates (NativeState.step impl) (StatusState.step impl) (statusActOk impl)
      (StatusRel impl) := by
  intro n s ⟨op, stack⟩ n' h ⟨hroom, hok⟩ hstep
  cases op with
  | receive v status withError =>
      cases hstep
      exact ⟨_, rfl, h.received hroom hok.1 hok.2⟩
  | complete v status withError =>
      cases hstep
      exact ⟨_, rfl, h.completed hroom hok⟩
  | query q v abiDatatype datatype =>
      obtain ⟨st, hv, rfl⟩ := Option.map_eq_some_iff.mp hstep
      exact h.queried hroom hv hok
  | testCancelled v =>
      obtain ⟨st, hv, rfl⟩ := Option.map_eq_some_iff.mp hstep
      exact h.cancelTested hroom hv
  | setElements q v abiDatatype datatype count =>
      obtain ⟨st, hv, rfl⟩ := Option.map_eq_some_iff.mp hstep
      exact h.elementsSet hroom hv hok
  | setCancelled v flag =>
      obtain ⟨st, hv, rfl⟩ := Option.map_eq_some_iff.mp hstep
      exact h.cancelledSet hroom hv
  | getField f v =>
      obtain ⟨st, hv, rfl⟩ := Option.map_eq_some_iff.mp hstep
      exact ⟨_, rfl, h.fieldRead hv⟩
  | setField f v abi value =>
      obtain ⟨st, hv, rfl⟩ := Option.map_eq_some_iff.mp hstep
      exact ⟨_, rfl, h.fieldSet hv hok.1 hok.2⟩
  | convert src dst =>
      obtain ⟨st, hv, rfl⟩ := Option.map_eq_some_iff.mp hstep
      exact ⟨_, rfl, h.converted hv⟩

/-- What the implementation is given of a program's status behind the wrapper,
with any `MPI_ERROR` that has a value and has not been left alone. -/
structure StatusGiven (impl : ImplStatus fmt L) (n : NativeState) (v : Nat) (st down : Bytes) :
    Prop where
  same : SameStatus fmt L down st
  error : n.mark v = .set → down.getInt fmt L.error = st.getInt fmt L.error
  kept : n.mark v = .kept → down.getInt fmt L.error = 0

/-- What a program with its statuses behind the wrapper has of one without. -/
structure StatusesMatch (impl : ImplStatus fmt L) (n : NativeState) (s : StatusState) : Prop where
  answers : List.Forall₂ (AnswerNames impl s.errors) s.answers n.answers
  status : ∀ v st, n.status v = some st → ∀ stack, ∃ down,
    statusFromabi fmt L impl.consts (s.abi v) stack s.errors = some down ∧
      StatusGiven impl n v st down

theorem StatusRel.matched {n : NativeState} {s : StatusState} (h : StatusRel impl n s) :
    StatusesMatch impl n s where
  answers := h.answers
  status v st hv stack := by
    obtain ⟨down, hdown⟩ := h.given v stack
    have hsim := h.status v st hv
    obtain ⟨hset, hkept⟩ := hsim.down_error hdown
    exact ⟨down, hdown, hsim.down hdown, hset, hkept⟩

/-- Every program that an implementation can run runs behind the wrapper, and is
answered the same: for every layout of the implementation's status, every
numbering, and whatever it computes from an object. -/
theorem statuses_simulate {abi : Nat → Bytes} {run : List StatusAct} {n : NativeState}
    (hdef : ∀ v, ErrorDefined fmt (abi v))
    (hok : Meets (both (NativeState.step impl) (StatusState.step impl)) (statusActOk impl)
      (.init, .init abi) run)
    (hrun : exec (NativeState.step impl) .init run = some n) :
    ∃ s, exec (StatusState.step impl) (.init abi) run = some s ∧ StatusesMatch impl n s := by
  obtain ⟨s, hs, h⟩ := simulates status_step (.init hdef) hok hrun
  exact ⟨s, hs, h.matched⟩

/-- An implementation that keeps a count in its first private byte and the flag
behind the named fields. -/
def byteCounts : StatusFns .littleEndian splitLayout where
  query _ st _ := (0, (st 0).toNat)
  testCancelled st := (0, (st 20).toNat)
  setElements _ st _ n := (0, Function.update st 0 (UInt8.ofNat n.toNat))
  setCancelled st flag := (0, Function.update st 20 (if flag = 0 then 0 else 1))
  query_congr h := by rw [h.hidden 0 (by decide) (by decide)]
  testCancelled_congr h := by rw [h.hidden 20 (by decide) (by decide)]
  setElements_congr h := ⟨rfl, h.update (by decide)⟩
  setCancelled_congr h := ⟨rfl, h.update (by decide)⟩
  setElements_named hlo _ :=
    Function.update_of_ne (by rintro rfl; exact absurd hlo (by decide)) _ _
  setCancelled_named _ hhi :=
    Function.update_of_ne (by rintro rfl; exact absurd hhi (by decide)) _ _

def byteImpl : ImplStatus .littleEndian splitLayout where
  consts := sharedSentinels
  handles := ⟨fun _ => true, id⟩
  fns := byteCounts
  hasQuery q := q = .getCount
  hasSetter q := q = .setElements
  hasTestCancelled := true
  hasSetCancelled := false

theorem fromNobody_proper : ProperStatus byteImpl fromNobody := by
  intro f
  cases f with
  | source =>
      show sharedSentinels.rankSentinels.proper (fromNobody.getInt .littleEndian splitLayout.source)
      decide
  | tag =>
      show sharedSentinels.tagSentinels.proper (fromNobody.getInt .littleEndian splitLayout.tag)
      decide
  | error => trivial

theorem fromNobody_not_empty : ¬ EmptyStatus byteImpl fromNobody := by
  unfold EmptyStatus
  decide

theorem signedChar_means : HandleMeans byteImpl.handles .datatype 0x209 0x209 :=
  .predefined (by decide +kernel)

/-- A receive from nobody, whose count the program then changes and reads; and the
same variable once more, completed with an error and, at last, without one. -/
def countedRun : List StatusAct :=
  [⟨.receive 3 fromNobody false, fun _ => 7⟩,
    ⟨.setElements .setElements 3 0x209 0x209 5, fun _ => 8⟩,
    ⟨.query .getCountC 3 0x209 0x209, fun _ => 9⟩, ⟨.getField .source 3, fun _ => 7⟩,
    ⟨.complete 3 fromNobody true, fun _ => 7⟩, ⟨.complete 3 fromNobody false, fun _ => 8⟩,
    ⟨.getField .error 3, fun _ => 9⟩]

theorem fromNobody_received (v : Nat) (t : ErrorTable) :
    statusOpOk byteImpl t (.receive v fromNobody false) :=
  ⟨fromNobody_proper, nofun, fun hempty => absurd hempty fromNobody_not_empty⟩

/-- Every action of the run keeps to what it has to, and there is room. -/
theorem countedRun_ok :
    Meets (both (NativeState.step byteImpl) (StatusState.step byteImpl)) (statusActOk byteImpl)
      (.init, .init fun _ _ => 0xa5) countedRun := by
  have hroom : Meets (both (NativeState.step byteImpl) (StatusState.step byteImpl))
      (fun p _ => p.2.errors.count < errorcodeSlots) (.init, .init fun _ _ => 0xa5)
      countedRun := by decide +kernel
  refine hroom.and (Meets.of_forall fun a ha p => ?_)
  simp only [countedRun, List.mem_cons, List.not_mem_nil, or_false] at ha
  rcases ha with rfl | rfl | rfl | rfl | rfl | rfl | rfl
  · exact fromNobody_received 3 _
  · exact signedChar_means
  · exact signedChar_means
  · trivial
  · exact fromNobody_proper
  · exact fromNobody_proper
  · trivial

theorem countedRun_simulated :
    ∃ n s, exec (NativeState.step byteImpl) .init countedRun = some n ∧
      exec (StatusState.step byteImpl) (.init fun _ _ => 0xa5) countedRun = some s ∧
        StatusesMatch byteImpl n s := by
  obtain ⟨n, hn⟩ := Option.isSome_iff_exists.mp
    (by decide +kernel : (exec (NativeState.step byteImpl) .init countedRun).isSome = true)
  obtain ⟨s, hs, h⟩ := statuses_simulate (fun _ => by unfold ErrorDefined; decide +kernel)
    countedRun_ok hn
  exact ⟨n, s, hn, hs, h⟩

/-! ## The query function of a generalized request -/

/-- What a query function starts with. -/
theorem StatusRel.entered {status stack : Bytes} {withError : Bool} {abi : Nat → Bytes}
    {t : ErrorTable} (hdef : ∀ v, ErrorDefined fmt (abi v)) (hroom : t.count < errorcodeSlots)
    (hproper : ProperStatus impl status) :
    StatusRel impl (.queried status withError) (.queried impl status abi stack t) := by
  have hset : StatusSim impl _ (statusToabiWhole fmt L impl.consts status (abi 0) stack t).1
      status .set :=
    StatusSim.up (.refl status) hproper (statusToabiWhole_names hroom)
  refine (StatusRel.init hdef).store (s := ⟨t, abi, []⟩) statusToabi_extends ?_
    statusToabiWhole_defined
  cases withError with
  | true => exact hset
  | false => exact hset.unset

end AbiWrapper.Ref
