import AbiWrapper.Ref.Errorcodes

/-!
# Attribute keys (keyvals.c, constants.c, extrastate.c, hw_callbacks.c)

Thirteen attribute keys and the invalid one are translated by a switch in each
direction, which is compiled without guards. A key created at run time is
entered in an append-only registry: its ABI value is a base plus its index, and
the way up is a scan from the newest entry. The way down is undefined for the
lowest integers, and a call that comes to it has no next state.

Keys of communicators, datatypes and windows share the registry, and their
three create bodies are one text. Nothing is ever removed, while the
implementation may use the number of a freed key again, so an entry can be
stale. The state of a history therefore also keeps which keys the
implementation has not let go of, and what has been issued for each.

The counter of the sequential table never passes its capacity, so no entry that
has not been written is read and a vacant one is not a number.
-/

namespace AbiWrapper.Ref

open AbiWrapper.Lib

structure KeyvalRow where
  abi : Int32
  name : String
deriving DecidableEq, Repr

def keyvalRows : List KeyvalRow :=
  [⟨0, "MPI_KEYVAL_INVALID"⟩, ⟨501, "MPI_TAG_UB"⟩, ⟨502, "MPI_IO"⟩, ⟨503, "MPI_HOST"⟩,
   ⟨504, "MPI_WTIME_IS_GLOBAL"⟩, ⟨505, "MPI_APPNUM"⟩, ⟨506, "MPI_LASTUSEDCODE"⟩,
   ⟨507, "MPI_UNIVERSE_SIZE"⟩, ⟨601, "MPI_WIN_BASE"⟩, ⟨602, "MPI_WIN_DISP_UNIT"⟩,
   ⟨603, "MPI_WIN_SIZE"⟩, ⟨604, "MPI_WIN_CREATE_FLAVOR"⟩, ⟨605, "MPI_WIN_MODEL"⟩]

def abiKeyvalInvalid : Int32 := 0

/-- An implementation's attribute keys, by the ABI's. -/
structure ImplKeyvals where
  code : Int32 → Int32
  /-- The cases of a switch differ. -/
  distinct : ∀ row, row ∈ keyvalRows → ∀ row', row' ∈ keyvalRows →
    code row.abi = code row'.abi → row.abi = row'.abi

def ImplKeyvals.invalid (impl : ImplKeyvals) : Int32 := impl.code abiKeyvalInvalid

/-! ## The registry -/

def keyvalSlots : Nat := 1024

def keyvalAbiBase : Int32 := 0x40000000

/-- `keyval_impl` and `keyval_count`. -/
abbrev KeyvalTable := Registry (Option Int32) keyvalSlots none

def keyvalAdd (keyval : Int32) (t : KeyvalTable) : Option (Int32 × KeyvalTable) :=
  (t.append (some keyval) (Option.some_ne_none keyval)).map fun p =>
    (codeOf keyvalAbiBase p.1, p.2)

def keyvalDynamicFromabi (impl : ImplKeyvals) (abiKeyval : Int32) (t : KeyvalTable) :
    Option Int32 :=
  (slotOf keyvalSlots keyvalAbiBase abiKeyval).map fun slot =>
    match slot with
    | none => impl.invalid
    | some slot => if t.count ≤ slot then impl.invalid else (t.slot slot).getD 0

def keyvalDynamicToabi (impl : ImplKeyvals) (keyval : Int32) (t : KeyvalTable) : Int32 :=
  if keyval = impl.invalid then abiKeyvalInvalid
  else
    match t.find (some keyval) with
    | some slot => codeOf keyvalAbiBase slot
    | none => abiKeyvalInvalid

/-! ## The switches -/

def keyvalFromabi (impl : ImplKeyvals) (abiKeyval : Int32) (t : KeyvalTable) : Option Int32 :=
  match keyvalRows.find? fun row => row.abi = abiKeyval with
  | some row => some (impl.code row.abi)
  | none => keyvalDynamicFromabi impl abiKeyval t

def keyvalToabi (impl : ImplKeyvals) (keyval : Int32) (t : KeyvalTable) : Int32 :=
  match keyvalRows.find? fun row => impl.code row.abi = keyval with
  | some row => row.abi
  | none => keyvalDynamicToabi impl keyval t

/-! ## The bodies -/

inductive AttrKind
  | comm | type | win
deriving DecidableEq, Repr

/-- `MPIABI_*_NULL_COPY_FN`, `MPIABI_*_DUP_FN`, or a function of the caller's. -/
inductive CopyFn
  | null
  | dup
  | user (fn : UInt64)
deriving DecidableEq, Repr

inductive DeleteFn
  | null
  | user (fn : UInt64)
deriving DecidableEq, Repr

/-- The copy function that is passed down. -/
inductive ImplCopyFn
  | null | dup | tramp
deriving DecidableEq, Repr

inductive ImplDeleteFn
  | null | tramp
deriving DecidableEq, Repr

/-- The extra state that is passed down: the caller's own, or a pair of
functions with it. -/
inductive AttrState
  | extra (extraState : UInt64)
  | pair (copy : CopyFn) (delete : DeleteFn) (extraState : UInt64)
deriving DecidableEq, Repr

structure AttrFns where
  copy : ImplCopyFn
  delete : ImplDeleteFn
  state : AttrState
deriving DecidableEq, Repr

/-- `mpiwrapper_comm_attr_fns`, `_type_` and `_win_`, which are one text;
`mallocOk` is whether the pair could be allocated. -/
def attrFns (copy : CopyFn) (delete : DeleteFn) (extraState : UInt64) (mallocOk : Bool) :
    Option AttrFns :=
  match copy, delete with
  | .null, .null => some ⟨.null, .null, .extra extraState⟩
  | .dup, .null => some ⟨.dup, .null, .extra extraState⟩
  | _, _ =>
      if mallocOk then
        some
          { copy := match copy with
              | .null => .null
              | .dup => .dup
              | .user _ => .tramp
            delete := match delete with
              | .null => .null
              | .user _ => .tramp
            state := .pair copy delete extraState }
      else none

/-- The arguments of a create body, and what it meets: the implementation's
function, which may be absent, and the allocation. -/
structure CreateKeyval where
  kind : AttrKind
  copy : CopyFn
  delete : DeleteFn
  extraState : UInt64
  mallocOk : Bool
  target : Option (AttrFns → Outcome)

/-- What a create body returns, what it stores, and the tables. -/
structure CreatedKeyval where
  abiIerror : Int32
  abiKeyval : Int32
  table : KeyvalTable
  errors : ErrorTable

/-- `BODY_CREATE_KEYVAL`, and the body of a kind the implementation lacks. -/
def createKeyval (errs : ImplErrors) (call : CreateKeyval) (t : KeyvalTable)
    (errors : ErrorTable) : CreatedKeyval :=
  match call.target with
  | none => ⟨abiErrUnsupportedOperation, abiKeyvalInvalid, t, errors⟩
  | some target =>
      match attrFns call.copy call.delete call.extraState call.mallocOk with
      | none => ⟨abiErrIntern, abiKeyvalInvalid, t, errors⟩
      | some fns =>
          if (target fns).ierror ≠ 0 then
            let (abiIerror, errors') := errorcodeToabi errs (target fns).ierror errors
            ⟨abiIerror, abiKeyvalInvalid, t, errors'⟩
          else
            match keyvalAdd (target fns).number t with
            | none => ⟨abiErrIntern, abiKeyvalInvalid, t, errors⟩
            | some (abiKeyval, t') => ⟨0, abiKeyval, t', errors⟩

/-- The keyval the implementation creates during the call. -/
def CreateKeyval.created (call : CreateKeyval) : Option Int32 :=
  match call.target, attrFns call.copy call.delete call.extraState call.mallocOk with
  | some target, some fns => if (target fns).ierror = 0 then some (target fns).number else none
  | _, _ => none

/-- `BODY_MPI_Comm_free_keyval`, `_Type_` and `_Win_`: the code it returns, the
keyval it stores, and the codes' table. -/
def freeKeyval (impl : ImplKeyvals) (errs : ImplErrors) (target : Option (Int32 → Outcome))
    (abiKeyval : Int32) (t : KeyvalTable) (errors : ErrorTable) :
    Option (Int32 × Int32 × ErrorTable) :=
  match target with
  | none => some (abiErrUnsupportedOperation, abiKeyval, errors)
  | some target =>
      (keyvalFromabi impl abiKeyval t).map fun keyval =>
        let out := target keyval
        let (abiIerror, errors') := errorcodeToabi errs out.ierror errors
        (abiIerror, keyvalToabi impl out.number t, errors')

/-! ## Histories -/

inductive KeyvalCall
  | create (call : CreateKeyval)
  | free (kind : AttrKind) (target : Option (Int32 → Outcome)) (abiKeyval : Int32)
  /-- The implementation lets go of a keyval and may use its number again. -/
  | retire (keyval : Int32)

/-- The tables; the keyvals the implementation has created and not let go of,
each with the ABI value its create handed out, if it did; and the ABI values
that have been handed out, each with its keyval. -/
structure KeyvalState where
  table : KeyvalTable
  errors : ErrorTable
  live : List (Int32 × Option Int32)
  issued : List (Int32 × Int32)

namespace KeyvalState

def init : KeyvalState := ⟨.empty, .empty, [], []⟩

/-- The state after a create in which the implementation created `created`. -/
def entered (s : KeyvalState) (created : Option Int32) (r : CreatedKeyval) : KeyvalState :=
  match created with
  | none => { s with table := r.table, errors := r.errors }
  | some keyval =>
      let abi := if r.abiIerror = 0 then some r.abiKeyval else none
      { table := r.table
        errors := r.errors
        live := s.live ++ [(keyval, abi)]
        issued := s.issued ++ (abi.map fun a => (a, keyval)).toList }

def step (impl : ImplKeyvals) (errs : ImplErrors) (s : KeyvalState) :
    KeyvalCall → Option KeyvalState
  | .create call => some (s.entered call.created (createKeyval errs call s.table s.errors))
  | .free _ target abiKeyval =>
      (freeKeyval impl errs target abiKeyval s.table s.errors).map fun r =>
        { s with errors := r.2.2 }
  | .retire keyval =>
      if s.live.any fun p => p.1 = keyval then
        some { s with live := s.live.filter fun p => p.1 ≠ keyval }
      else none

end KeyvalState

/-- The implementation creates no keyval that is live, and none that is one of
its predefined keys. -/
def keyvalsDistinct (impl : ImplKeyvals) (s : KeyvalState) : KeyvalCall → Prop
  | .create call => ∀ keyval, keyval ∈ call.created →
      (∀ p, p ∈ s.live → p.1 ≠ keyval) ∧ ∀ row, row ∈ keyvalRows → impl.code row.abi ≠ keyval
  | _ => True

-- Row by row, rather than over all the numbers that there are.
instance (impl : ImplKeyvals) (s : KeyvalState) :
    (c : KeyvalCall) → Decidable (keyvalsDistinct impl s c)
  | .create call =>
      decidable_of_iff (call.created.all fun keyval =>
        s.live.all (fun p => p.1 != keyval) &&
          keyvalRows.all fun row => impl.code row.abi != keyval) (by
            simp [keyvalsDistinct, Option.all_eq_true])
  | .free _ _ _ | .retire _ => .isTrue trivial

end AbiWrapper.Ref
