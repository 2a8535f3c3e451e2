import AbiWrapper.Lib.Run
import AbiWrapper.Ref.Fallbacks

/-!
# The Fortran compiler's properties (hw_abi.c)

`MPI_Abi_set_fortran_info` keeps a duplicate of the info object it is given, on
its first call. `MPI_Abi_get_fortran_info` hands that duplicate out; where none
is kept it derives the sizes that the build has probed and makes an object of
them for the caller, or answers the null handle.

An info object belongs to the implementation: a handle is live or not, and a
live one has a content. The objects are shared with the caller, who may free or
modify those whose handles it has, so what the caller does between the calls is
part of a run.
-/

namespace AbiWrapper.Ref

open AbiWrapper.Lib

abbrev InfoContent := List (String × String)

/-- `MPI_Info_set`: a key has one value. -/
def InfoContent.put (content : InfoContent) (key value : String) : InfoContent :=
  content.filter (fun p => p.1 ≠ key) ++ [(key, value)]

/-- `derived_logical_size`, `derived_integer_size` and `derived_real_size`. -/
structure FortranSizes where
  logical : Nat
  integer : Nat
  real : Nat
deriving DecidableEq, Repr

/-- The three keys with their sizes in digits. -/
def FortranSizes.content (sizes : FortranSizes) : InfoContent :=
  [("mpi_logical_size", sizes.logical.repr), ("mpi_integer_size", sizes.integer.repr),
   ("mpi_real_size", sizes.real.repr)]

/-- What `mpiwrapper_w_MPI_Abi_get_fortran_info` meets where nothing was set:
`fortran_derived_usable` says no, or there is no `MPI_Info_create`; that fails;
an `MPI_Info_set` fails, and the object is freed; or all goes well. -/
inductive Derive
  | unusable
  | refused (ierror : Int32)
  | unset (ierror : Int32)
  | made (sizes : FortranSizes) (info : UInt64)
deriving DecidableEq, Repr

/-- The implementation's live info objects, the three variables of hw_abi.c, the
handles the caller has, and the content that the successful set was given. -/
structure FortranState where
  infos : UInt64 → Option InfoContent
  claimed : Bool
  published : Bool
  fortranInfo : UInt64
  world : World
  owned : List UInt64
  given : Option InfoContent

/-- `mpiwrapper_info_toabi` and `mpiwrapper_take_handle_error` after it. -/
def World.infoToabi (w : World) (impl : Impl) (info : UInt64) : UInt64 × Bool × World :=
  let (abi, raised) := handleToabi impl.maps .info info w.handleError
  let (e, handleError) := takeHandleError raised
  (abi, e, { w with handleError })

namespace FortranState

def init (infos : UInt64 → Option InfoContent) : FortranState :=
  ⟨infos, false, false, 0, ⟨.empty, false, .init⟩, [], none⟩

variable (impl : Impl)

def setInfo (s : FortranState) (info : UInt64) (content : Option InfoContent) : FortranState :=
  { s with infos := Function.update s.infos info content }

/-- `BODY_ABI_SET_FORTRAN_INFO`; `dup` is what `MPI_Info_dup` answers, if the
implementation has it. -/
def setFortranInfo (dup : Option (Except Int32 UInt64)) (abiInfo : UInt64) (s : FortranState) :
    Int32 × FortranState :=
  match dup with
  | none => (abiErrUnsupportedOperation, s)
  | some dup =>
      if s.claimed then (abiErrAbi, s)
      else
        match dup with
        | .error ierror =>
            let (code, world) := s.world.toabi impl ierror
            (code, { s with claimed := true, world })
        | .ok dup =>
            let content := s.infos (handleFromabi impl.handles .info abiInfo)
            (0, { s.setInfo dup content with
              claimed := true, published := true, fortranInfo := dup, given := content })

/-- `BODY_MPI_Abi_get_fortran_info`: its code, the handle, and the state. -/
def getFortranInfo (derive : Derive) (s : FortranState) : Int32 × UInt64 × FortranState :=
  if s.published then
    let (abi, raised, world) := s.world.infoToabi impl s.fortranInfo
    (if raised then abiErrIntern else 0, abi, { s with world })
  else
    match derive with
    | .unusable => (0, abiNull .info, s)
    | .refused ierror | .unset ierror =>
        let (code, world) := s.world.toabi impl ierror
        (code, abiNull .info, { s with world })
    | .made sizes info =>
        let (abi, raised, world) := s.world.infoToabi impl info
        (if raised then abiErrIntern else 0, abi, { s.setInfo info sizes.content with world })

/-- The state in which the caller has been handed `abi`, if the call succeeded. -/
def handed (s : FortranState) (code : Int32) (abi : UInt64) : FortranState :=
  if code = 0 then { s with owned := s.owned ++ [abi] } else s

end FortranState

/-- The calls of the caller, also those of `MPI_Info_create`, `_free` and `_set`. -/
inductive FortranAct
  | create (info : UInt64) (content : InfoContent)
  | set (dup : Option (Except Int32 UInt64)) (abiInfo : UInt64)
  | get (derive : Derive)
  | free (abiInfo : UInt64)
  | put (abiInfo : UInt64) (key value : String)

namespace FortranState

/-- The object the caller may act on through a handle. -/
def reached (impl : Impl) (s : FortranState) (abiInfo : UInt64) :
    Option (UInt64 × InfoContent) :=
  if abiInfo ∈ s.owned then
    let info := handleFromabi impl.handles .info abiInfo
    (s.infos info).map fun content => (info, content)
  else none

/-- A new object's handle is not a live one's, and a handle that is duplicated,
freed or modified is live. -/
def step (impl : Impl) (s : FortranState) : FortranAct → Option FortranState
  | .create info content =>
      if s.infos info = none then
        let (abi, raised, world) := s.world.infoToabi impl info
        some ({ s.setInfo info content with world }.handed (if raised then abiErrIntern else 0) abi)
      else none
  | .set dup abiInfo =>
      match dup with
      | some (.ok dup) =>
          if s.infos dup = none ∧ s.infos (handleFromabi impl.handles .info abiInfo) ≠ none then
            some (s.setFortranInfo impl (some (.ok dup)) abiInfo).2
          else none
      | dup => some (s.setFortranInfo impl dup abiInfo).2
  | .get derive =>
      match derive with
      | .made sizes info =>
          if s.infos info = none then
            let (code, abi, s') := s.getFortranInfo impl (.made sizes info)
            some (s'.handed code abi)
          else none
      | derive =>
          let (code, abi, s') := s.getFortranInfo impl derive
          some (s'.handed code abi)
  | .free abiInfo =>
      (s.reached impl abiInfo).map fun p =>
        { s.setInfo p.1 none with owned := s.owned.erase abiInfo }
  | .put abiInfo key value =>
      (s.reached impl abiInfo).map fun p => s.setInfo p.1 (p.2.put key value)

end FortranState

/-! ## What a run may be asked to keep to -/

/-- The ABI can name the object: its handle raises no flag and leads back. -/
def namedByAbi (impl : Impl) (info : UInt64) : Prop :=
  (handleToabi impl.maps .info info false).2 = false ∧
    handleFromabi impl.handles .info (handleToabi impl.maps .info info false).1 = info

instance (impl : Impl) (info : UInt64) : Decidable (namedByAbi impl info) :=
  inferInstanceAs (Decidable (_ ∧ _))

/-- The caller does not act on the object that is kept, and the duplicate that
is to be kept is one the ABI can name. -/
def keptAlone (impl : Impl) (s : FortranState) : FortranAct → Prop
  | .set (some (.ok dup)) _ => s.claimed = false → namedByAbi impl dup
  | .free abiInfo | .put abiInfo _ _ =>
      s.published = true → handleFromabi impl.handles .info abiInfo ≠ s.fortranInfo
  | _ => True

end AbiWrapper.Ref
