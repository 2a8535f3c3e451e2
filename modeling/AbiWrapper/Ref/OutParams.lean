import AbiWrapper.Ref.Datatypes
import AbiWrapper.Ref.HandleErrors

/-!
# What the generated bodies leave in their caller's outputs (generate.py)

The generator gives every parameter of an entry point a class, and the class
decides what the body declares for it before the call of the implementation and
what it stores after. An output that has to be converted is a local of the
body's: the implementation writes there, and the body converts what is there
into what its caller pointed at.

Some of these locals are declared without a value. What such a one reads as
before anything is written there is `none`, or what a machine happens to have
there; the two are not told apart by the body.
-/

namespace AbiWrapper.Ref

/-! ## Parameters -/

inductive SwitchFamily
  | combiner | compare | distribute | darg | locktype | order | splittype | threadlevel
  | topology | typeclass | seek | keyval
  | tbind | tcbsafety | tpvarclass | tsourceorder | tverbosity | tscope
deriving DecidableEq, Repr

/-- What a conversion is chosen by. -/
inductive Family
  | handle (c : HandleClass)
  | tool (c : ToolClass)
  | rank | tag | errorcode
  | switch (f : SwitchFamily)
  | filemode | winassert
deriving DecidableEq, Repr

/-- The conversions, the null handles of both sides, and the fields of an ABI
status. A value is a handle's bits, an integer, or all of a status, which
`mpiwrapper_status_toabi` and `_keep_error` convert over the caller's. -/
structure Conversions where
  fromabi : Family → Int → Int
  toabi : Family → Int → Int
  null : Family → Int
  abiNull : Family → Int
  status : (keepError : Bool) → Int → Int → Int
  field : Nat → Int → Int
  setField : Nat → Int → Int → Int

/-- The caller's arguments: those passed by value, what the others point at,
and which of these are null. -/
structure CallerArgs where
  value : String → Int
  memory : String → Nat → Int
  absent : String → Bool

/-- What the calls of a body return. Extent queries and staged arrays go by the
local they are for, what the implementation's function wrote by parameter. -/
structure Answers where
  extent : String → Except Int Int
  stage : String → Bool
  ierror : Int
  wrote : String → Nat → Option Int

/-- `Extent`: how many elements are staged, and how many are converted after
the call. -/
structure ArrayExtent where
  alloc : CallerArgs → Answers → Nat
  conv : CallerArgs → Answers → Nat

inductive Narrow
  | int | aint (bytes : Nat)
deriving DecidableEq, Repr

def Narrow.fits : Narrow → Int → Bool
  | .int, v => fitsInt v
  | .aint bytes, v => fitsBytes bytes v

/-- The classes, as far as they differ in what becomes of an output. With
`passthrough` go the other pointers that are the caller's own: arrays, buffers,
strings and weights. `input` is for what is converted on the way in and no more,
`scalarOut` for `rank_out`, `tag_out`, `errorcode_out`, `switch_out` and
`bitmask_out`. The handles of tools go with the others, and `convertInout` is
for `switch_inout` as well as for both of these. -/
inductive ParamClass
  | passthrough
  | input
  | largeOnlyZero
  | widenOut
  | narrowInout
  | scalarOut (f : Family)
  | handleOut (f : Family)
  | convertInout (f : Family)
  | statusOut
  | arrayConvertIn (e : ArrayExtent)
  | arrayNarrowIn (n : Narrow) (e : ArrayExtent)
  | arrayStageInout (f : Family) (e : ArrayExtent)
  | arrayStageOut (f : Family) (e : ArrayExtent)
  | arrayStatusOut (e : ArrayExtent)
  | arrayMapOut (f : Family) (e : ArrayExtent)

/-- A parameter; `zeroed` when `out_scalar_zeros` names it: an out pointer, not
an array, to `int`, `MPI_Count`, `MPI_Aint` or `MPI_Offset`. -/
structure OutParam where
  name : String
  cls : ParamClass
  zeroed : Bool

/-- How a body leaves: the implementation has no such function; a length or a
narrowing is refused; an extent query failed; there is no memory for the staged
arrays; an element of an array does not narrow; the implementation's function
has been called; or there was nothing to call it for. -/
inductive BodyExit
  | unsupported
  | refused (code : Int32)
  | query (ierror : Int)
  | unstaged
  | tooLarge
  | called (ierror : Int)
  | accessed
deriving DecidableEq, Repr

/-- An entry point. `guards` are the length checks, the narrowings, the extent
queries and the rejections, in order; `nullable` is for
`NULLABLE_OUT_ROUTINES`, of whose outputs each may be a null pointer. -/
structure EntryPoint where
  params : List OutParam
  guards : List (CallerArgs → Answers → Option BodyExit)
  nullable : Bool

/-- Which of the generator's bodies an entry point has: `emit_body`,
`emit_stub`, or `emit_status_field` for one of the status's fields. -/
inductive BodyForm
  | emitted | stub
  | getField (field : Nat) (param : String) | setField (field : Nat) (param : String)
deriving DecidableEq, Repr

abbrev Stack := String → Nat → Option Int

/-- What a body leaves: how it returned, and what each parameter points at. -/
structure BodyOutcome where
  exit : BodyExit
  memory : OutParam → Nat → Option Int

namespace EntryPoint

/-! ## Up to the call -/

def wanted (ep : EntryPoint) (args : CallerArgs) (p : OutParam) : Bool :=
  !(ep.nullable && args.absent p.name)

/-- `out_defined`, for what a parameter points at. -/
def outDefined (ep : EntryPoint) (cv : Conversions) (args : CallerArgs) (p : OutParam)
    (i : Nat) (held : Int) : Int :=
  if i = 0 ∧ ep.wanted args p then
    match p.cls with
    | .handleOut f => cv.abiNull f
    | _ => if p.zeroed then 0 else held
  else held

/-- The parameters that are staged, with the name of their local. -/
def staged (p : OutParam) : Bool :=
  match p.cls with
  | .arrayConvertIn _ | .arrayNarrowIn _ _ | .arrayStageInout _ _ | .arrayStageOut _ _
  | .arrayStatusOut _ => true
  | _ => false

def stagedIn (p : OutParam) : Bool :=
  match p.cls with
  | .arrayConvertIn _ | .arrayNarrowIn _ _ => true
  | _ => false

def requestOut (p : OutParam) : Bool :=
  match p.cls with
  | .handleOut f => f = .handle .request
  | _ => false

/-- `assemble_outliving` makes the body: its staged arrays are one block, which
the request keeps. -/
def outlives (ep : EntryPoint) : Bool :=
  ep.params.any stagedIn && ep.params.any requestOut

/-- A staged array that the caller does not want is not allocated. -/
def skipped (ep : EntryPoint) (args : CallerArgs) (p : OutParam) : Bool :=
  match p.cls with
  | .arrayStatusOut _ => args.absent p.name
  | .arrayStageOut _ _ => !ep.wanted args p
  | _ => false

def stageOk (ep : EntryPoint) (args : CallerArgs) (answers : Answers) : Bool :=
  if ep.outlives then answers.stage "block"
  else ep.params.all fun p =>
    !staged p || ep.skipped args p || answers.stage p.name

def narrowOk (args : CallerArgs) (answers : Answers) (p : OutParam) : Bool :=
  match p.cls with
  | .arrayNarrowIn n e =>
      (List.range (e.alloc args answers)).all fun i => n.fits (args.memory p.name i)
  | _ => true

/-- How the emitted body leaves before the call, if it does. -/
def refusal (ep : EntryPoint) (args : CallerArgs) (answers : Answers) : Option BodyExit :=
  match ep.guards.findSome? fun guard => guard args answers with
  | some exit => some exit
  | none =>
      if !ep.stageOk args answers then some .unstaged
      else if !ep.params.all (narrowOk args answers) then some .tooLarge
      else none

/-- A parameter's local is declared without a value, and only the
implementation gives it one. -/
def uninitialised (ep : EntryPoint) (p : OutParam) : Bool :=
  match p.cls with
  | .widenOut | .scalarOut _ => !ep.nullable
  | .handleOut _ => !ep.nullable || ep.outlives
  | .arrayStageOut _ _ => true
  | _ => false

/-- The value that it is declared with otherwise. A status is zeroed. -/
def initial (cv : Conversions) (args : CallerArgs) (p : OutParam) (i : Nat) : Int :=
  match p.cls with
  | .handleOut f => cv.null f
  | .convertInout f | .arrayStageInout f _ => cv.fromabi f (args.memory p.name i)
  | .narrowInout => args.memory p.name i
  | _ => 0

/-! ## After the call -/

def held (ep : EntryPoint) (cv : Conversions) (stack : Stack) (args : CallerArgs)
    (answers : Answers) (p : OutParam) (i : Nat) : Option Int :=
  match answers.wrote p.name i with
  | some v => some v
  | none => if ep.uninitialised p then stack p.name i else some (initial cv args p i)

/-- The body converts what its local holds and stores it. -/
def converts (ep : EntryPoint) (args : CallerArgs) (answers : Answers) (p : OutParam)
    (i : Nat) : Bool :=
  if ep.outlives then
    match p.cls with
    | .handleOut _ => i = 0 && answers.ierror = 0
    | _ => false
  else
    match p.cls with
    | .widenOut | .scalarOut _ | .narrowInout => i = 0 && ep.wanted args p
    | .handleOut _ => i = 0 && ep.wanted args p && answers.ierror = 0
    | .convertInout _ => i = 0
    | .statusOut => i = 0 && !args.absent p.name
    | .arrayStageInout _ e => i < e.alloc args answers
    | .arrayStageOut _ e =>
        ep.wanted args p && answers.ierror = 0 && i < e.conv args answers
    | .arrayStatusOut e => !args.absent p.name && i < e.conv args answers
    | _ => false

/-- The conversion. The arrays that go both ways are of requests. -/
def convert (cv : Conversions) (p : OutParam) (caller v : Int) : Int :=
  match p.cls with
  | .scalarOut f | .handleOut f | .convertInout f | .arrayStageOut f _ => cv.toabi f v
  | .arrayStageInout _ _ => cv.toabi (.handle .request) v
  | .statusOut => cv.status true v caller
  | .arrayStatusOut _ => cv.status false v caller
  | _ => v

/-- What the caller's memory holds when the implementation is called: a body
with staged arrays has defined its outputs by then. -/
def entry (ep : EntryPoint) (cv : Conversions) (args : CallerArgs) (p : OutParam) (i : Nat) :
    Int :=
  if ep.params.any staged && !ep.outlives then
    ep.outDefined cv args p i (args.memory p.name i)
  else args.memory p.name i

def written (answers : Answers) (p : OutParam) (i : Nat) (caller : Int) : Int :=
  match p.cls with
  | .passthrough | .arrayMapOut _ _ => (answers.wrote p.name i).getD caller
  | _ => caller

/-- What is there after the call where the body converts nothing from a local:
a failed call leaves null handles, and an array of integers is mapped where it
lies. -/
def kept (ep : EntryPoint) (cv : Conversions) (args : CallerArgs) (answers : Answers)
    (p : OutParam) (i : Nat) : Int :=
  let caller := written answers p i (ep.entry cv args p i)
  if ep.outlives then
    if answers.ierror = 0 then caller else ep.outDefined cv args p i caller
  else
    match p.cls with
    | .largeOnlyZero => if i = 0 ∧ ep.wanted args p then 0 else caller
    | .handleOut f => if i = 0 ∧ ep.wanted args p then cv.abiNull f else caller
    | .arrayMapOut f e =>
        if answers.ierror = 0 ∧ i < e.conv args answers then cv.toabi f caller else caller
    | _ => caller

def leaves (ep : EntryPoint) (cv : Conversions) (stack : Stack) (args : CallerArgs)
    (answers : Answers) (p : OutParam) (i : Nat) : Option Int :=
  if ep.converts args answers p i then
    (ep.held cv stack args answers p i).map (convert cv p (ep.entry cv args p i))
  else some (ep.kept cv args answers p i)

def run (ep : EntryPoint) (cv : Conversions) (form : BodyForm) (stack : Stack)
    (args : CallerArgs) (answers : Answers) : BodyOutcome :=
  let defined := fun p i => some (ep.outDefined cv args p i (args.memory p.name i))
  match form with
  | .stub => ⟨.unsupported, defined⟩
  | .getField field param =>
      ⟨.accessed, fun p i => some
        (if p.name = param ∧ i = 0 then cv.field field (args.memory "status" 0)
         else args.memory p.name i)⟩
  | .setField field param =>
      ⟨.accessed, fun p i => some
        (if p.name = "status" ∧ i = 0 then
          cv.setField field (args.memory "status" 0) (args.value param)
         else args.memory p.name i)⟩
  | .emitted =>
      match ep.refusal args answers with
      | some exit => ⟨exit, defined⟩
      | none => ⟨.called answers.ierror, ep.leaves cv stack args answers⟩

end EntryPoint

/-! ## Defined outputs -/

/-- Each output holds one value, whatever the stack did. -/
def OutputsDefined (ep : EntryPoint) (cv : Conversions) (form : BodyForm) (args : CallerArgs)
    (answers : Answers) : Prop :=
  ∀ p, p ∈ ep.params → ∀ i, ∃ v, ∀ stack,
    (ep.run cv form stack args answers).memory p i = some v

/-- The implementation wrote every local without a value that is converted
after its call. -/
def Answered (ep : EntryPoint) (args : CallerArgs) (answers : Answers) : Prop :=
  ∀ p, p ∈ ep.params → ∀ i, ep.converts args answers p i = true →
    ep.uninitialised p = true → (answers.wrote p.name i).isSome = true

/-! ## Entry points -/

def narrowGuard (param : String) (args : CallerArgs) (_ : Answers) : Option BodyExit :=
  if fitsInt (args.value param) then none else some (.refused abiErrValueTooLarge)

def countGuard (param : String) (args : CallerArgs) (_ : Answers) : Option BodyExit :=
  if args.value param < 0 then some (.refused abiErrCount) else none

/-- An extent query that fails returns the implementation's error. -/
def queryGuard (extent : String) (_ : CallerArgs) (answers : Answers) : Option BodyExit :=
  match answers.extent extent with
  | .error ierror => some (.query ierror)
  | .ok _ => none

/-- `BODY_MPI_Pack_size_c`, over an implementation that has `MPI_Pack_size`
alone. -/
def packSizeC : EntryPoint where
  params := [⟨"incount", .input, false⟩, ⟨"datatype", .input, false⟩, ⟨"comm", .input, false⟩,
    ⟨"size", .widenOut, true⟩]
  guards := [narrowGuard "incount"]
  nullable := false

def commRank : EntryPoint where
  params := [⟨"comm", .input, false⟩, ⟨"rank", .scalarOut .rank, true⟩]
  guards := []
  nullable := false

def commSplit : EntryPoint where
  params := [⟨"comm", .input, false⟩, ⟨"color", .input, false⟩, ⟨"key", .passthrough, false⟩,
    ⟨"newcomm", .handleOut (.handle .comm), false⟩]
  guards := []
  nullable := false

/-- The statuses of `MPI_Testsome`: one for each completed request. -/
def someStatuses : ArrayExtent where
  alloc args _ := (args.value "incount").toNat
  conv args answers :=
    let nstatuses := (answers.wrote "outcount" 0).getD 0
    if nstatuses < 0 ∨ args.value "incount" < nstatuses then 0 else nstatuses.toNat

def testsome : EntryPoint where
  params := [⟨"incount", .passthrough, false⟩,
    ⟨"requests", .arrayStageInout (.handle .request)
      ⟨fun args _ => (args.value "incount").toNat, fun args _ => (args.value "incount").toNat⟩,
      false⟩,
    ⟨"outcount", .passthrough, true⟩, ⟨"indices", .passthrough, false⟩,
    ⟨"statuses", .arrayStatusOut someStatuses, false⟩]
  guards := [countGuard "incount"]
  nullable := false

/-- The datatype arrays of `MPI_Ialltoallw`: one for each rank. -/
def ranksExtent : ArrayExtent where
  alloc _ answers := ((answers.extent "nranks").toOption.getD 0).toNat
  conv _ answers := ((answers.extent "nranks").toOption.getD 0).toNat

def ialltoallw : EntryPoint where
  params := [⟨"sendbuf", .passthrough, false⟩, ⟨"sendcounts", .passthrough, false⟩,
    ⟨"sdispls", .passthrough, false⟩, ⟨"sendtypes", .arrayConvertIn ranksExtent, false⟩,
    ⟨"recvbuf", .passthrough, false⟩, ⟨"recvcounts", .passthrough, false⟩,
    ⟨"rdispls", .passthrough, false⟩, ⟨"recvtypes", .arrayConvertIn ranksExtent, false⟩,
    ⟨"comm", .input, false⟩, ⟨"request", .handleOut (.handle .request), false⟩]
  guards := [queryGuard "nranks"]
  nullable := false

def cvarGetInfo : EntryPoint where
  params := [⟨"cvar_index", .passthrough, false⟩, ⟨"name", .passthrough, false⟩,
    ⟨"name_len", .passthrough, false⟩,
    ⟨"verbosity", .scalarOut (.switch .tverbosity), true⟩,
    ⟨"datatype", .handleOut (.handle .datatype), false⟩,
    ⟨"enumtype", .handleOut (.tool .enum), false⟩, ⟨"desc", .passthrough, false⟩,
    ⟨"desc_len", .passthrough, false⟩, ⟨"bind", .scalarOut (.switch .tbind), true⟩,
    ⟨"scope", .scalarOut (.switch .tscope), true⟩]
  guards := []
  nullable := true

end AbiWrapper.Ref
