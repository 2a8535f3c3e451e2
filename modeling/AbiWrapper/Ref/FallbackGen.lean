import AbiWrapper.Ref.OutParams
import AbiWrapper.Ref.Significance

/-!
# How a fallback is generated (generate.py)

Over an implementation without `MPI_X_c` the entry point has a body that calls
`MPI_X`. The generator derives it from two parameter lists and nothing else:
`fallbackParam` looks at each parameter beside the twin's of that name and
answers the class the fallback converts it by, or that there is none, and then
the entry point has no fallback. The body is `emit_body`'s, which makes the
twin's own body too, from the twin's list. Here both are a `GenBody`.

What a parameter leaves in the caller's memory depends on its `OutParam` and is
in `OutParams.lean`; `GenBody.emit` gives that. What is added here is the other
half of the emission: the argument that each parameter becomes, the code, and
what is allocated on the way.

The generator's tables are keyed by entry point and parameter. What they have
for a parameter is part of the parameter here.
-/

namespace AbiWrapper.Ref

/-! ## Lengths -/

/-- The locals that the answers of extent queries are in. The size of the group
is in `nranks` too where the array is significant at the root alone. -/
inductive ExtentLocal
  | nranks | rootNranks | nsendtypes | nrecvtypes | ndatatypes
deriving DecidableEq, Repr

def ExtentLocal.name : ExtentLocal → String
  | .nranks => "nranks"
  | .rootNranks => "nranks at the root"
  | .nsendtypes => "nsendtypes"
  | .nrecvtypes => "nrecvtypes"
  | .ndatatypes => "ndatatypes"

def ExtentLocal.all : List ExtentLocal :=
  [.nranks, .rootNranks, .nsendtypes, .nrecvtypes, .ndatatypes]

/-- `Extent`: the parameter an array is as long as, an answer, or an answer that
is not more than a parameter and not negative. -/
inductive GenExtent
  | length (param : String)
  | query (v : ExtentLocal)
  | clamped (v : ExtentLocal) (max : String)
deriving DecidableEq, Repr

/-- The value of the extent's local. -/
def GenExtent.count (e : GenExtent) (args : CallerArgs)
    (extent : String → Except Int Int) : Int :=
  match e with
  | .length param => args.value param
  | .query v => (extent v.name).toOption.getD 0
  | .clamped v max =>
      let n := (extent v.name).toOption.getD 0
      let n := if args.value max < n then args.value max else n
      if n < 0 then 0 else n

def GenExtent.arrayExtent (e : GenExtent) : ArrayExtent where
  alloc args answers := (e.count args answers.extent).toNat
  conv args answers := (e.count args answers.extent).toNat

/-- The question whose answer the extent is. -/
def GenExtent.asks : GenExtent → Option ExtentLocal
  | .length _ => none
  | .query v => some v
  | .clamped v _ => some v

/-- How many entries of an array of integers the standard has a call read. -/
inductive Significant
  | length (param : String)
  | peers | atRoot | localSize | indegree | outdegree
deriving DecidableEq, Repr

def Significant.entries (s : Significant) (comm : Communicator) (args : CallerArgs) : Nat :=
  match s with
  | .length param => (args.value param).toNat
  | .peers => comm.peers
  | .atRoot => if comm.atRoot (args.value "root") then comm.peers else 0
  | .localSize => comm.localSize
  | .indegree => comm.degrees.1
  | .outdegree => comm.degrees.2

/-! ## Parameters -/

/-- The types, of elements and of what a pointer points at too. -/
inductive CType
  | int | aint | count | offset
  | other (name : String)
deriving DecidableEq, Repr

/-- `NARROWABLE`, and `STUB_ZEROABLE_POINTEES`. -/
def CType.narrowable : CType → Bool
  | .other _ => false
  | _ => true

/-- `NARROW_FN` has the type. -/
def CType.narrows : CType → Bool
  | .int | .aint => true
  | _ => false

inductive Shape
  | value | pointer | array
deriving DecidableEq, Repr

inductive Direction
  | input | output | inout
deriving DecidableEq, Repr

/-- apis.json's length of an array: a parameter, or `*`. -/
inductive ArrayLength
  | param (name : String) | star
deriving DecidableEq, Repr

/-- The classes of `classify` that the parameters of large-count entry points
have, and those of `fallback_param` and `large_only_param`. -/
inductive GenClass
  | passthrough | arrayPassthrough | stringIn
  | buffer | bufferInplace
  | handleIn | handleOut | handleInout
  | rankIn | tagIn | switchIn | switchOut
  | statusOut
  | arrayConvertIn | arrayStageOut
  | narrowIn | narrowInout | widenOut | arrayNarrowIn
  | largeOnlyZero | largeOnlyVoid
deriving DecidableEq, Repr

/-- `Param`. Of its base, `type` is without the `const` and the star. `rootOnly`
is read of arrays alone; `named` is what `ARRAY_EXTENT` has, or for a fallback
`FALLBACK_ARRAY_EXTENT`; `ignoredBy` is the buffer that makes an array of
`IN_PLACE_IGNORES` mean nothing. `significant` is not the generator's. -/
structure GenParam where
  name : String
  type : CType
  const : Bool := false
  shape : Shape := .value
  direction : Direction := .input
  kind : Option Family := none
  length : Option ArrayLength := none
  rootOnly : Bool := false
  cls : GenClass := .passthrough
  named : Option GenExtent := none
  substitute : Option GenExtent := none
  ignoredBy : Option String := none
  significant : Option Significant := none
deriving DecidableEq, Repr

namespace GenParam

variable (p ap : GenParam)

def isPointer : Bool := p.shape = .pointer

def isArray : Bool := p.shape = .array

/-- `p.base == ap.base`. -/
def sameBase : Bool := p.type = ap.type && p.const = ap.const && p.isPointer = ap.isPointer

def arrayExtent : Option GenExtent :=
  match p.named, p.length with
  | some e, _ => some e
  | none, some (.param name) => some (.length name)
  | none, _ => none

/-- The entries of an array that the implementation reads. -/
def entriesRead (comm : Communicator) (args : CallerArgs) : Nat :=
  (p.significant.map fun s => s.entries comm args).getD 0

end GenParam

/-! ## The gate -/

def largeOnlyParam (p : GenParam) : GenParam :=
  if p.direction = .output ∧ p.isPointer then { p with cls := .largeOnlyZero }
  else { p with cls := .largeOnlyVoid }

/-- An array of length `*` has an extent, which is the root's exactly where the
array is significant at the root alone. On a mismatch the generator stops. -/
def extentGiven (p : GenParam) : Bool :=
  match p.named with
  | none => false
  | some e => p.rootOnly = (e.asks = some .rootNranks)

def fallbackParam (p ap : GenParam) : Option GenParam :=
  let out := fun cls => some { p with type := ap.type, const := ap.const, cls := cls }
  if p.name ≠ ap.name ∨ p.direction ≠ ap.direction then none
  else if p.sameBase ap then
    if p.cls = ap.cls then out p.cls else none
  else if p.isArray ∨ ap.isArray then
    if ¬(p.isArray ∧ ap.isArray) ∨ p.direction ≠ .input then none
    else if p.cls ≠ .arrayPassthrough ∨ ap.cls ≠ .arrayPassthrough then none
    else if ¬p.type.narrowable ∨ ¬ap.type.narrowable then none
    else if ¬ap.type.narrows then none
    else if p.length = none ∨ p.length ≠ ap.length then none
    else if p.length = some .star ∧ ¬extentGiven p then none
    else out .arrayNarrowIn
  else if p.cls ≠ .passthrough ∨ ap.cls ≠ .passthrough then none
  else if ¬p.isPointer ∧ ¬ap.isPointer then
    if ¬p.type.narrowable ∨ ¬ap.type.narrowable then none
    else if ¬ap.type.narrows then none
    else out .narrowIn
  else if p.isPointer ∧ ap.isPointer ∧ p.direction = .output then
    if ¬p.type.narrowable ∨ ¬ap.type.narrowable then none
    else out .widenOut
  else if p.isPointer ∧ ap.isPointer ∧ p.direction = .inout then
    if ¬p.type.narrowable ∨ ¬ap.type.narrowable then none
    else if ¬ap.type.narrows then none
    else out .narrowInout
  else none

/-- `assign_fallbacks`, for one entry point and the one it falls back to. -/
def assignFallback (large small : List GenParam) : Option (List GenParam) :=
  if small.any fun q => large.all fun r => r.name ≠ q.name then none
  else large.mapM fun q =>
    match small.find? fun ap => ap.name = q.name with
    | none => some (largeOnlyParam q)
    | some ap => fallbackParam q ap

/-! ## What a body is given -/

/-- The implementation under the wrapper and what it answers about the objects
of a call: its communicator, and the datatypes in a datatype's contents. -/
structure GenEnv where
  cv : Conversions
  ranks : ImplRanks
  rank_fromabi : cv.fromabi .rank = rankFromabi ranks
  /-- `sizeof(MPI_Aint)`. -/
  aintBytes : Nat
  /-- `mpiwrapper_sendbuf_fromabi` and its three variants. -/
  buffer : (inPlace : Bool) → Int → Int
  errors : ImplErrors
  errorTable : ErrorTable
  errTopology : Int32
  /-- The conversion of a handle finds no room for it. -/
  raises : Family → Int → Bool
  /-- A handle error from before. -/
  pending : Bool
  comm : Communicator
  ndatatypes : Except Int32 Nat
  /-- What `malloc` answers, by the array or block it is for. -/
  stage : String → Bool
  /-- `mpiwrapper_staged_keep` has room for the block. -/
  keep : Bool

namespace GenEnv

variable (env : GenEnv)

def errorcode (ierror : Int) : Int32 :=
  (errorcodeToabi env.errors (Int32.ofInt ierror) env.errorTable).1

/-- The extent queries. -/
def ask (args : CallerArgs) : ExtentLocal → Except Int32 Nat
  | .nranks => commExtent env.comm.queries
  | .rootNranks =>
      rootExtent env.comm.queries env.ranks.root (env.cv.fromabi .rank (args.value "root"))
  | .nsendtypes => (neighborExtents env.comm.queries env.errTopology).map Prod.snd
  | .nrecvtypes => (neighborExtents env.comm.queries env.errTopology).map Prod.fst
  | .ndatatypes => env.ndatatypes

def extent (args : CallerArgs) (name : String) : Except Int Int :=
  match ExtentLocal.all.find? fun v => v.name = name with
  | none => .ok 0
  | some v =>
      match env.ask args v with
      | .ok n => .ok n
      | .error ierror => .error ierror.toInt

end GenEnv

/-- An argument as the implementation gets it: a value, the array that a pointer
is to, the object that one is to, a place for an output, or a status. -/
inductive CallArg
  | value (v : Int)
  | array (entries : List Int)
  | object (v : Int)
  | output
  | status (ignored : Bool)
deriving DecidableEq, Repr

structure GenCall where
  function : String
  args : List (String × CallArg)
deriving DecidableEq, Repr

/-- What the implementation's function returns, and what it wrote through the
pointer of each of its parameters. -/
structure GenReply where
  ierror : Int
  wrote : String → Nat → Option Int

def GenEnv.answers (env : GenEnv) (args : CallerArgs) (reply : GenReply) : Answers where
  extent := env.extent args
  stage := env.stage
  ierror := reply.ierror
  wrote := reply.wrote

/-! ## `emit_body`, one parameter -/

def fitsGuard (n : Narrow) (read : CallerArgs → Int) (args : CallerArgs) (_ : Answers) :
    Option BodyExit :=
  if n.fits (read args) then none else some (.refused abiErrValueTooLarge)

namespace GenParam

variable (p : GenParam)

/-- `NARROW_FN`'s, for the type that is narrowed to. -/
def narrow (aintBytes : Nat) : Narrow :=
  if p.type = .aint then .aint aintBytes else .int

/-- The class makes a temporary. -/
def isStaged : Bool :=
  match p.cls with
  | .arrayConvertIn | .arrayStageOut | .arrayNarrowIn => true
  | _ => false

/-- The extent of an array that is staged; it has one, or the generator stops. -/
def extent : GenExtent := p.arrayExtent.getD (.length p.name)

/-- `checks`. -/
def guards (aintBytes : Nat) : List (CallerArgs → Answers → Option BodyExit) :=
  match p.cls with
  | .narrowIn => [fitsGuard (p.narrow aintBytes) fun args => args.value p.name]
  | .narrowInout => [fitsGuard (p.narrow aintBytes) fun args => args.memory p.name 0]
  | .arrayConvertIn | .arrayStageOut | .arrayNarrowIn =>
      match p.extent with
      | .length param => [countGuard param]
      | _ => []
  | _ => []

/-- `probes`. -/
def queries : List (CallerArgs → Answers → Option BodyExit) :=
  if p.isStaged then
    match p.extent.asks with
    | some v => [queryGuard v.name]
    | none => []
  else []

/-- The class as far as outputs go. Inputs are read and no more. -/
def paramClass (aintBytes : Nat) : ParamClass :=
  match p.cls with
  | .passthrough | .arrayPassthrough =>
      if p.direction = .input then .input else .passthrough
  | .buffer | .bufferInplace => .passthrough
  | .handleOut => (p.kind.map ParamClass.handleOut).getD .input
  | .handleInout => (p.kind.map ParamClass.convertInout).getD .input
  | .switchOut => (p.kind.map ParamClass.scalarOut).getD .input
  | .statusOut => .statusOut
  | .arrayConvertIn => .arrayConvertIn p.extent.arrayExtent
  | .arrayStageOut =>
      (p.kind.map fun f => ParamClass.arrayStageOut f p.extent.arrayExtent).getD .input
  | .narrowInout => .narrowInout
  | .widenOut => .widenOut
  | .arrayNarrowIn => .arrayNarrowIn (p.narrow aintBytes) p.extent.arrayExtent
  | .largeOnlyZero => .largeOnlyZero
  | .stringIn | .handleIn | .rankIn | .tagIn | .switchIn | .narrowIn | .largeOnlyVoid => .input

def outParam (aintBytes : Nat) : OutParam where
  name := p.name
  cls := p.paramClass aintBytes
  zeroed := p.direction = .output && p.isPointer && p.type.narrowable

/-- `mpiwrapper_<family>_fromabi`. -/
def fromabi (env : GenEnv) (v : Int) : Int :=
  match p.kind with
  | some f => env.cv.fromabi f v
  | none => v

/-- What a value is passed as: itself, or what `ARG_SUBSTITUTE` has instead. -/
def substituted (env : GenEnv) (args : CallerArgs) : Int :=
  match p.substitute with
  | some e => e.count args (env.extent args)
  | none => args.value p.name

/-- An entry of a converted array. One that is ignored is a null handle. -/
def converted (env : GenEnv) (args : CallerArgs) (i : Nat) : Int :=
  if p.ignoredBy.any fun buffer => args.value buffer = abiInPlace.toNat then
    (p.kind.map env.cv.null).getD 0
  else p.fromabi env (args.memory p.name i)

def entries (env : GenEnv) (args : CallerArgs) : Nat :=
  (p.extent.count args (env.extent args)).toNat

/-- `args`, and there is nothing for a parameter that the twin has not. A value
that has been narrowed is the caller's. -/
def argument (env : GenEnv) (args : CallerArgs) : Option CallArg :=
  match p.cls with
  | .passthrough =>
      if p.isPointer then
        match p.direction with
        | .output => some .output
        | _ => some (.object (args.memory p.name 0))
      else some (.value (p.substituted env args))
  | .arrayPassthrough =>
      if p.direction = .input then
        some (.array ((List.range (p.entriesRead env.comm args)).map (args.memory p.name)))
      else some .output
  | .stringIn => some (.value (args.value p.name))
  | .buffer => some (.value (env.buffer false (args.value p.name)))
  | .bufferInplace => some (.value (env.buffer true (args.value p.name)))
  | .handleIn | .rankIn | .tagIn | .switchIn => some (.value (p.fromabi env (args.value p.name)))
  | .handleOut | .switchOut | .arrayStageOut | .widenOut => some .output
  | .handleInout => some (.object (p.fromabi env (args.memory p.name 0)))
  | .statusOut => some (.status (args.absent p.name))
  | .arrayConvertIn =>
      some (.array ((List.range (p.entries env args)).map (p.converted env args)))
  | .narrowIn => some (.value (p.substituted env args))
  | .narrowInout => some (.object (args.memory p.name 0))
  | .arrayNarrowIn =>
      some (.array ((List.range (p.entries env args)).map (args.memory p.name)))
  | .largeOnlyZero | .largeOnlyVoid => none

/-- `handle_out`. The arrays that are staged for output are of handles. -/
def makesHandle : Bool :=
  match p.cls with
  | .handleOut | .handleInout | .arrayStageOut => true
  | _ => false

end GenParam

/-! ## `assemble` -/

/-- `stages_past_return`, and `fallback_stages_past_return`: an array is staged
for a request that may read it. -/
def stagesPastReturn (params : List GenParam) : Bool :=
  (params.any fun p => p.cls = .arrayConvertIn || p.cls = .arrayNarrowIn) &&
    params.any fun p => p.cls = .handleOut && p.kind = some (.handle .request)

/-- A body, and the implementation's function that it calls. -/
structure GenBody where
  function : String
  params : List GenParam

/-- Temporaries: made, released, and handed to the request. -/
inductive HeapEvent
  | alloc (name : String) | free (name : String) | keep (name : String)
deriving DecidableEq, Repr

/-- What a body leaves: the calls it made, its code, what each parameter points
at, and what it did with temporaries. -/
structure GenOutcome where
  calls : List GenCall
  code : Int32
  memory : String → Nat → Option Int
  heap : List HeapEvent

/-- The temporaries that nothing has any more. -/
def GenOutcome.left (out : GenOutcome) : List String :=
  out.heap.filterMap fun event =>
    match event with
    | .alloc name =>
        if out.heap.any fun e => e = .free name ∨ e = .keep name then none else some name
    | _ => none

namespace GenBody

variable (b : GenBody) (env : GenEnv) (args : CallerArgs)

def emit : EntryPoint where
  params := b.params.map fun p => p.outParam env.aintBytes
  guards := b.params.flatMap (fun p => p.guards env.aintBytes) ++ b.params.flatMap (·.queries)
  nullable := false

def call : GenCall where
  function := b.function
  args := b.params.filterMap fun p => (p.argument env args).map fun arg => (p.name, arg)

/-- The conversion of this output raises a handle error. -/
def raisedBy (stack : Stack) (answers : Answers) (p : GenParam) : Bool :=
  let held := (b.emit env).held env.cv stack args answers (p.outParam env.aintBytes)
  match p.cls, p.kind with
  | .handleOut, some f => answers.ierror = 0 && (held 0).any (env.raises f)
  | .handleInout, some f => (held 0).any (env.raises f)
  | .arrayStageOut, some f =>
      answers.ierror = 0 &&
        (List.range (p.entries env args)).any fun i => (held i).any (env.raises f)
  | _, _ => false

/-- `mpiwrapper_take_handle_error`. -/
def raised (stack : Stack) (answers : Answers) : Bool :=
  env.pending || b.params.any (b.raisedBy env args stack answers)

def code (stack : Stack) (answers : Answers) : BodyExit → Int32
  | .unsupported => abiErrUnsupportedOperation
  | .refused code => code
  | .query ierror => env.errorcode ierror
  | .unstaged => abiErrIntern
  | .tooLarge => abiErrValueTooLarge
  | .called ierror =>
      if (b.emit env).outlives then
        if ierror ≠ 0 then env.errorcode ierror
        else if b.raised env args stack answers then abiErrIntern
        else if env.keep then 0
        else abiErrIntern
      else if b.params.any (·.makesHandle) && b.raised env args stack answers then abiErrIntern
      else env.errorcode ierror
  | .accessed => 0

/-- The arrays that a body stages, each under its own name. -/
def staged : List String := (b.params.filter (·.isStaged)).map (·.name)

/-- `assemble_outliving` has one block. `assemble` leaves through `done` from
the first `mpiwrapper_stage` on. -/
def heap (stack : Stack) (answers : Answers) (exit : BodyExit) : List HeapEvent :=
  if (b.emit env).outlives then
    match exit with
    | .tooLarge => [.alloc "block", .free "block"]
    | .called ierror =>
        if ierror ≠ 0 then [.alloc "block", .free "block"]
        else if !b.raised env args stack answers && env.keep then [.alloc "block", .keep "block"]
        else [.alloc "block"]
    | _ => []
  else
    match exit with
    | .unstaged =>
        let made := b.staged.takeWhile env.stage
        made.map .alloc ++ made.map .free
    | .tooLarge | .called _ => b.staged.map .alloc ++ b.staged.map .free
    | _ => []

/-- A whole body. What is on the stack where a local has no value is `stack`. -/
def run (target : GenCall → GenReply) (stack : Stack) : GenOutcome :=
  let answers := env.answers args (target (b.call env args))
  let out := (b.emit env).run env.cv .emitted stack args answers
  { calls :=
      match out.exit with
      | .called _ => [b.call env args]
      | _ => []
    code := b.code env args stack answers out.exit
    memory := fun name i =>
      match b.params.find? fun p => p.name = name with
      | some p => out.memory (p.outParam env.aintBytes) i
      | none => none
    heap := b.heap env args stack answers out.exit }

end GenBody

end AbiWrapper.Ref
