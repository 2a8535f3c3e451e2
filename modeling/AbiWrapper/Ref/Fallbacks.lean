import AbiWrapper.Ref.Errorcodes
import AbiWrapper.Ref.Extents
import AbiWrapper.Ref.Handles
import AbiWrapper.Ref.Staging

/-!
# Collectives over an implementation without large counts (wrappers.c)

Where an implementation has `MPI_Gatherv` and not `MPI_Gatherv_c`, the body of
the latter calls the former: it narrows every count to an `int`, refusing the
call when one does not fit, and stages narrowed copies of the arrays. The
bodies are generated from the parameter lists by one scheme, and so they are
here. A collective is its list of parameters, each with the kind that decides
how it is converted; `prepare` is what all bodies do up to the call, and the
three `finish` functions are what they do after it.

The scheme, in order: narrow the scalar counts; ask how long the arrays are;
get memory for the copies; convert the parameters from first to last, reading
the arrays entry by entry; call. A nonblocking or persistent body keeps its
copies in one block that outlives the call, a blocking one in buffers of its
own.

The same scheme without narrowing makes the bodies of the `MPI_Ialltoallw`
family, which stage their datatype arrays on every implementation
(`typesBody`).

A caller's array is a partial function: an entry that is not there faults when
it is read.
-/

namespace AbiWrapper.Ref

open AbiWrapper.Lib

/-! ## Signatures -/

inductive Collective
  | allgather | allgatherv | alltoall | alltoallv | alltoallw | gather | gatherv | scatter |
  scatterv | allreduce | bcast | exscan | reduce | reduceScatter | reduceScatterBlock | scan |
  neighborAllgather | neighborAllgatherv | neighborAlltoall | neighborAlltoallv |
  neighborAlltoallw
deriving DecidableEq, Repr

/-- `MPI_X_c`, `MPI_Ix_c` and `MPI_X_init_c`. -/
inductive Form
  | blocking | nonblocking | persistent
deriving DecidableEq, Repr

inductive Param
  | sendbuf | recvbuf | buffer | count | sendcount | recvcount | datatype | sendtype | recvtype
  | op | root | comm | info | sendcounts | sdispls | displs | recvcounts | rdispls
  | sendtypes | recvtypes
deriving DecidableEq, Repr

/-- How a parameter is converted. A `count` is narrowed, and `counts` are, into a
copy; of an array whose element type the two sides share the pointer is passed;
datatypes are converted into a copy, and ignored in place or not. -/
inductive ParamKind
  | sendbuf | sendbufInplace | recvbuf | recvbufInplace
  | count
  | handle (c : HandleClass)
  | rank
  | counts
  | pass
  | types (ignoredInPlace : Bool)
deriving DecidableEq, Repr

def Collective.params : Collective → List (Param × ParamKind)
  | .allgather | .alltoall =>
      [(.sendbuf, .sendbufInplace), (.sendcount, .count), (.sendtype, .handle .datatype),
       (.recvbuf, .recvbuf), (.recvcount, .count), (.recvtype, .handle .datatype),
       (.comm, .handle .comm)]
  | .allgatherv =>
      [(.sendbuf, .sendbufInplace), (.sendcount, .count), (.sendtype, .handle .datatype),
       (.recvbuf, .recvbuf), (.recvcounts, .counts), (.displs, .counts),
       (.recvtype, .handle .datatype), (.comm, .handle .comm)]
  | .alltoallv =>
      [(.sendbuf, .sendbufInplace), (.sendcounts, .counts), (.sdispls, .counts),
       (.sendtype, .handle .datatype), (.recvbuf, .recvbuf), (.recvcounts, .counts),
       (.rdispls, .counts), (.recvtype, .handle .datatype), (.comm, .handle .comm)]
  | .alltoallw =>
      [(.sendbuf, .sendbufInplace), (.sendcounts, .counts), (.sdispls, .counts),
       (.sendtypes, .types true), (.recvbuf, .recvbuf), (.recvcounts, .counts),
       (.rdispls, .counts), (.recvtypes, .types false), (.comm, .handle .comm)]
  | .gather =>
      [(.sendbuf, .sendbufInplace), (.sendcount, .count), (.sendtype, .handle .datatype),
       (.recvbuf, .recvbuf), (.recvcount, .count), (.recvtype, .handle .datatype),
       (.root, .rank), (.comm, .handle .comm)]
  | .gatherv =>
      [(.sendbuf, .sendbufInplace), (.sendcount, .count), (.sendtype, .handle .datatype),
       (.recvbuf, .recvbuf), (.recvcounts, .counts), (.displs, .counts),
       (.recvtype, .handle .datatype), (.root, .rank), (.comm, .handle .comm)]
  | .scatter =>
      [(.sendbuf, .sendbuf), (.sendcount, .count), (.sendtype, .handle .datatype),
       (.recvbuf, .recvbufInplace), (.recvcount, .count), (.recvtype, .handle .datatype),
       (.root, .rank), (.comm, .handle .comm)]
  | .scatterv =>
      [(.sendbuf, .sendbuf), (.sendcounts, .counts), (.displs, .counts),
       (.sendtype, .handle .datatype), (.recvbuf, .recvbufInplace), (.recvcount, .count),
       (.recvtype, .handle .datatype), (.root, .rank), (.comm, .handle .comm)]
  | .allreduce | .exscan | .scan =>
      [(.sendbuf, .sendbufInplace), (.recvbuf, .recvbuf), (.count, .count),
       (.datatype, .handle .datatype), (.op, .handle .op), (.comm, .handle .comm)]
  | .bcast =>
      [(.buffer, .recvbuf), (.count, .count), (.datatype, .handle .datatype), (.root, .rank),
       (.comm, .handle .comm)]
  | .reduce =>
      [(.sendbuf, .sendbufInplace), (.recvbuf, .recvbuf), (.count, .count),
       (.datatype, .handle .datatype), (.op, .handle .op), (.root, .rank),
       (.comm, .handle .comm)]
  | .reduceScatter =>
      [(.sendbuf, .sendbufInplace), (.recvbuf, .recvbuf), (.recvcounts, .counts),
       (.datatype, .handle .datatype), (.op, .handle .op), (.comm, .handle .comm)]
  | .reduceScatterBlock =>
      [(.sendbuf, .sendbufInplace), (.recvbuf, .recvbuf), (.recvcount, .count),
       (.datatype, .handle .datatype), (.op, .handle .op), (.comm, .handle .comm)]
  | .neighborAllgather | .neighborAlltoall =>
      [(.sendbuf, .sendbuf), (.sendcount, .count), (.sendtype, .handle .datatype),
       (.recvbuf, .recvbuf), (.recvcount, .count), (.recvtype, .handle .datatype),
       (.comm, .handle .comm)]
  | .neighborAllgatherv =>
      [(.sendbuf, .sendbuf), (.sendcount, .count), (.sendtype, .handle .datatype),
       (.recvbuf, .recvbuf), (.recvcounts, .counts), (.displs, .counts),
       (.recvtype, .handle .datatype), (.comm, .handle .comm)]
  | .neighborAlltoallv =>
      [(.sendbuf, .sendbuf), (.sendcounts, .counts), (.sdispls, .counts),
       (.sendtype, .handle .datatype), (.recvbuf, .recvbuf), (.recvcounts, .counts),
       (.rdispls, .counts), (.recvtype, .handle .datatype), (.comm, .handle .comm)]
  | .neighborAlltoallw =>
      [(.sendbuf, .sendbuf), (.sendcounts, .counts), (.sdispls, .pass),
       (.sendtypes, .types false), (.recvbuf, .recvbuf), (.recvcounts, .counts),
       (.rdispls, .pass), (.recvtypes, .types false), (.comm, .handle .comm)]

def Collective.isNeighbor : Collective → Bool
  | .neighborAllgather | .neighborAllgatherv | .neighborAlltoall | .neighborAlltoallv
  | .neighborAlltoallw => true
  | _ => false

structure Body where
  coll : Collective
  form : Form
  params : List (Param × ParamKind)

/-- A persistent form has an info, after the communicator. -/
def withInfo (form : Form) (params : List (Param × ParamKind)) : List (Param × ParamKind) :=
  if form = .persistent then params ++ [(.info, .handle .info)] else params

/-- `BODY_MPI_X_c` where the implementation has `MPI_X` and not `MPI_X_c`. -/
def fallbackBody (c : Collective) (form : Form) : Body := ⟨c, form, withInfo form c.params⟩

/-- `BODY_MPI_Alltoallw` and `BODY_MPI_Neighbor_alltoallw`, small and large, where
the implementation has them: counts and displacements cross as they are. -/
def typesBody (neighbor : Bool) (form : Form) : Body :=
  let c : Collective := if neighbor then .neighborAlltoallw else .alltoallw
  ⟨c, form, withInfo form (c.params.map fun p => if p.2 = .counts then (p.1, .pass) else p)⟩

namespace Body

variable (b : Body)

/-- The parameters of which the body makes a copy. -/
def staged : List (Param × ParamKind) :=
  b.params.filter fun p =>
    match p.2 with
    | .counts | .types _ => true
    | _ => false

end Body

/-- The variables of a body that lengths of arrays are in. -/
inductive ExtentVar
  | nranks | nsendtypes | nrecvtypes
deriving DecidableEq, Repr

def Body.extentVar (b : Body) (p : Param) : ExtentVar :=
  if b.coll.isNeighbor then
    match p with
    | .sendcounts | .sdispls | .sendtypes => .nsendtypes
    | _ => .nrecvtypes
  else .nranks

/-! ## What a body is given -/

/-- `MPIABI_BOTTOM` and `MPIABI_IN_PLACE`. -/
def abiBottom : UInt64 := 0
def abiInPlace : UInt64 := 1

/-- The wrapper's view of an implementation, with the reverse maps it has built. -/
structure Impl where
  errors : ImplErrors
  handles : ImplHandles
  maps : Rmaps
  built : initReverseMaps handles = .ok maps
  ranks : ImplRanks
  bottom : UInt64
  inPlace : UInt64
  /-- `sizeof(MPI_Datatype)`. -/
  datatypeSize : Nat
  /-- `MPIWRAPPER_STAGED_REQUEST_SLOTS`. -/
  slots : Nat

/-- The arguments of a call, under the names of the parameters they are for. -/
structure Args where
  pointer : Param → UInt64
  /-- Counts and ranks. -/
  number : Param → Int
  handle : Param → UInt64
  counts : Param → Nat → Option Int
  types : Param → Nat → Option UInt64

/-- What `malloc` answers: for a copy that does not fit its buffer, and for the
block of a body that outlives its call. -/
structure Heap where
  stage : Param → Bool
  block : Option Block

/-- An argument as the implementation gets it. -/
inductive ArgVal
  | pointer (p : UInt64)
  | number (n : Int)
  | handle (h : UInt64)
  | counts (ns : List Int)
  | types (hs : List UInt64)
deriving DecidableEq, Repr

structure Call where
  coll : Collective
  form : Form
  args : List (Param × ArgVal)
deriving DecidableEq, Repr

/-! ## Conversions -/

/-- `mpiwrapper_narrow_int` succeeds: between `INT_MIN` and `INT_MAX`. -/
def fitsInt (n : Int) : Prop := -2147483648 ≤ n ∧ n ≤ 2147483647

instance (n : Int) : Decidable (fitsInt n) := inferInstanceAs (Decidable (_ ∧ _))

/-- `mpiwrapper_sendbuf_fromabi` and `mpiwrapper_recvbuf_fromabi`. -/
def bufFromabi (impl : Impl) (abiBuf : UInt64) : UInt64 :=
  if abiBuf = abiBottom then impl.bottom else abiBuf

/-- Their two `_inplace_` variants. -/
def bufInplaceFromabi (impl : Impl) (abiBuf : UInt64) : UInt64 :=
  if abiBuf = abiBottom then impl.bottom
  else if abiBuf = abiInPlace then impl.inPlace
  else abiBuf

/-- How a conversion that reads a caller's array ends. -/
inductive Scan (α : Type)
  | ok (a : α)
  | fault
  | tooLarge
deriving DecidableEq, Repr

def Scan.map {α β : Type} (f : α → β) : Scan α → Scan β
  | .ok a => .ok (f a)
  | .fault => .fault
  | .tooLarge => .tooLarge

/-- The narrowing loop from entry `i` on, `left` entries from its end: how many
entries it reads, and the copy. -/
def narrowLoop (array : Nat → Option Int) (i : Nat) : Nat → Nat × Scan (List Int)
  | 0 => (0, .ok [])
  | left + 1 =>
      match array i with
      | none => (1, .fault)
      | some n =>
          if fitsInt n then
            let (reads, copy) := narrowLoop array (i + 1) left
            (reads + 1, copy.map (n :: ·))
          else (1, .tooLarge)

/-- The loop that converts datatypes. -/
def typesLoop (impl : Impl) (array : Nat → Option UInt64) (i : Nat) :
    Nat → Nat × Scan (List UInt64)
  | 0 => (0, .ok [])
  | left + 1 =>
      match array i with
      | none => (1, .fault)
      | some abi =>
          let (reads, copy) := typesLoop impl array (i + 1) left
          (reads + 1, copy.map (handleFromabi impl.handles .datatype abi :: ·))

/-- One parameter: how many entries of a caller's array are read, and the
argument. `len` is how long an array is. -/
def convertParam (impl : Impl) (args : Args) (len : Nat) (p : Param) :
    ParamKind → Nat × Scan ArgVal
  | .sendbuf | .recvbuf => (0, .ok (.pointer (bufFromabi impl (args.pointer p))))
  | .sendbufInplace | .recvbufInplace =>
      (0, .ok (.pointer (bufInplaceFromabi impl (args.pointer p))))
  | .count => (0, .ok (.number (args.number p)))
  | .handle c => (0, .ok (.handle (handleFromabi impl.handles c (args.handle p))))
  | .rank => (0, .ok (.number (rankFromabi impl.ranks (args.number p))))
  | .counts =>
      let (reads, copy) := narrowLoop (args.counts p) 0 len
      (reads, copy.map .counts)
  | .pass => (0, .ok (.pointer (args.pointer p)))
  | .types ignoredInPlace =>
      if ignoredInPlace ∧ args.pointer .sendbuf = abiInPlace then
        (0, .ok (.types (List.replicate len (impl.handles.bits (abiNull .datatype)))))
      else
        let (reads, copy) := typesLoop impl (args.types p) 0 len
        (reads, copy.map .types)

/-- All parameters in order, up to the first that cannot be converted: which
entries of which arrays are read, and the arguments. -/
def convertParams (impl : Impl) (args : Args) (len : Param → Nat) :
    List (Param × ParamKind) → List (Param × Nat) × Scan (List (Param × ArgVal))
  | [] => ([], .ok [])
  | (p, kind) :: rest =>
      let (reads, val) := convertParam impl args (len p) p kind
      match val with
      | .fault => ([(p, reads)], .fault)
      | .tooLarge => ([(p, reads)], .tooLarge)
      | .ok val =>
          let (log, vals) := convertParams impl args len rest
          ((p, reads) :: log, vals.map ((p, val) :: ·))

/-! ## Up to the call -/

namespace Body

variable (b : Body) (impl : Impl) (args : Args)

/-- The narrowing of the scalar counts, which comes before everything else. -/
def scalarsFit : Bool :=
  b.params.all fun p => p.2 ≠ .count ∨ fitsInt (args.number p.1)

/-- The lengths of the arrays. A body without copies asks nothing. -/
def extents (q : CommQueries) : Except Int32 (ExtentVar → Nat) :=
  if b.staged = [] then .ok fun _ => 0
  else if b.coll.isNeighbor then
    (neighborExtents q (impl.errors.code 11)).map fun n v =>
      match v with
      | .nranks => 0
      | .nsendtypes => n.2
      | .nrecvtypes => n.1
  else if (.root, .rank) ∈ b.params then
    (rootExtent q impl.ranks.root (rankFromabi impl.ranks (args.number .root))).map fun n _ => n
  else (commExtent q).map fun n _ => n

/-- `nstaged`: the elements in the block. A block of two element types counts a
length once, whatever has it. -/
def nstaged (len : ExtentVar → Nat) : Nat :=
  let vars := b.staged.map fun p => b.extentVar p.1
  let mixed := (b.staged.any fun p => p.2 = .counts) && (b.staged.any fun p => p.2 ≠ .counts)
  (if mixed then vars.eraseDups else vars).foldl (fun n v => n + len v) 0

def stageBytes : Nat := 1024

/-- `mpiwrapper_stage` gives a buffer, on the stack or the heap. -/
def stageOk (heap : Heap) (len : ExtentVar → Nat) (p : Param × ParamKind) : Bool :=
  let size := if p.2 = .counts then 4 else impl.datatypeSize
  len (b.extentVar p.1) ≤ stageBytes / size || heap.stage p.1

def memoryOk (heap : Heap) (len : ExtentVar → Nat) : Bool :=
  match b.form with
  | .blocking => b.staged.all (b.stageOk impl heap len)
  | _ => b.nstaged len = 0 || heap.block.isSome

end Body

/-- What a body has done when it gets to its call, or will not get there. -/
inductive Prepared
  | tooLarge
  | queryError (ierror : Int32)
  | noMemory
  | fault
  | call (c : Call) (nstaged : Nat)
deriving DecidableEq, Repr

/-- A body up to its call: the entries it reads of each array, and how it got
there. -/
def Body.prepare (b : Body) (impl : Impl) (q : CommQueries) (heap : Heap) (args : Args) :
    List (Param × Nat) × Prepared :=
  if b.scalarsFit args then
    match b.extents impl args q with
    | .error ierror => ([], .queryError ierror)
    | .ok len =>
        if b.memoryOk impl heap len then
          match convertParams impl args (fun p => len (b.extentVar p)) b.params with
          | (log, .ok vals) => (log, .call ⟨b.coll, b.form, vals⟩ (b.nstaged len))
          | (log, .tooLarge) => (log, .tooLarge)
          | (log, .fault) => (log, .fault)
        else ([], .noMemory)
  else ([], .tooLarge)

/-! ## From the call on -/

/-- What the implementation answers to a call: its code, the request of a call
that makes one, and what it says about that request at once. -/
structure Reply where
  ierror : Int32
  request : UInt64
  complete : GetStatus
deriving DecidableEq, Repr

/-- The wrapper's state that bodies touch. -/
structure World where
  errors : ErrorTable
  handleError : Bool
  staged : StagedTable

/-- What a body leaves: the call it made, its code, what it stored through
`abi_request`, the block it freed, and the state. -/
structure BodyResult where
  call : Option Call
  code : Int32
  request : Option UInt64
  freed : Option Block
  world : World

def World.toabi (w : World) (impl : Impl) (ierror : Int32) : Int32 × World :=
  let (code, errors) := errorcodeToabi impl.errors ierror w.errors
  (code, { w with errors })

/-- `mpiwrapper_request_toabi` and `mpiwrapper_take_handle_error` after it. -/
def World.requestToabi (w : World) (impl : Impl) (request : UInt64) : UInt64 × Bool × World :=
  let (abi, raised) := handleToabi impl.maps .request request w.handleError
  let (e, handleError) := takeHandleError raised
  (abi, e, { w with handleError })

/-- A body that returns without a call. The block is freed if it has one. -/
def stopped (form : Form) (code : Int32) (freed : Option Block) (w : World) : BodyResult where
  call := none
  code := code
  request := if form = .blocking then none else some (abiNull .request)
  freed := freed
  world := w

def finishBlocking (impl : Impl) (c : Call) (reply : Reply) (w : World) : BodyResult :=
  let (code, w) := w.toabi impl reply.ierror
  ⟨some c, code, none, none, w⟩

/-- A body with a request and no copies. -/
def finishRequest (impl : Impl) (c : Call) (reply : Reply) (w : World) : BodyResult :=
  let (abi, raised, w) :=
    if reply.ierror = 0 then w.requestToabi impl reply.request
    else (abiNull .request, takeHandleError w.handleError |>.1, { w with handleError := false })
  if raised then ⟨some c, abiErrIntern, some abi, none, w⟩
  else
    let (code, w) := w.toabi impl reply.ierror
    ⟨some c, code, some abi, none, w⟩

def Form.stagedKind : Form → StagedKind
  | .persistent => .persistent
  | _ => .nonblocking

/-- A body whose copies outlive the call. -/
def finishOutliving (impl : Impl) (c : Call) (nstaged : Nat) (block : Option Block)
    (reply : Reply) (w : World) : BodyResult :=
  if reply.ierror ≠ 0 then
    let (code, w) := w.toabi impl reply.ierror
    ⟨some c, code, some (abiNull .request), block, w⟩
  else
    let (abi, raised, w) := w.requestToabi impl reply.request
    if raised then ⟨some c, abiErrIntern, some abi, none, w⟩
    else
      let kept := stagedKeep impl.slots reply.request block nstaged c.form.stagedKind
        reply.complete w.staged
      ⟨some c, if kept.ok then 0 else abiErrIntern, some abi, kept.freed,
        { w with staged := kept.table }⟩

def Body.finish (b : Body) (impl : Impl) (heap : Heap) (c : Call) (nstaged : Nat)
    (reply : Reply) (w : World) : BodyResult :=
  match b.form with
  | .blocking => finishBlocking impl c reply w
  | _ =>
      if b.staged = [] then finishRequest impl c reply w
      else finishOutliving impl c nstaged heap.block reply w

/-- The block that an early return frees: of the returns before the call, only
those from the loops come after the block was made. -/
def Body.madeBlock (b : Body) (heap : Heap) : Option Block :=
  if b.form = .blocking ∨ b.staged = [] then none else heap.block

/-- A whole body; `none` if it faults. -/
def Body.run (b : Body) (impl : Impl) (q : CommQueries) (heap : Heap) (target : Call → Reply)
    (args : Args) (w : World) : Option BodyResult :=
  match b.prepare impl q heap args with
  | (_, .fault) => none
  | (_, .tooLarge) =>
      some (stopped b.form abiErrValueTooLarge
        (if b.scalarsFit args then b.madeBlock heap else none) w)
  | (_, .queryError ierror) =>
      let (code, w) := w.toabi impl ierror
      some (stopped b.form code none w)
  | (_, .noMemory) => some (stopped b.form abiErrIntern none w)
  | (_, .call c nstaged) => some (b.finish impl heap c nstaged (target c) w)

end AbiWrapper.Ref
