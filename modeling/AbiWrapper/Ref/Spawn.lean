import AbiWrapper.Ref.Significance

/-!
# Spawning processes (hw_spawn.c, extents.c)

`MPI_Comm_spawn` and `MPI_Comm_spawn_multiple` have arguments before the root
that mean something at the root alone, and an array of error codes after it
that means something everywhere. Its length is the number of processes to be
started, which is one of the former arguments or a sum of them: the bodies
check it, add it up and convert the infos at every process.

A call is what the implementation is called with. What it sees of it depends on
whether this process is the root. Of the array of error codes it sees the
address: how many entries there are for it is nothing that it is told.
-/

namespace AbiWrapper.Ref

/-- The wrapper's view of an implementation, with its null argument vectors. -/
structure SpawnImpl extends Impl where
  argvNull : UInt64
  argvsNull : UInt64
  /-- `sizeof(MPI_Info)`. -/
  infoSize : Nat

/-- `MPIABI_ARGV_NULL` and `MPIABI_ARGVS_NULL`. -/
def abiArgvNull : UInt64 := 0

/-- The arguments before the root, as the implementation gets them. -/
inductive RootArgs
  | single (command argv : UInt64) (maxprocs : Int) (info : UInt64)
  | multiple (count : Int) (commands argv maxprocs : UInt64) (infos : List UInt64)
deriving DecidableEq, Repr

/-- A call of the implementation's function, with an array for the error codes or
`MPI_ERRCODES_IGNORE`. -/
structure SpawnCall where
  rootArgs : RootArgs
  root : Int
  comm : UInt64
  errcodes : Bool
deriving DecidableEq, Repr

structure SeenSpawn where
  rootArgs : Option RootArgs
  root : Int
  comm : UInt64
  errcodes : Bool
deriving DecidableEq, Repr

def SpawnCall.seen (atRoot : Bool) (c : SpawnCall) : SeenSpawn :=
  ⟨if atRoot then some c.rootArgs else none, c.root, c.comm, c.errcodes⟩

/-- What the implementation answers, and what its array of error codes holds
afterwards. -/
structure SpawnReply where
  ierror : Int32
  intercomm : UInt64
  errcodes : Nat → Int32

/-- What a body leaves: its call, how many entries of the caller's arrays it
has read, its code, what it stored, and the state. -/
structure SpawnResult where
  call : Option SpawnCall
  reads : Nat
  code : Int32
  intercomm : Option UInt64
  errcodes : List Int32
  world : World

/-- `mpiwrapper_stage` gives a buffer for `n` elements of a size. -/
def spawnStageOk (malloc : Nat → Bool) (size n : Nat) : Bool :=
  n = 0 || n ≤ Body.stageBytes / size || malloc n

/-- The loop that converts the error codes, from entry `i` on. -/
def errcodesLoop (impl : Impl) (errcodes : Nat → Int32) (i : Nat) :
    Nat → World → List Int32 × World
  | 0, w => ([], w)
  | left + 1, w =>
      let (abi, w) := w.toabi impl (errcodes i)
      let (rest, w) := errcodesLoop impl errcodes (i + 1) left w
      (abi :: rest, w)

/-- Both bodies from the call on; `n` is how many error codes they convert. -/
def finishSpawn (impl : Impl) (c : SpawnCall) (n reads : Nat) (reply : SpawnReply) (w : World) :
    SpawnResult :=
  let (errcodes, w) := errcodesLoop impl reply.errcodes 0 n w
  let (intercomm, handleError) :=
    if reply.ierror = 0 then handleToabi impl.maps .comm reply.intercomm w.handleError
    else (abiNull .comm, w.handleError)
  let (code, w) := w.toabi impl reply.ierror
  let (raised, handleError) := takeHandleError handleError
  ⟨some c, reads, if raised then abiErrIntern else code, some intercomm, errcodes,
    { w with handleError }⟩

def stoppedSpawn (reads : Nat) (code : Int32) (intercomm : Option UInt64) (w : World) :
    SpawnResult :=
  ⟨none, reads, code, intercomm, [], w⟩

/-! ## One command -/

structure SpawnArgs where
  command : UInt64
  argv : UInt64
  maxprocs : Int
  info : UInt64
  root : Int
  comm : UInt64
  /-- `abi_array_of_errcodes` is `MPIABI_ERRCODES_IGNORE`. -/
  ignore : Bool
deriving DecidableEq, Repr

/-- `BODY_MPI_Comm_spawn`, at a process. -/
def commSpawn (impl : SpawnImpl) (malloc : Nat → Bool) (atRoot : Bool)
    (target : SeenSpawn → SpawnReply) (args : SpawnArgs) (w : World) : SpawnResult :=
  if args.maxprocs < 0 then stoppedSpawn 0 abiErrArg (some (abiNull .comm)) w
  else if !args.ignore && !spawnStageOk malloc 4 args.maxprocs.toNat then
    stoppedSpawn 0 abiErrIntern none w
  else
    let c : SpawnCall :=
      { rootArgs := .single args.command
          (if args.argv = abiArgvNull then impl.argvNull else args.argv) args.maxprocs
          (handleFromabi impl.handles .info args.info)
        root := rankFromabi impl.ranks args.root
        comm := handleFromabi impl.handles .comm args.comm
        errcodes := !args.ignore }
    finishSpawn impl.toImpl c (if args.ignore then 0 else args.maxprocs.toNat) 0
      (target (c.seen atRoot)) w

/-! ## Several commands -/

structure SpawnMultipleArgs where
  count : Int
  commands : UInt64
  argv : UInt64
  /-- `abi_array_of_maxprocs`: the pointer, and what is there. -/
  maxprocsPointer : UInt64
  maxprocs : Nat → Option Int
  infos : Nat → Option UInt64
  root : Int
  comm : UInt64
  ignore : Bool

/-- How `mpiwrapper_sum_degrees` ends. -/
inductive SumDegrees
  | total (n : Nat)
  | refused
  | fault
deriving DecidableEq, Repr

/-- Its loop, from entry `i` on: how many entries it reads, and how it ends. -/
def sumDegreesLoop (degrees : Nat → Option Int) (i sum : Nat) : Nat → Nat × SumDegrees
  | 0 => (0, .total sum)
  | left + 1 =>
      match degrees i with
      | none => (1, .fault)
      | some d =>
          if d < 0 then (1, .refused)
          else if 2147483647 < sum + d.toNat then (1, .refused)
          else
            let (reads, end_) := sumDegreesLoop degrees (i + 1) (sum + d.toNat) left
            (reads + 1, end_)

def infosLoop (impl : Impl) (infos : Nat → Option UInt64) (i : Nat) :
    Nat → Nat × Option (List UInt64)
  | 0 => (0, some [])
  | left + 1 =>
      match infos i with
      | none => (1, none)
      | some abi =>
          let (reads, rest) := infosLoop impl infos (i + 1) left
          (reads + 1, rest.map (handleFromabi impl.handles .info abi :: ·))

/-- The number of error codes: nothing is added up where there is no array. -/
def nerrcodes (args : SpawnMultipleArgs) : Nat × SumDegrees :=
  if args.ignore then (0, .total 0) else sumDegreesLoop args.maxprocs 0 0 args.count.toNat

/-- `BODY_MPI_Comm_spawn_multiple`, at a process; `none` if it faults. -/
def commSpawnMultiple (impl : SpawnImpl) (malloc : Nat → Bool) (atRoot : Bool)
    (target : SeenSpawn → SpawnReply) (args : SpawnMultipleArgs) (w : World) :
    Option SpawnResult :=
  if args.count < 0 then some (stoppedSpawn 0 abiErrArg (some (abiNull .comm)) w)
  else
    match nerrcodes args with
    | (_, .fault) => none
    | (reads, .refused) => some (stoppedSpawn reads abiErrArg (some (abiNull .comm)) w)
    | (reads, .total n) =>
        if !spawnStageOk malloc impl.infoSize args.count.toNat then
          some (stoppedSpawn reads abiErrIntern none w)
        else
          match infosLoop impl.toImpl args.infos 0 args.count.toNat with
          | (_, none) => none
          | (reads', some infos) =>
              if !args.ignore && !spawnStageOk malloc 4 n then
                some (stoppedSpawn (reads + reads') abiErrIntern none w)
              else
                let c : SpawnCall :=
                  { rootArgs := .multiple args.count args.commands
                      (if args.argv = abiArgvNull then impl.argvsNull else args.argv)
                      args.maxprocsPointer infos
                    root := rankFromabi impl.ranks args.root
                    comm := handleFromabi impl.handles .comm args.comm
                    errcodes := !args.ignore }
                some (finishSpawn impl.toImpl c n (reads + reads') (target (c.seen atRoot)) w)

/-! ## Error codes that were not written -/

/-- What the implementation's function has done when it returns: of the error
codes, those it has written. -/
structure SpawnReturn where
  ierror : Int32
  intercomm : UInt64
  wrote : Nat → Option Int32

/-- What the body finds, where the array had `stack` in it before. -/
def SpawnReturn.reply (r : SpawnReturn) (stack : Nat → Int32) : SpawnReply :=
  ⟨r.ierror, r.intercomm, fun i => (r.wrote i).getD (stack i)⟩

/-- How many error codes the arguments have the body convert. -/
def SpawnArgs.nconverted (malloc : Nat → Bool) (args : SpawnArgs) : Nat :=
  if args.ignore || !spawnStageOk malloc 4 args.maxprocs.toNat then 0 else args.maxprocs.toNat

def SpawnMultipleArgs.nconverted (impl : SpawnImpl) (malloc : Nat → Bool)
    (args : SpawnMultipleArgs) : Nat :=
  if args.ignore || args.count < 0 || !spawnStageOk malloc impl.infoSize args.count.toNat then 0
  else
    match sumDegreesLoop args.maxprocs 0 0 args.count.toNat with
    | (_, .total n) =>
        if (infosLoop impl.toImpl args.infos 0 args.count.toNat).2.isSome &&
          spawnStageOk malloc 4 n then n
        else 0
    | _ => 0

/-- Codes that are converted one after the other. -/
def convertAll (impl : ImplErrors) : List Int32 → ErrorTable → List Int32 × ErrorTable
  | [], t => ([], t)
  | code :: rest, t =>
      let (abi, t) := errorcodeToabi impl code t
      let (abis, t) := convertAll impl rest t
      (abi :: abis, t)

end AbiWrapper.Ref
