import AbiWrapper.Ref.Fallbacks

/-!
# Completing requests (wrappers.c)

A body that may complete a request compares the handle before its call with
the handle after it. One that the implementation has set to `MPI_REQUEST_NULL`
is done with, and the arrays staged under it are released. There is one scheme
for the bodies with one request and one for those with an array of them; what
differs within a scheme is which outputs there are.

`LifeState` runs these bodies and the ones that stage arrays one after the
other, and keeps a record of each block: which handle it was staged under, and
whether the implementation may still read it. The record is not the code's.
-/

namespace AbiWrapper.Ref

/-- The bodies with one request. -/
inductive SingleCompletion
  | wait | test | requestFree | start
deriving DecidableEq, Repr

/-- The bodies with an array of requests. -/
inductive MultiCompletion
  | waitall | waitany | waitsome | testall | testany | testsome | startall
deriving DecidableEq, Repr

/-- What an implementation's completion function leaves: the handles, the index or
the number of completed requests, `MPI_ERROR` of the statuses, and whether a
single status is the empty one. -/
structure CompletionReply where
  ierror : Int32
  request : Nat → UInt64
  number : Int
  flag : Bool
  statusError : Nat → Int32
  emptyStatus : Bool

/-- What a completion body leaves: its code, the caller's requests, the index or
count and the flag where the body has them, the blocks freed, and the state. -/
structure CompletionResult where
  code : Int32
  abiRequests : List UInt64
  number : Option Int
  flag : Option Bool
  freed : List Block
  world : World

namespace SingleCompletion

def hasFlag : SingleCompletion → Bool
  | .test => true
  | .wait | .requestFree | .start => false

def hasStatus : SingleCompletion → Bool
  | .wait | .test => true
  | .requestFree | .start => false

end SingleCompletion

namespace MultiCompletion

def hasFlag : MultiCompletion → Bool
  | .testall | .testany => true
  | .waitall | .waitany | .waitsome | .testsome | .startall => false

def hasNumber : MultiCompletion → Bool
  | .waitany | .testany | .waitsome | .testsome => true
  | .waitall | .testall | .startall => false

/-- The body has an array of statuses, and stages it unless it is ignored. -/
def hasStatuses : MultiCompletion → Bool
  | .waitall | .testall | .waitsome | .testsome => true
  | .waitany | .testany | .startall => false

end MultiCompletion

def requestNull (impl : Impl) : UInt64 := impl.handles.bits (abiNull .request)

def requestFromabi (impl : Impl) (abiRequest : UInt64) : UInt64 :=
  handleFromabi impl.handles .request abiRequest

/-- `mpiwrapper_request_toabi` on each, with `handle_error` before and after. -/
def requestsToabi (maps : Rmaps) : List UInt64 → Bool → List UInt64 × Bool
  | [], handleError => ([], handleError)
  | request :: rest, handleError =>
      let (abi, handleError) := handleToabi maps .request request handleError
      let (abis, handleError) := requestsToabi maps rest handleError
      (abi :: abis, handleError)

/-! ## The releases -/

/-- A request before and after a call was nulled by it. -/
def nulled (null : UInt64) (request : UInt64 × UInt64) : Bool :=
  request.2 = null ∧ request.1 ≠ null

/-- The loop over the requests. -/
def releaseNulled (slots : Nat) (null : UInt64) :
    List (UInt64 × UInt64) → StagedTable → StagedTable × List Block
  | [], t => (t, [])
  | request :: rest, t =>
      if nulled null request then
        let (t, block) := stagedRelease slots request.1 t
        let (t, blocks) := releaseNulled slots null rest t
        (t, block.toList ++ blocks)
      else releaseNulled slots null rest t

/-- What `emit_releases` puts into a body, over the requests before and after its
call. -/
def emitReleases (impl : Impl) (requests : List (UInt64 × UInt64)) (t : StagedTable) :
    StagedTable × List Block :=
  if stagedAny t then releaseNulled impl.slots (requestNull impl) requests t else (t, [])

/-! ## The bodies -/

/-- What converting the error fields of statuses does to the registry. -/
def internErrors (impl : Impl) (errors : List Int32) (t : ErrorTable) : ErrorTable :=
  errors.foldl (fun t ierror => (errorcodeToabi impl.errors ierror t).2) t

/-- The error field of a single status is converted if it is the empty one. -/
def singleError (ignore : Bool) (reply : CompletionReply) : List Int32 :=
  if !ignore ∧ reply.emptyStatus then [reply.statusError 0] else []

/-- The error fields that a body with an array of requests converts. -/
def statusErrors (c : MultiCompletion) (count : Nat) (ignore : Bool) (reply : CompletionReply) :
    List Int32 :=
  match c with
  | .waitall | .testall =>
      if ignore then [] else (List.range count).map reply.statusError
  | .waitsome | .testsome =>
      let nstatuses := if reply.number < 0 ∨ count < reply.number then 0 else reply.number.toNat
      if ignore then [] else (List.range nstatuses).map reply.statusError
  | .waitany | .testany => singleError ignore reply
  | .startall => []

/-- `BODY_MPI_Wait`, `_Test`, `_Request_free` and `_Start`. -/
def SingleCompletion.run (c : SingleCompletion) (impl : Impl) (abiRequest : UInt64)
    (ignore : Bool) (target : UInt64 → CompletionReply) (w : World) : CompletionResult :=
  let before := requestFromabi impl abiRequest
  let reply := target before
  let request := reply.request 0
  let (abi, raised) := handleToabi impl.maps .request request w.handleError
  let errors :=
    internErrors impl (if c.hasStatus then singleError ignore reply else []) w.errors
  let (staged, freed) := emitReleases impl [(before, request)] w.staged
  let (raised, handleError) := takeHandleError raised
  let flag := if c.hasFlag then some reply.flag else none
  if raised then ⟨abiErrIntern, [abi], none, flag, freed, ⟨errors, handleError, staged⟩⟩
  else
    let (code, errors) := errorcodeToabi impl.errors reply.ierror errors
    ⟨code, [abi], none, flag, freed, ⟨errors, handleError, staged⟩⟩

/-- A return before the call, with the outputs cleared. -/
def MultiCompletion.stopped (c : MultiCompletion) (code : Int32) (abiRequests : List UInt64)
    (w : World) : CompletionResult :=
  ⟨code, abiRequests, if c.hasNumber then some 0 else none,
    if c.hasFlag then some false else none, [], w⟩

/-- `BODY_MPI_Waitall`, `_Waitany`, `_Waitsome`, their three tests, and `_Startall`.
`requestsStaged` and `statusesStaged` are what `mpiwrapper_stage` answers. -/
def MultiCompletion.run (c : MultiCompletion) (impl : Impl) (count : Int)
    (abiRequests : List UInt64) (ignore requestsStaged statusesStaged : Bool)
    (target : List UInt64 → CompletionReply) (w : World) : CompletionResult :=
  if count < 0 then c.stopped abiErrCount abiRequests w
  else if !requestsStaged ∨ (c.hasStatuses ∧ !ignore ∧ !statusesStaged) then
    c.stopped abiErrIntern abiRequests w
  else
    let n := count.toNat
    let before := (abiRequests.take n).map (requestFromabi impl)
    let reply := target before
    let requests := (List.range n).map reply.request
    let (staged, freed) := emitReleases impl (before.zip requests) w.staged
    let (abis, raised) := requestsToabi impl.maps requests w.handleError
    let errors := internErrors impl (statusErrors c n ignore reply) w.errors
    let (code, errors) := errorcodeToabi impl.errors reply.ierror errors
    let (raised, handleError) := takeHandleError raised
    ⟨if raised then abiErrIntern else code, abis ++ abiRequests.drop n,
      if c.hasNumber then some reply.number else none,
      if c.hasFlag then some reply.flag else none, freed, ⟨errors, handleError, staged⟩⟩

/-! ## Runs -/

/-- A block that a body has made, the handle its arrays are staged under, and
whether the implementation may still read them. -/
structure Lifetime where
  block : Block
  handle : UInt64
  kind : StagedKind
  reading : Bool
deriving DecidableEq, Repr

/-- An implementation that has taken a call may read the arrays until it reports
a nonblocking operation complete or nulls the handle. -/
def Reply.mayRead (reply : Reply) (kind : StagedKind) (nstaged : Nat) : Bool :=
  reply.ierror = 0 ∧ 0 < nstaged ∧
    ¬(kind = .nonblocking ∧ reply.complete.ierror = 0 ∧ reply.complete.flag = true)

def Body.lifetime (b : Body) (impl : Impl) (q : CommQueries) (heap : Heap) (args : Args)
    (target : Call → Reply) : Option Lifetime :=
  match (b.prepare impl q heap args).2 with
  | .call c nstaged => (b.madeBlock heap).map fun block =>
      ⟨block, (target c).request, b.form.stagedKind, (target c).mayRead b.form.stagedKind nstaged⟩
  | .tooLarge =>
      if b.scalarsFit args then
        (b.madeBlock heap).map fun block => ⟨block, 0, b.form.stagedKind, false⟩
      else none
  | _ => none

/-- One body called: it begins a nonblocking or persistent operation, or completes
requests. -/
inductive LifeCall
  | begin (b : Body) (q : CommQueries) (heap : Heap) (args : Args) (target : Call → Reply)
  | single (c : SingleCompletion) (abiRequest : UInt64) (ignore : Bool)
      (target : UInt64 → CompletionReply)
  | multi (c : MultiCompletion) (count : Int) (abiRequests : List UInt64)
      (ignore requestsStaged statusesStaged : Bool) (target : List UInt64 → CompletionReply)

/-- What a call does: its code, the blocks it frees, the state it leaves, the block
it makes and the handles the implementation nulls in it. -/
structure LifeOutcome where
  code : Int32
  freed : List Block
  world : World
  made : Option Lifetime
  nulled : List UInt64

/-- The handles among `requests`, before and after a call, that it nulled. -/
def nulledHandles (impl : Impl) (requests : List (UInt64 × UInt64)) : List UInt64 :=
  (requests.filter (nulled (requestNull impl))).map Prod.fst

/-- The handles a completion body's call is about, before and after; none if the
body returns before the call. -/
def LifeCall.requests (impl : Impl) : LifeCall → List (UInt64 × UInt64)
  | .begin _ _ _ _ _ => []
  | .single _ abiRequest _ target =>
      [(requestFromabi impl abiRequest, (target (requestFromabi impl abiRequest)).request 0)]
  | .multi c count abiRequests ignore requestsStaged statusesStaged target =>
      if count < 0 ∨ !requestsStaged ∨ (c.hasStatuses ∧ !ignore ∧ !statusesStaged) then []
      else
        let before := (abiRequests.take count.toNat).map (requestFromabi impl)
        before.zip ((List.range count.toNat).map (target before).request)

/-- `none` if the body is not one of these or faults. -/
def LifeCall.outcome (impl : Impl) (w : World) : LifeCall → Option LifeOutcome
  | .begin b q heap args target =>
      if b.form = .blocking then none
      else (b.run impl q heap target args w).map fun r =>
        ⟨r.code, r.freed.toList, r.world, b.lifetime impl q heap args target, []⟩
  | .single c abiRequest ignore target =>
      let r := c.run impl abiRequest ignore target w
      some ⟨r.code, r.freed, r.world, none,
        nulledHandles impl (LifeCall.requests impl (.single c abiRequest ignore target))⟩
  | .multi c count abiRequests ignore requestsStaged statusesStaged target =>
      let r := c.run impl count abiRequests ignore requestsStaged statusesStaged target w
      some ⟨r.code, r.freed, r.world, none,
        nulledHandles impl (LifeCall.requests impl
          (.multi c count abiRequests ignore requestsStaged statusesStaged target))⟩

structure LifeState where
  world : World
  /-- Every block made so far, the newest first. -/
  blocks : List Lifetime
  /-- Every block freed so far, once for each time. -/
  freed : List Block

def Lifetime.after (nulled : List UInt64) (l : Lifetime) : Lifetime :=
  if l.handle ∈ nulled then { l with reading := false } else l

namespace LifeState

def init : LifeState := ⟨⟨.empty, false, .init⟩, [], []⟩

def step (impl : Impl) (s : LifeState) (call : LifeCall) : Option LifeState :=
  (call.outcome impl s.world).map fun o =>
    { world := o.world
      blocks := o.made.toList ++ s.blocks.map (Lifetime.after o.nulled)
      freed := o.freed ++ s.freed }

/-- The blocks the implementation may still read. -/
def live (s : LifeState) : List Lifetime := s.blocks.filter (·.reading)

/-- What is asked of the heap and of the implementation. A block is new. A request
has a handle that is not reserved and that no live request has, and requests that
are completed have had such handles. No more requests have staged arrays than the
table has slots. -/
def implOk (impl : Impl) (s : LifeState) : LifeCall → Prop
  | .begin b q heap args target =>
      (∀ block, heap.block = some block → ∀ l, l ∈ s.blocks → l.block ≠ block) ∧
      ∀ c nstaged, (b.prepare impl q heap args).2 = .call c nstaged →
        (target c).ierror = 0 →
          ¬reservedKey (target c).request ∧ ¬inPredefRange (target c).request ∧
          (target c).request ≠ requestNull impl ∧
          (∀ l, l ∈ s.live → l.handle ≠ (target c).request) ∧
          ((target c).mayRead b.form.stagedKind nstaged = true → s.live.length < impl.slots)
  | call => ∀ request, request ∈ call.requests impl →
      request.1 = requestNull impl ∨ ¬reservedKey request.1

end LifeState

end AbiWrapper.Ref
