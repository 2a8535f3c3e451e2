import AbiWrapper.Lib.Stores
import AbiWrapper.Ref.Constants
import AbiWrapper.Ref.StatusOps

/-!
# Programs over the generated bodies (generate.py, wrappers.c)

A body whose parameters are scalars is made of four parts, in this order: one
declaration for each input, which converts it; the call of the implementation's
function; one statement for each output, which converts what the function wrote;
and the code. How a parameter is converted is a matter of its class alone
(`emit_body`), so a body is its list of parameters here, and what `assemble` makes
of the list is done over the list.

A program has variables, which it assigns constants to and hands to calls. It
runs twice: behind the wrapper, where a variable has the ABI's value, and on the
implementation itself, where it has the implementation's — or none, as long as
nothing has given it one. The implementation is any function of its own state
and of the arguments it gets.

Bodies with arrays are in `FallbackGen.lean` and `Completion.lean`, and tool
handles, callbacks and string buffers in modules of their own.
-/

namespace AbiWrapper.Ref

open AbiWrapper.Lib

/-! ## Values -/

/-- What crosses in both directions: a handle, a constant of a family (ranks, tags
and the `switch` classes), a set of flags, an error code, or what both sides have
in common. -/
inductive NamedKind
  | handle (c : HandleClass)
  | const (f : ClosedFamily)
  | mask (f : MaskFamily)
  | errorcode
  | plain
deriving DecidableEq, Repr

abbrev NamedKind.Value : NamedKind → Type
  | .handle _ => UInt64
  | .const _ | .errorcode => Int32
  | .mask _ => Mask
  | .plain => Int

/-- And what is only ever given: a color, or the address of a buffer. -/
inductive ValueKind
  | named (k : NamedKind)
  | color
  | buffer (inPlace : Bool)
deriving DecidableEq, Repr

abbrev ValueKind.Value : ValueKind → Type
  | .named k => k.Value
  | .color => Int32
  | .buffer _ => UInt64

structure Var where
  kind : ValueKind
  id : Nat
deriving DecidableEq, Repr

/-! ## Bodies -/

/-- A parameter by its class, with the variable it is for. A pointer of the five
query functions may be null, and a status ignored. -/
inductive BodyParam
  | input (x : Var)
  | output (k : NamedKind) (id : Option Nat)
  | inout (k : NamedKind) (id : Nat)
  | status (v : Option Nat)
deriving DecidableEq, Repr

namespace BodyParam

/-- `handle_out`: the body takes the flag. -/
def makesHandle : BodyParam → Bool
  | .output (.handle _) _ | .inout (.handle _) _ => true
  | _ => false

end BodyParam

/-- What a call that fails leaves in an output that has a null value. -/
def NamedKind.null : (k : NamedKind) → Option k.Value
  | .handle c => some (abiNull c)
  | .const _ | .mask _ | .errorcode | .plain => none

/-- The implementation writes to the caller's variable itself. -/
def NamedKind.direct (k : NamedKind) : Bool := k = .plain

/-- An argument, as the implementation gets it: a value, the address of one, the
address of a place to write to, and that of a status or the sentinel. -/
inductive ImplArg
  | value (k : ValueKind) (v : k.Value)
  | object (k : NamedKind) (v : k.Value)
  | place (k : NamedKind)
  | null
  | status (ignored : Bool)

structure ImplCall where
  function : String
  args : List ImplArg

/-- What a function does: the implementation's state, the code, what it wrote
through which of its parameters, and the statuses it filled, each with an
`MPI_ERROR` or not. -/
structure ImplReply (σ : Type) where
  world : σ
  ierror : Int32
  wrote : (k : NamedKind) → Nat → Option k.Value
  status : Nat → Option (Bytes × Bool)

/-- What an output is after the call; a handle is one only of a call that has
succeeded. -/
def ImplReply.defined {σ : Type} (reply : ImplReply σ) (k : NamedKind) (i : Nat) :
    Option k.Value :=
  if k.null.isSome ∧ reply.ierror ≠ 0 then none else reply.wrote k i

/-- An implementation: its headers, and its functions. -/
structure ImplApp (fmt : IntFormat) (L : StatusLayout) (σ : Type) where
  status : ImplStatus fmt L
  maps : Rmaps
  built : initReverseMaps status.handles = .ok maps
  consts : (f : ClosedFamily) → ConstNumbering f
  masks : (f : MaskFamily) → MaskNumbering f
  undefined : Int32
  bottom : UInt64
  inPlace : UInt64
  call : σ → ImplCall → ImplReply σ

namespace ImplApp

variable {fmt : IntFormat} {L : StatusLayout} {σ : Type} (impl : ImplApp fmt L σ)

/-- Undefined for the lowest error codes alone. -/
def namedFromabi (t : ErrorTable) : (k : NamedKind) → k.Value → Option k.Value
  | .handle c, abi => some (handleFromabi impl.status.handles c abi)
  | .const f, abi => some ((impl.consts f).fromabi abi)
  | .mask f, abi => some ((impl.masks f).fromabi abi)
  | .errorcode, abi => errorcodeFromabi impl.status.consts.errors abi t
  | .plain, abi => some abi

/-- The initializer of an input's local. -/
def fromabi (t : ErrorTable) : (k : ValueKind) → k.Value → Option k.Value
  | .named k, abi => impl.namedFromabi t k abi
  | .color, abi => some (if abi = -32766 then impl.undefined else abi)
  | .buffer inPlace, abi =>
      some (if abi = 0 then impl.bottom
        else if inPlace ∧ abi = 1 then impl.inPlace
        else abi)

/-- The right-hand side of an output's statement, with the thread's flag and the
table of error codes. -/
def toabi : (k : NamedKind) → k.Value → ErrorTable × Bool → k.Value × ErrorTable × Bool
  | .handle c, v, (t, handleError) =>
      let r := handleToabi impl.maps c v handleError
      (r.1, t, r.2)
  | .const f, v, cross => ((impl.consts f).toabi v, cross)
  | .mask f, v, cross => ((impl.masks f).toabi v, cross)
  | .errorcode, v, (t, handleError) =>
      let r := errorcodeToabi impl.status.consts.errors v t
      (r.1, r.2, handleError)
  | .plain, v, cross => (v, cross)

end ImplApp

/-! ## Behind the wrapper -/

/-- A program behind the wrapper. The table of error codes and the answers are
with its statuses. -/
structure AppState (σ : Type) where
  statuses : StatusState
  handleError : Bool
  vars : (x : Var) → x.kind.Value
  world : σ
  calls : List ImplCall

/-- What the locals of a body have in them before it gives them a value. -/
structure BodyStack where
  value : (k : NamedKind) → Nat → k.Value
  bytes : Bytes

namespace AppState

variable {fmt : IntFormat} {L : StatusLayout} {σ : Type} (impl : ImplApp fmt L σ)

def init (abi : Nat → Bytes) (vars : (x : Var) → x.kind.Value) (world : σ) : AppState σ :=
  ⟨.init abi, false, vars, world, []⟩

def argument (s : AppState σ) : BodyParam → Option ImplArg
  | .input x => (impl.fromabi s.statuses.errors x.kind (s.vars x)).map (ImplArg.value x.kind)
  | .output k (some _) => some (.place k)
  | .output _ none => some .null
  | .inout k id =>
      (impl.namedFromabi s.statuses.errors k (s.vars ⟨.named k, id⟩)).map (ImplArg.object k)
  | .status v => some (.status (v = none))

/-- `*abi_x = mpiwrapper_<family>_toabi(x);` -/
def posted (s : AppState σ) (k : NamedKind) (id : Nat) (v : k.Value) : AppState σ :=
  let r := impl.toabi k v (s.statuses.errors, s.handleError)
  { s with
    statuses := { s.statuses with errors := r.2.1 }
    handleError := r.2.2
    vars := Function.update s.vars ⟨.named k, id⟩ r.1 }

/-- The statement of the parameter at `i`. `before` is the state in which the
locals were declared. -/
def post (before : AppState σ) (stack : BodyStack) (reply : ImplReply σ) (i : Nat)
    (s : AppState σ) : BodyParam → AppState σ
  | .input _ => s
  | .output _ none => s
  | .output k (some id) =>
      let written := (reply.wrote k i).getD
        (if k.direct then s.vars ⟨.named k, id⟩ else stack.value k i)
      match k.null with
      | some null =>
          if reply.ierror = 0 then s.posted impl k id written
          else { s with vars := Function.update s.vars ⟨.named k, id⟩ null }
      | none => s.posted impl k id written
  | .inout k id =>
      -- The local has the argument, which was defined.
      match (reply.wrote k i).or
        (impl.namedFromabi before.statuses.errors k (before.vars ⟨.named k, id⟩)) with
      | some v => s.posted impl k id v
      | none => s
  | .status none => s
  | .status (some v) =>
      -- The local is zeroed, for a function that leaves it alone.
      let status := ((reply.status i).map fun r => StatusState.filled fmt L r.1 r.2).getD
        fun _ => 0
      { s with
        statuses := s.statuses.store v
          (statusToabiKeepError fmt L impl.status.consts status (s.statuses.abi v) stack.bytes
            s.statuses.errors) }

/-- The statements, from the parameter at `i` on. -/
def posts (before : AppState σ) (stack : BodyStack) (reply : ImplReply σ) :
    Nat → List BodyParam → AppState σ → AppState σ
  | _, [], s => s
  | i, p :: rest, s => posts before stack reply (i + 1) rest (post impl before stack reply i s p)

/-- `if (mpiwrapper_take_handle_error()) return MPIABI_ERR_INTERN;`, where the body
has it, and then `return mpiwrapper_errorcode_toabi(ierror);`. -/
def returned (s : AppState σ) (params : List BodyParam) (ierror : Int32) : AppState σ :=
  let takes := params.any BodyParam.makesHandle
  let s' := { s with handleError := !takes && s.handleError }
  if takes && s.handleError then
    { s' with statuses := s.statuses.answered (⟨abiErrIntern, none⟩, s.statuses.errors) }
  else
    let code := errorcodeToabi impl.status.consts.errors ierror s.statuses.errors
    { s' with statuses := s.statuses.answered (⟨code.1, none⟩, code.2) }

/-- A body. -/
def body (s : AppState σ) (f : String) (params : List BodyParam) (stack : BodyStack) :
    Option (AppState σ) :=
  (params.mapM (s.argument impl)).map fun args =>
    let call : ImplCall := ⟨f, args⟩
    let reply := impl.call s.world call
    let called := { s with world := reply.world, calls := s.calls ++ [call] }
    (posts impl s stack reply 0 params called).returned impl params reply.ierror

end AppState

/-! ## On the implementation itself -/

structure NativeApp (σ : Type) where
  statuses : NativeState
  vars : (x : Var) → Option x.kind.Value
  world : σ
  calls : List ImplCall

namespace NativeApp

variable (fmt : IntFormat) (L : StatusLayout) {σ : Type}

def init (world : σ) : NativeApp σ := ⟨.init, fun _ => none, world, []⟩

/-- A variable without a value is not used. -/
def argument (n : NativeApp σ) : BodyParam → Option ImplArg
  | .input x => (n.vars x).map (ImplArg.value x.kind)
  | .output k (some _) => some (.place k)
  | .output _ none => some .null
  | .inout k id => (n.vars ⟨.named k, id⟩).map (ImplArg.object k)
  | .status v => some (.status (v = none))

def store (n : NativeApp σ) (k : NamedKind) (id : Nat) (v : Option k.Value) : NativeApp σ :=
  { n with vars := Function.update n.vars ⟨.named k, id⟩ v }

/-- What the call has done to the variable at `i`. A status that the function has
not filled has no value any more. -/
def post (before : NativeApp σ) (reply : ImplReply σ) (i : Nat) (n : NativeApp σ) :
    BodyParam → NativeApp σ
  | .input _ => n
  | .output _ none => n
  | .output k (some id) => n.store k id (reply.defined k i)
  | .inout k id =>
      n.store k id ((reply.wrote k i).or (before.vars ⟨.named k, id⟩))
  | .status none => n
  | .status (some v) =>
      match reply.status i with
      | some (status, withError) =>
          { n with statuses := n.statuses.received fmt L v status withError }
      | none => { n with statuses := n.statuses.forget v }

def posts (before : NativeApp σ) (reply : ImplReply σ) :
    Nat → List BodyParam → NativeApp σ → NativeApp σ
  | _, [], n => n
  | i, p :: rest, n => posts before reply (i + 1) rest (post fmt L before reply i n p)

variable {fmt L} (impl : ImplApp fmt L σ)

def body (n : NativeApp σ) (f : String) (params : List BodyParam) : Option (NativeApp σ) :=
  (params.mapM n.argument).map fun args =>
    let call : ImplCall := ⟨f, args⟩
    let reply := impl.call n.world call
    let called := { n with world := reply.world, calls := n.calls ++ [call] }
    let posted := posts fmt L n reply 0 params called
    { posted with statuses := posted.statuses.answered (.done reply.ierror) }

end NativeApp

/-! ## Runs -/

/-- What a program does. A constant has a value on either side. -/
inductive AppAct
  | assign (x : Var) (abi native : x.kind.Value)
  | call (f : String) (params : List BodyParam) (stack : BodyStack)
  | status (a : StatusAct)

variable {fmt : IntFormat} {L : StatusLayout} {σ : Type} (impl : ImplApp fmt L σ)

def AppState.step (s : AppState σ) : AppAct → Option (AppState σ)
  | .assign x abi _ => some { s with vars := Function.update s.vars x abi }
  | .call f params stack => s.body impl f params stack
  | .status a => (s.statuses.step impl.status a).map fun statuses => { s with statuses }

def NativeApp.step (n : NativeApp σ) : AppAct → Option (NativeApp σ)
  | .assign x _ native => some { n with vars := Function.update n.vars x (some native) }
  | .call f params _ => n.body impl f params
  | .status a => (n.statuses.step impl.status a).map fun statuses => { n with statuses }

end AbiWrapper.Ref
