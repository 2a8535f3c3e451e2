import AbiWrapper.Lib.Run
import AbiWrapper.Ref.Handles

/-!
# The handle-error flag over calls and callbacks (handles.c, constants.c)

A conversion to an ABI handle cannot fail in its own right, so one that meets
the reserved window sets a flag of the thread, and the body that converted
takes the flag and returns `MPI_ERR_INTERN`. The trampolines convert as well:
the datatype of a reduction, the object an error handler or an attribute
function is called for. They have nobody to report to.

A thread's history is a list of labels. A wrapper's body is in its
implementation function between `enter` and `leave`, which is where callbacks
come; a callback may call wrappers in its turn, so the frames are a stack. What
a body does after its function has returned — convert what it returns, take the
flag, return — no callback interrupts, and is one label.

A callback is called for objects that there are: the implementation's constants,
objects that a call has returned to the application, and those that the
implementation has made for itself, which may have attributes and error handlers
as well. An object that collides is never the application's, since the call that
should return it gives a null handle.
-/

namespace AbiWrapper.Ref

open AbiWrapper.Lib

/-! ## Conversions -/

inductive ToolClass
  | enum | cvarHandle | pvarHandle | pvarSession | eventRegistration | eventInstance
deriving DecidableEq, Repr

/-- The bits of an implementation's tool constants. -/
structure ToolImpl where
  null : ToolClass → UInt64
  pvarAllHandles : UInt64

def toolPredefLast : UInt64 := 1

/-- `mpiwrapper_t_<class>_toabi`. The handles of events keep their bits. -/
def toolToabi (impl : ToolImpl) (c : ToolClass) (bits : UInt64) (handleError : Bool) :
    UInt64 × Bool :=
  match c with
  | .eventRegistration | .eventInstance => (bits, handleError)
  | _ =>
      if bits = impl.null c then (0, handleError)
      else if c = .pvarHandle ∧ bits = impl.pvarAllHandles then (1, handleError)
      else if bits ≤ toolPredefLast then (0, true)
      else (bits, handleError)

inductive UpClass
  | handle (c : HandleClass)
  | tool (c : ToolClass)
deriving DecidableEq, Repr

structure UpImpl where
  maps : Rmaps
  tool : ToolImpl

/-- An object of the implementation's, by its class and its bits. -/
abbrev Object := UpClass × UInt64

def upToabi (impl : UpImpl) : UpClass → UInt64 → Bool → UInt64 × Bool
  | .handle c, bits, handleError => handleToabi impl.maps c bits handleError
  | .tool c, bits, handleError => toolToabi impl.tool c bits handleError

/-- Handles one after the other: what becomes of them, and of the flag. -/
def upAll (impl : UpImpl) : List Object → Bool → List UInt64 × Bool
  | [], handleError => ([], handleError)
  | (c, bits) :: rest, handleError =>
      let (abi, handleError) := upToabi impl c bits handleError
      let (abis, handleError) := upAll impl rest handleError
      (abi :: abis, handleError)

/-- A conversion meets the reserved window: it raises a flag that was down. -/
def hits (impl : UpImpl) (o : Object) : Prop := (upToabi impl o.1 o.2 false).2 = true

instance (impl : UpImpl) (o : Object) : Decidable (hits impl o) :=
  inferInstanceAs (Decidable (_ = true))

/-- One of the implementation's constants. -/
def UpImpl.predefined (impl : UpImpl) : Object → Prop
  | (.handle c, bits) => (rmapLookup (impl.maps c) bits).isSome
  | (.tool .eventRegistration, _) | (.tool .eventInstance, _) => False
  | (.tool c, bits) =>
      bits = impl.tool.null c ∨ c = .pvarHandle ∧ bits = impl.tool.pvarAllHandles

instance (impl : UpImpl) : DecidablePred impl.predefined
  | (.handle _, _) => inferInstanceAs (Decidable (_ = true))
  | (.tool .eventRegistration, _) | (.tool .eventInstance, _) => inferInstanceAs (Decidable False)
  | (.tool .enum, _) | (.tool .cvarHandle, _) | (.tool .pvarHandle, _)
  | (.tool .pvarSession, _) => inferInstanceAs (Decidable (_ ∨ _))

/-! ## Calls and callbacks -/

/-- The functions that an implementation calls back (callbacks.c, extrastate.c,
toolevents.c). -/
inductive Trampoline
  | op | opC | opCa
  | commErrh | fileErrh | winErrh | sessionErrh
  | commCopy | commDelete | typeCopy | typeDelete | winCopy | winDelete
  | grequestQuery | grequestFree | grequestCancel
  | datarepExtent | datarepRead | datarepWrite | datarepReadC | datarepWriteC
  | eventCb | eventDropped | eventFree
deriving DecidableEq, Repr

/-- The handles a trampoline converts for the user's function. -/
def Trampoline.classes : Trampoline → List UpClass
  | .op | .opC | .opCa => [.handle .datatype]
  | .commErrh | .commCopy | .commDelete => [.handle .comm]
  | .fileErrh => [.handle .file]
  | .winErrh | .winCopy | .winDelete => [.handle .win]
  | .sessionErrh => [.handle .session]
  | .typeCopy | .typeDelete => [.handle .datatype]
  | .grequestQuery | .grequestFree | .grequestCancel => []
  | .datarepExtent | .datarepRead | .datarepWrite | .datarepReadC | .datarepWriteC =>
      [.handle .datatype]
  | .eventCb => [.tool .eventInstance, .tool .eventRegistration]
  | .eventDropped | .eventFree => [.tool .eventRegistration]

/-- How a body leaves. Wherever one converts a handle it takes the flag on the
same path. -/
inductive Exit
  /-- Without looking at the flag: refused before its call, failed where there
  is nothing to convert, or a body that returns no handle. -/
  | plain
  /-- After converting these handles, of which a failed call leaves none. -/
  | took (handles : List Object)
deriving DecidableEq, Repr

inductive Frame
  | body
  | callback (t : Trampoline)
deriving DecidableEq, Repr

/-- A wrapper call that has returned: whether it reported the flag, and whether
a conversion of its own met the reserved window. -/
structure CallReport where
  reported : Bool
  own : Bool
deriving DecidableEq, Repr

/-- The flag, the frames from the innermost outwards, and the calls that have
returned; the objects that the application has been given handles of, and those
that the implementation alone has. -/
structure FlagState where
  handleError : Bool
  frames : List Frame
  reports : List CallReport
  held : List Object
  unheld : List Object
deriving DecidableEq, Repr

/-- The application, or a callback of its, calls a wrapper; the implementation
makes an object for itself; a trampoline is called with these handles, and
returns; the innermost wrapper returns. -/
inductive FlagAct
  | enter
  | make (o : Object)
  | callback (t : Trampoline) (bits : List UInt64)
  | ret
  | leave (exit : Exit)
deriving DecidableEq, Repr

def Trampoline.handles (t : Trampoline) (bits : List UInt64) : List Object :=
  t.classes.zip bits

namespace FlagState

def init : FlagState := ⟨false, [], [], [], []⟩

/-- An object that there is. -/
def known (impl : UpImpl) (s : FlagState) (o : Object) : Prop :=
  o ∈ s.held ∨ o ∈ s.unheld ∨ impl.predefined o

instance (impl : UpImpl) (s : FlagState) : DecidablePred (s.known impl) :=
  fun _ => inferInstanceAs (Decidable (_ ∨ _))

/-- A body from its function's return on. What has collided is not returned. -/
def leave (impl : UpImpl) (s : FlagState) (rest : List Frame) : Exit → FlagState
  | .plain => { s with frames := rest, reports := s.reports ++ [⟨false, false⟩] }
  | .took handles =>
      let (reported, handleError) := takeHandleError (upAll impl handles s.handleError).2
      { handleError, frames := rest
        reports := s.reports ++ [⟨reported, handles.any fun o => hits impl o⟩]
        held := s.held ++ handles.filter fun o => ¬ hits impl o
        unheld := s.unheld ++ handles.filter fun o => hits impl o }

def step (impl : UpImpl) (s : FlagState) : FlagAct → Option FlagState
  | .enter =>
      match s.frames with
      | .body :: _ => none
      | frames => some { s with frames := .body :: frames }
  | .make o =>
      match s.frames with
      | .callback _ :: _ => none
      | _ => some { s with unheld := s.unheld ++ [o] }
  | .callback t bits =>
      if bits.length = t.classes.length ∧ ∀ o, o ∈ t.handles bits → s.known impl o then
        some { s with
          handleError := (upAll impl (t.handles bits) s.handleError).2
          frames := .callback t :: s.frames }
      else none
  | .ret =>
      match s.frames with
      | .callback _ :: rest => some { s with frames := rest }
      | _ => none
  | .leave exit =>
      match s.frames with
      | .body :: rest => some (s.leave impl rest exit)
      | _ => none

end FlagState

/-- No object of the implementation's alone that a trampoline is called for meets
the reserved window. -/
def callbackClear (impl : UpImpl) (s : FlagState) : FlagAct → Prop
  | .callback t bits => ∀ o, o ∈ t.handles bits → o ∈ s.unheld → ¬ hits impl o
  | _ => True

end AbiWrapper.Ref
