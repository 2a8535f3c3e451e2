import AbiWrapper.Ref.Fallbacks

/-!
# What the standard makes significant

The other side of `Fallbacks.lean`, and not from the source: which entries of
a caller's arrays, and which arguments, mean anything at a process. A vector
collective has an entry for every process it sends to or receives from, a
rooted one only at its root, and `MPI_IN_PLACE` makes one side of the arguments
mean nothing at all.

An implementation does not look at what is not significant, so two calls are
the same to it when `Call.significant` is.
-/

namespace AbiWrapper.Ref

/-- The processes that a process exchanges data with in a collective on all of
them. -/
def Communicator.peers (comm : Communicator) : Nat :=
  if comm.isInter then comm.remoteSize else comm.localSize

/-- The process is the root. On an intercommunicator the root calls with
`MPI_ROOT`, and no other process does. -/
def Communicator.atRoot (comm : Communicator) (root : Int) : Prop :=
  if comm.isInter then root = abiRoot else (comm.rank : Int) = root

instance (comm : Communicator) (root : Int) : Decidable (comm.atRoot root) :=
  inferInstanceAs (Decidable (ite _ _ _))

/-- The significant entries of an array of counts or displacements. -/
def significantEntries (c : Collective) (comm : Communicator) (root : Int) (p : Param) : Nat :=
  match c with
  | .gatherv | .scatterv => if comm.atRoot root then comm.peers else 0
  | .allgatherv | .alltoallv | .alltoallw => comm.peers
  | .reduceScatter => comm.localSize
  | .neighborAllgatherv | .neighborAlltoallv | .neighborAlltoallw =>
      match p with
      | .sendcounts | .sdispls => comm.degrees.2
      | _ => comm.degrees.1
  | _ => 0

/-- What `MPI_IN_PLACE` as the send buffer makes insignificant. -/
def inPlaceIgnores : Param → Bool
  | .sendcount | .sendcounts | .sdispls | .sendtype | .sendtypes => true
  | _ => false

/-- The scalar counts that are not significant: on the side that is in place,
where a gather does not receive, and where a scatter does not send. -/
def ignoredCount (c : Collective) (comm : Communicator) (args : Args) : Param → Bool
  | .sendcount =>
      ((c.params.any fun p => p = (.sendbuf, .sendbufInplace)) ∧
          args.pointer .sendbuf = abiInPlace) ∨
        (c = .scatter ∧ ¬comm.atRoot (args.number .root))
  | .recvcount =>
      ((c.params.any fun p => p = (.recvbuf, .recvbufInplace)) ∧
          args.pointer .recvbuf = abiInPlace) ∨
        (c = .gather ∧ ¬comm.atRoot (args.number .root))
  | _ => false

/-- A call without the arguments that are ignored. -/
def Call.significant (ignored : Param → Bool) (c : Call) : Call :=
  { c with args := c.args.filter fun a => !ignored a.1 }

/-- What is seen of a body's run: all of it, and of its call what is
significant. -/
def BodyResult.observed (ignored : Param → Bool) (r : BodyResult) : BodyResult :=
  { r with call := r.call.map (Call.significant ignored) }

/-- How many entries of an array a body has read. -/
def entriesRead (log : List (Param × Nat)) (p : Param) : Nat := (log.lookup p).getD 0

end AbiWrapper.Ref
