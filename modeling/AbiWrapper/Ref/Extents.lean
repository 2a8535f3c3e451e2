import Mathlib.Logic.Function.Basic
import Mathlib.Tactic.SplitIfs

/-!
# How long a caller's arrays are (extents.c)

A body that converts an array has to know its length, and the length is not an
argument: it is the size of a group or a number of neighbours, which the
implementation is asked for. Each question may fail, and the first failure is
the answer.

`CommQueries` is the implementation's side, one field for each function asked.
`Communicator` is what a communicator is, and `queries` is an implementation
that answers truthfully about it.
-/

namespace AbiWrapper.Ref

/-- `MPI_Topo_test`'s answers; `none` is `MPI_UNDEFINED`. -/
inductive TopoStatus
  | none | cart | graph | distGraph
deriving DecidableEq, Repr

/-- What the implementation answers about one communicator, at one process. -/
structure CommQueries where
  testInter : Except Int32 Bool
  size : Except Int32 Nat
  remoteSize : Except Int32 Nat
  rank : Except Int32 Nat
  topoTest : Except Int32 TopoStatus
  cartdimGet : Except Int32 Nat
  graphNeighborsCount : Nat → Except Int32 Nat
  /-- The indegree and the outdegree. -/
  distGraphNeighborsCount : Except Int32 (Nat × Nat)

def commExtent (q : CommQueries) : Except Int32 Nat := do
  if ← q.testInter then q.remoteSize else q.size

/-- `mpiwrapper_root_extent`, zero wherever the array is not significant. -/
def rootExtent (q : CommQueries) (mpiRoot root : Int) : Except Int32 Nat := do
  if ← q.testInter then
    if root = mpiRoot then q.remoteSize else pure 0
  else
    let rank ← q.rank
    if (rank : Int) = root then q.size else pure 0

/-- `mpiwrapper_neighbor_extents`: the indegree and the outdegree. -/
def neighborExtents (q : CommQueries) (errTopology : Int32) : Except Int32 (Nat × Nat) := do
  match ← q.topoTest with
  | .cart =>
      let ndims ← q.cartdimGet
      pure (2 * ndims, 2 * ndims)
  | .graph =>
      let rank ← q.rank
      let nneighbors ← q.graphNeighborsCount rank
      pure (nneighbors, nneighbors)
  | .distGraph => q.distGraphNeighborsCount
  | .none => throw errTopology

/-! ## Ranks -/

/-- The implementation's values of the ABI's rank sentinels. -/
structure ImplRanks where
  anySource : Int
  procNull : Int
  root : Int
  undefined : Int
  /-- A sentinel is no rank. -/
  negative : anySource < 0 ∧ procNull < 0 ∧ root < 0 ∧ undefined < 0
  root_ne : root ≠ anySource ∧ root ≠ procNull ∧ root ≠ undefined

def abiAnySource : Int := -1
def abiProcNull : Int := -3
def abiRoot : Int := -4
def abiUndefined : Int := -32766

def rankFromabi (ranks : ImplRanks) (abiRank : Int) : Int :=
  if abiRank = abiAnySource then ranks.anySource
  else if abiRank = abiProcNull then ranks.procNull
  else if abiRank = abiRoot then ranks.root
  else if abiRank = abiUndefined then ranks.undefined
  else abiRank

theorem rankFromabi_eq_rank {ranks : ImplRanks} {abiRank : Int} {rank : Nat} :
    rankFromabi ranks abiRank = rank ↔ abiRank = rank := by
  have hneg := ranks.negative
  simp only [rankFromabi, abiAnySource, abiProcNull, abiRoot, abiUndefined]
  split_ifs <;> omega

/-- A root that is neither a rank nor a sentinel is the caller's error, and
reaches the implementation as it is. Proper is every root that is not taken for
the implementation's `MPI_ROOT` on the way. -/
def properRoot (ranks : ImplRanks) (root : Int) : Prop :=
  root = ranks.root → root ∈ [abiAnySource, abiProcNull, abiRoot, abiUndefined]

theorem rankFromabi_eq_root {ranks : ImplRanks} {root : Int} (h : properRoot ranks root) :
    rankFromabi ranks root = ranks.root ↔ root = abiRoot := by
  have hne := ranks.root_ne
  simp only [properRoot, List.mem_cons, List.not_mem_nil, or_false] at h
  simp only [rankFromabi, abiAnySource, abiProcNull, abiRoot, abiUndefined] at *
  split_ifs <;> omega

/-! ## Communicators -/

inductive CommGroup
  | intra (size rank : Nat)
  | inter (localSize remoteSize rank : Nat)
deriving DecidableEq, Repr

inductive CommTopology
  | none
  | cart (ndims : Nat)
  /-- A graph, with this process's number of neighbours. -/
  | graph (nneighbors : Nat)
  | distGraph (indegree outdegree : Nat)
deriving DecidableEq, Repr

structure Communicator where
  group : CommGroup
  topology : CommTopology
deriving DecidableEq, Repr

namespace Communicator

variable (comm : Communicator)

def isInter : Bool :=
  match comm.group with
  | .intra _ _ => false
  | .inter _ _ _ => true

def localSize : Nat :=
  match comm.group with
  | .intra size _ => size
  | .inter localSize _ _ => localSize

/-- The remote group's size; an intracommunicator has no remote group. -/
def remoteSize : Nat :=
  match comm.group with
  | .intra _ _ => 0
  | .inter _ remoteSize _ => remoteSize

def rank : Nat :=
  match comm.group with
  | .intra _ rank => rank
  | .inter _ _ rank => rank

def topoStatus : TopoStatus :=
  match comm.topology with
  | .none => .none
  | .cart _ => .cart
  | .graph _ => .graph
  | .distGraph _ _ => .distGraph

/-- The numbers of neighbours in and out; none without a topology. -/
def degrees : Nat × Nat :=
  match comm.topology with
  | .none => (0, 0)
  | .cart ndims => (2 * ndims, 2 * ndims)
  | .graph nneighbors => (nneighbors, nneighbors)
  | .distGraph indegree outdegree => (indegree, outdegree)

def ndims : Nat :=
  match comm.topology with
  | .cart ndims => ndims
  | _ => 0

/-- The truth about the communicator. -/
def queries : CommQueries where
  testInter := .ok comm.isInter
  size := .ok comm.localSize
  remoteSize := .ok comm.remoteSize
  rank := .ok comm.rank
  topoTest := .ok comm.topoStatus
  cartdimGet := .ok comm.ndims
  graphNeighborsCount _ := .ok comm.degrees.1
  distGraphNeighborsCount := .ok comm.degrees

theorem commExtent_queries : commExtent comm.queries =
    .ok (if comm.isInter then comm.remoteSize else comm.localSize) := by
  simp only [commExtent, queries]
  cases comm.isInter <;> rfl

theorem rootExtent_queries {mpiRoot root : Int} : rootExtent comm.queries mpiRoot root =
    .ok (if comm.isInter then if root = mpiRoot then comm.remoteSize else 0
      else if (comm.rank : Int) = root then comm.localSize else 0) := by
  simp only [rootExtent, queries]
  cases comm.isInter
  · show (if (comm.rank : Int) = root then _ else _) = Except.ok (if (comm.rank : Int) = root
      then _ else _)
    split <;> rfl
  · show (if root = mpiRoot then _ else _) = Except.ok (if root = mpiRoot then _ else _)
    split <;> rfl

theorem neighborExtents_queries {errTopology : Int32} :
    neighborExtents comm.queries errTopology =
      if comm.topology = .none then .error errTopology else .ok comm.degrees := by
  cases h : comm.topology <;>
    simp [neighborExtents, queries, topoStatus, degrees, ndims, h] <;> rfl

end Communicator

end AbiWrapper.Ref
