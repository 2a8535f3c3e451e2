import AbiWrapper.Proofs.Conversion

/-!
# The entries a fallback reads are the significant ones

A vector fallback asks how long the caller's arrays are and converts that many
entries. The rule it asks by is per collective, and it is the standard's rule
for all of them but one: `MPI_Reduce_scatter` has a count for every process of
the local group, and its fallback asks for the remote group's size where there
is one. With more processes on the remote side it reads past the caller's
array, and with fewer it hands on a copy that is too short.
-/

namespace AbiWrapper.Ref

variable {c : Collective} {form : Form} {impl : Impl} {comm : Communicator} {q : CommQueries}
  {heap : Heap} {args : Args} {p : Param}

/-- At its call the body has read the significant entries of every array of
counts or displacements, and it never reads another. -/
def ReadsSignificant (b : Body) (comm : Communicator) (root : Int)
    (run : List (Param × Nat) × Prepared) : Prop :=
  ∀ p, (p, .counts) ∈ b.params →
    entriesRead run.1 p ≤ significantEntries b.coll comm root p ∧
      ∀ c n, run.2 = .call c n → entriesRead run.1 p = significantEntries b.coll comm root p

/-- The communicators on which the two rules differ. -/
def miscounts (c : Collective) (comm : Communicator) : Prop :=
  c = .reduceScatter ∧ comm.isInter ∧ comm.localSize ≠ comm.remoteSize

instance : Decidable (miscounts c comm) := inferInstanceAs (Decidable (_ ∧ _ ∧ _))

/-! ## The lengths -/

theorem fallback_params_nodup : ((fallbackBody c form).params.map Prod.fst).Nodup := by
  cases c <;> cases form <;> decide

theorem mem_fallback_params : (p, .counts) ∈ (fallbackBody c form).params ↔
    (p, .counts) ∈ c.params := by
  cases form <;> simp [fallbackBody, withInfo]

/-- Which question a fallback asks. -/
theorem fallback_extents : (fallbackBody c form).extents impl args q =
    match c with
    | .gatherv | .scatterv =>
        (rootExtent q impl.ranks.root (rankFromabi impl.ranks (args.number .root))).map
          fun n _ => n
    | .allgatherv | .alltoallv | .alltoallw | .reduceScatter => (commExtent q).map fun n _ => n
    | .neighborAllgatherv | .neighborAlltoallv | .neighborAlltoallw =>
        (neighborExtents q (impl.errors.code 11)).map fun n v =>
          match v with
          | .nranks => 0
          | .nsendtypes => n.2
          | .nrecvtypes => n.1
    | _ => .ok fun _ => 0 := by
  cases c <;> cases form <;> rfl

theorem commExtent_peers : commExtent comm.queries = .ok comm.peers :=
  comm.commExtent_queries

theorem rootExtent_atRoot {ranks : ImplRanks} {root : Int} (hroot : properRoot ranks root) :
    rootExtent comm.queries ranks.root (rankFromabi ranks root) =
      .ok (if comm.atRoot root then comm.peers else 0) := by
  have hrank : (comm.rank : Int) = rankFromabi ranks root ↔ (comm.rank : Int) = root := by
    rw [eq_comm, rankFromabi_eq_rank, eq_comm]
  rw [comm.rootExtent_queries]
  cases h : comm.isInter <;>
    simp [Communicator.atRoot, Communicator.peers, h, rankFromabi_eq_root hroot, hrank]

theorem neighborExtents_degrees {errTopology : Int32} {n : Nat × Nat}
    (h : neighborExtents comm.queries errTopology = .ok n) : n = comm.degrees := by
  rw [comm.neighborExtents_queries] at h
  split at h
  · exact nomatch h
  · exact (Except.ok.inj h).symm

/-- The length a fallback converts: the standard's, but for one collective. -/
theorem fallback_extent {len : ExtentVar → Nat} (hp : (p, .counts) ∈ c.params)
    (hroot : properRoot impl.ranks (args.number .root))
    (he : (fallbackBody c form).extents impl args comm.queries = .ok len) :
    len ((fallbackBody c form).extentVar p) =
      if c = .reduceScatter then comm.peers
      else significantEntries c comm (args.number .root) p := by
  rw [fallback_extents] at he
  cases c with
  | gatherv | scatterv =>
      rw [rootExtent_atRoot hroot] at he
      obtain rfl := Except.ok.inj he
      rfl
  | allgatherv | alltoallv | alltoallw | reduceScatter =>
      rw [commExtent_peers] at he
      obtain rfl := Except.ok.inj he
      rfl
  | neighborAllgatherv | neighborAlltoallv | neighborAlltoallw =>
      cases hn : neighborExtents comm.queries (impl.errors.code 11) with
      | error ierror => rw [hn] at he; exact nomatch he
      | ok n =>
          rw [hn] at he
          obtain rfl := Except.ok.inj he
          obtain rfl := neighborExtents_degrees hn
          simp [Collective.params] at hp
          rcases hp with rfl | rfl | rfl | rfl <;> rfl
  | _ => simp [Collective.params] at hp

theorem fallback_rule {root : Int} :
    (if c = .reduceScatter then comm.peers else significantEntries c comm root p) =
      significantEntries c comm root p ↔ ¬miscounts c comm := by
  by_cases hc : c = .reduceScatter
  · subst hc
    simp only [significantEntries, miscounts, Communicator.peers, if_true, true_and]
    cases comm.isInter <;> simp [eq_comm]
  · simp [hc, miscounts]

/-! ## The entries -/

/-- Where the two rules agree, every run reads by both. -/
theorem fallback_readsSignificant (hc : ¬miscounts c comm)
    (hroot : properRoot impl.ranks (args.number .root)) :
    ReadsSignificant (fallbackBody c form) comm (args.number .root)
      ((fallbackBody c form).prepare impl comm.queries heap args) := by
  intro p hp
  have hmem := mem_fallback_params.mp hp
  cases hfit : (fallbackBody c form).scalarsFit args with
  | false =>
      rw [prepare_unfit hfit]
      exact ⟨Nat.zero_le _, nofun⟩
  | true =>
  cases he : (fallbackBody c form).extents impl args comm.queries with
  | error ierror =>
      rw [prepare_query hfit he]
      exact ⟨Nat.zero_le _, nofun⟩
  | ok len =>
  have hext := (fallback_extent hmem hroot he).trans (fallback_rule.mpr hc)
  cases hm : (fallbackBody c form).memoryOk impl heap len with
  | false =>
      rw [prepare_memory hfit he hm]
      exact ⟨Nat.zero_le _, nofun⟩
  | true =>
      rw [prepare_converted hfit he hm]
      show _ ≤ significantEntries c _ _ _ ∧ ∀ _ _, _ → _ = significantEntries c _ _ _
      rw [← hext]
      refine ⟨entriesRead_le, fun call n hcall => ?_⟩
      refine entriesRead_of_ok ?_ hp fallback_params_nodup
      cases hs : (convertParams impl args (fun p => len ((fallbackBody c form).extentVar p))
          (fallbackBody c form).params).2 with
      | ok vals => rfl
      | _ => simp [hs, Body.converted] at hcall

/-- Given plain arguments and memory, `MPI_Reduce_scatter`'s fallback gets to its
call, having read an entry for every peer. -/
theorem reduceScatter_reads {root : Int} :
    ∃ log call n, (fallbackBody .reduceScatter form).prepare impl comm.queries ample
        (plainArgs root) = (log, .call call n) ∧ entriesRead log .recvcounts = comm.peers := by
  have hfit : (fallbackBody .reduceScatter form).scalarsFit (plainArgs root) = true := by
    cases form <;> rfl
  have he : (fallbackBody .reduceScatter form).extents impl (plainArgs root) comm.queries =
      .ok fun _ => comm.peers := by
    rw [fallback_extents, commExtent_peers]
    rfl
  have hstop : (convertParams impl (plainArgs root) (fun _ => comm.peers)
      (fallbackBody .reduceScatter form).params).2.stop = none := by
    rw [convertParams_stop, plainArgs_stop]
  obtain ⟨vals, hvals⟩ := Scan.stop_eq_none.mp hstop
  have hrun := prepare_converted hfit he (ample_memoryOk (b := fallbackBody .reduceScatter form))
  rw [hvals] at hrun
  refine ⟨_, _, _, hrun, ?_⟩
  exact entriesRead_of_ok hstop (mem_fallback_params.mpr (by simp [Collective.params]))
    fallback_params_nodup

/-- Every run of a fallback reads the significant entries, for every content of
the arrays, if and only if it is not `MPI_Reduce_scatter`'s on an
intercommunicator whose groups differ in size. -/
theorem significant_entries_iff (c : Collective) (form : Form) (impl : Impl)
    (comm : Communicator) (root : Int) (hroot : properRoot impl.ranks root) :
    (∀ heap args, args.number .root = root →
      ReadsSignificant (fallbackBody c form) comm root
        ((fallbackBody c form).prepare impl comm.queries heap args)) ↔
      ¬(c = .reduceScatter ∧ comm.isInter ∧ comm.localSize ≠ comm.remoteSize) := by
  constructor
  · rintro h ⟨rfl, hinter, hne⟩
    obtain ⟨log, call, n, hrun, hreads⟩ := @reduceScatter_reads form impl comm root
    have hsig := h ample (plainArgs root) rfl .recvcounts
      (mem_fallback_params.mpr (by simp [Collective.params]))
    rw [hrun] at hsig
    have hreads' : entriesRead log .recvcounts = comm.localSize := hsig.2 call n rfl
    rw [hreads, Communicator.peers, if_pos hinter] at hreads'
    exact hne hreads'.symm
  · rintro h heap args rfl
    exact fallback_readsSignificant h hroot

/-- Two processes, of which the second is the root. -/
def rootPair : Communicator := ⟨.intra 2 1, .none⟩

theorem rootPair_readsSignificant :
    ReadsSignificant (fallbackBody .gatherv .persistent) rootPair 1
      ((fallbackBody .gatherv .persistent).prepare plainImpl rootPair.queries ample
        (plainArgs 1)) :=
  (significant_entries_iff .gatherv .persistent plainImpl rootPair 1
    (fun h => absurd h (by decide))).mpr (by decide) ample (plainArgs 1) rfl

/-- One process, and two on the other side. -/
def oneToTwo : Communicator := ⟨.inter 1 2 0, .none⟩

/-- The caller's array has one count, and a second one is read. -/
theorem oneToTwo_reads_past :
    ¬ReadsSignificant (fallbackBody .reduceScatter .blocking) oneToTwo 0
      ((fallbackBody .reduceScatter .blocking).prepare plainImpl oneToTwo.queries ample
        (plainArgs 0)) := by
  intro h
  have hle : 2 ≤ 1 := (h .recvcounts (by decide)).1
  omega

end AbiWrapper.Ref
