import AbiWrapper.Proofs.Significance
import AbiWrapper.Proofs.TwoRuns

/-!
# Arrays that are ignored in place

With `MPI_IN_PLACE` for a send buffer, `MPI_Alltoallv` and `MPI_Alltoallw`
ignore the arrays that describe the send side. An application may pass null
for them, or whatever it likes. The bodies know this for the datatypes; the
counts and the displacements are narrowed all the same.
-/

namespace AbiWrapper.Ref

variable {c : Collective} {form : Form} {impl : Impl} {q : CommQueries} {heap : Heap}
  {target : Call → Reply} {args : Args} {w : World}
  {sendcounts sdispls sendcounts' sdispls' : Nat → Option Int}

/-- The arguments with other send counts and displacements. -/
def withSend (args : Args) (sendcounts sdispls : Nat → Option Int) : Args :=
  { args with counts := fun p =>
      if p = .sendcounts then sendcounts else if p = .sdispls then sdispls else args.counts p }

/-- What is seen of a body's run with these send counts and displacements, over
an implementation that does not look at what is ignored in place. -/
def inPlaceRun (c : Collective) (form : Form) (impl : Impl) (q : CommQueries) (heap : Heap)
    (target : Call → Reply) (args : Args) (w : World) (sendcounts sdispls : Nat → Option Int) :
    Option BodyResult :=
  ((fallbackBody c form).run impl q heap (fun call => target (call.significant inPlaceIgnores))
    (withSend args sendcounts sdispls) w).map (·.observed inPlaceIgnores)

/-- The body gets to convert arrays of `n` entries. -/
def converts (c : Collective) (form : Form) (impl : Impl) (q : CommQueries) (heap : Heap)
    (n : Nat) : Prop :=
  commExtent q = .ok n ∧ (fallbackBody c form).memoryOk impl heap (fun _ => n) = true

/-- Why the conversion of the receive side stops. -/
def recvStop (c : Collective) (args : Args) (n : Nat) : Option Stop :=
  (arrayStop (args.counts .recvcounts) n).or
    ((arrayStop (args.counts .rdispls) n).or
      (if c = .alltoallw then typesStop (args.types .recvtypes) n else none))

/-- Why the whole conversion stops. -/
def inPlaceStop (c : Collective) (args : Args) (n : Nat)
    (sendcounts sdispls : Nat → Option Int) : Option Stop :=
  (arrayStop sendcounts n).or ((arrayStop sdispls n).or (recvStop c args n))

theorem findSome?_cons_or {α β : Type} {f : α → Option β} {a : α} {l : List α} :
    (a :: l).findSome? f = (f a).or (l.findSome? f) := by
  rw [List.findSome?_cons]
  cases f a <;> rfl

theorem inPlace_stop (hc : c = .alltoallv ∨ c = .alltoallw)
    (hin : args.pointer .sendbuf = abiInPlace) {n : Nat} :
    (fallbackBody c form).params.findSome? (paramStop (withSend args sendcounts sdispls)
      fun _ => n) = inPlaceStop c args n sendcounts sdispls := by
  rcases hc with rfl | rfl <;> cases form <;>
    simp [fallbackBody, withInfo, Collective.params, findSome?_cons_or, paramStop, withSend,
      inPlaceStop, recvStop, hin]

theorem convertParam_withSend {n : Nat} {p : Param} {kind : ParamKind}
    (hp : inPlaceIgnores p = false) :
    convertParam impl (withSend args sendcounts sdispls) n p kind =
      convertParam impl (withSend args sendcounts' sdispls') n p kind := by
  have hc : p ≠ .sendcounts := by
    rintro rfl
    exact nomatch hp
  have hd : p ≠ .sdispls := by
    rintro rfl
    exact nomatch hp
  cases kind with
  | counts => simp [convertParam, withSend, hc, hd]
  | _ => rfl

/-- Two contents of the send side look the same if and only if the conversion,
where the body gets to it, stops in the same way. -/
theorem inPlaceRun_eq_iff (hc : c = .alltoallv ∨ c = .alltoallw)
    (hin : args.pointer .sendbuf = abiInPlace) :
    inPlaceRun c form impl q heap target args w sendcounts sdispls =
        inPlaceRun c form impl q heap target args w sendcounts' sdispls' ↔
      ∀ n, converts c form impl q heap n →
        inPlaceStop c args n sendcounts sdispls = inPlaceStop c args n sendcounts' sdispls' := by
  have hfit : ∀ s d, (fallbackBody c form).scalarsFit (withSend args s d) = true := by
    rcases hc with rfl | rfl <;> cases form <;> exact fun _ _ => rfl
  have hext : ∀ s d, (fallbackBody c form).extents impl (withSend args s d) q =
      (commExtent q).map fun n _ => n := by
    rcases hc with rfl | rfl <;> exact fun _ _ => fallback_extents
  cases hq : commExtent q with
  | error ierror =>
      simp only [hq] at hext
      simp only [inPlaceRun, run_query (hfit _ _) (hext _ _)]
      simp [converts, hq]
  | ok n =>
  simp only [hq] at hext
  cases hm : (fallbackBody c form).memoryOk impl heap (fun _ => n) with
  | false =>
      simp only [inPlaceRun, run_memory (hfit _ _) (hext _ _) hm]
      simp [converts, hq, hm]
  | true =>
      simp only [inPlaceRun, run_converted (hfit _ _) (hext _ _) hm]
      rw [conclude_observed_iff fun vals vals' => convertParams_filter
        fun p kind _ hp => by rw [convertParam_withSend hp]]
      rw [convertParams_stop, convertParams_stop, inPlace_stop hc hin, inPlace_stop hc hin]
      simp [converts, hq, hm]

/-! ## Null, and too large -/

theorem arrayStop_first {array : Nat → Option Int} {n : Nat} {stop : Stop} (hn : 0 < n)
    (h : countStop (array 0) = some stop) : arrayStop array n = some stop := by
  obtain ⟨n, rfl⟩ := Nat.exists_eq_succ_of_ne_zero (Nat.ne_of_gt hn)
  rw [arrayStop, List.range_succ_eq_map, List.findSome?_cons, h]

/-- In place, the send counts and displacements are ignored if and only if the
body gets to convert no entry at all: the size of the group cannot be had, or
is zero, or there is no memory for the copies. Two contents look the same
wherever the first entry that stops the conversion, of all arrays in order, is
of one kind under both. -/
theorem in_place_ignored_iff (hc : c = .alltoallv ∨ c = .alltoallw)
    (hin : args.pointer .sendbuf = abiInPlace) :
    ((∀ sendcounts sdispls sendcounts' sdispls',
        inPlaceRun c form impl q heap target args w sendcounts sdispls =
          inPlaceRun c form impl q heap target args w sendcounts' sdispls') ↔
      ¬∃ n, 0 < n ∧ converts c form impl q heap n) ∧
    ∀ sendcounts sdispls sendcounts' sdispls',
      inPlaceRun c form impl q heap target args w sendcounts sdispls =
          inPlaceRun c form impl q heap target args w sendcounts' sdispls' ↔
        ∀ n, converts c form impl q heap n →
          inPlaceStop c args n sendcounts sdispls =
            inPlaceStop c args n sendcounts' sdispls' := by
  refine ⟨⟨?_, ?_⟩, fun _ _ _ _ => inPlaceRun_eq_iff hc hin⟩
  · rintro h ⟨n, hn, hconv⟩
    -- A null array faults where one that is too large is refused.
    have hstop := (inPlaceRun_eq_iff hc hin).mp
      (h (fun _ => none) (fun _ => none) (fun _ => some (2147483648)) fun _ => none) n hconv
    have hnull : arrayStop (fun _ => none) n = some .fault := arrayStop_first hn rfl
    have hlarge : arrayStop (fun _ => some (2147483648)) n = some .tooLarge :=
      arrayStop_first hn rfl
    rw [inPlaceStop, inPlaceStop, hnull, hlarge] at hstop
    exact nomatch hstop
  · intro h s d s' d'
    rw [inPlaceRun_eq_iff hc hin]
    intro n hconv
    obtain rfl : n = 0 := Nat.eq_zero_of_not_pos fun hn => h ⟨n, hn, hconv⟩
    rfl

def inPlaceArgs : Args :=
  { plainArgs 0 with pointer := fun p => if p = .sendbuf then abiInPlace else abiBottom }

theorem rootPair_in_place :
    inPlaceRun .alltoallw .nonblocking plainImpl rootPair.queries ample plainTarget inPlaceArgs
        plainWorld (fun _ => some 0) (fun _ => some 0) =
      inPlaceRun .alltoallw .nonblocking plainImpl rootPair.queries ample plainTarget inPlaceArgs
        plainWorld (fun _ => some 1) (fun _ => some 7) :=
  ((in_place_ignored_iff (.inr rfl) rfl).2 _ _ _ _).mpr fun n hn => by
    obtain rfl : 2 = n := Except.ok.inj hn.1
    decide

/-- Null send counts fault, where an array of zeros is the same call. -/
theorem rootPair_null_faults :
    ¬∀ sendcounts sdispls sendcounts' sdispls',
      inPlaceRun .alltoallv .blocking plainImpl rootPair.queries ample plainTarget inPlaceArgs
          plainWorld sendcounts sdispls =
        inPlaceRun .alltoallv .blocking plainImpl rootPair.queries ample plainTarget inPlaceArgs
          plainWorld sendcounts' sdispls' := by
  intro h
  have hsome := congrArg Option.isSome
    (h (fun _ => none) (fun _ => none) (fun _ => some 0) fun _ => some 0)
  exact absurd hsome (by decide)

end AbiWrapper.Ref
