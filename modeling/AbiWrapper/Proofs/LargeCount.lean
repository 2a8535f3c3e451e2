import AbiWrapper.Lib.Lists
import AbiWrapper.Proofs.FallbackOutputs
import AbiWrapper.Proofs.Significance
import AbiWrapper.Ref.LargeCounts

/-!
# A fallback agrees with the twin's own body

Over an implementation that has `MPI_X` alone, `MPI_X_c` is to do what `MPI_X`
does for the same arguments if they fit its types, and nothing if they do not.
Whether it does is decided by the two parameter lists, entry point by entry
point: by what the gate answers, and by the lengths of the copies.

The one length that is not the standard's is that of `MPI_Reduce_scatter`'s
counts. On an intercommunicator the fallback copies as many as the remote group
has processes, and the implementation reads as many as the local group has.
-/

namespace AbiWrapper.Ref

open AbiWrapper.Lib

variable {r : LargeCount} {lp : LargeParam} {ap q : GenParam} {env : GenEnv}
  {args : CallerArgs}

/-! ## Agreement -/

/-- What is narrowed fits: of an array, the entries that are significant. -/
def LargeParam.fits (lp : LargeParam) (env : GenEnv) (args : CallerArgs) : Bool :=
  match lp.small with
  | none => true
  | some ap =>
      ap.type = lp.large.type ||
        match ap.shape, ap.direction with
        | .value, _ => (ap.narrow env.aintBytes).fits (args.value ap.name)
        | .pointer, .inout => (ap.narrow env.aintBytes).fits (args.memory ap.name 0)
        | .pointer, _ => true
        | .array, _ =>
            (List.range (ap.entriesRead env.comm args)).all fun i =>
              (ap.narrow env.aintBytes).fits (args.memory ap.name i)

def LargeCount.fits (r : LargeCount) (env : GenEnv) (args : CallerArgs) : Bool :=
  r.params.all fun lp => lp.fits env args

/-- Lengths are not negative, extent queries and allocations succeed, and a root
that arrays depend on is proper. -/
structure LargeCount.Granted (r : LargeCount) (env : GenEnv) (args : CallerArgs) : Prop where
  lengths : ∀ p, p ∈ r.large → ∀ param, p.length = some (.param param) → 0 ≤ args.value param
  queries : ∀ p, p ∈ r.large → ∀ e, p.named = some e → ∀ v, e.asks = some v →
    ∃ n, env.ask args v = .ok n
  root : ∀ p, p ∈ r.large → p.significant = some .atRoot →
    properRoot env.ranks (args.value "root")
  stage : ∀ x, env.stage x = true
  keep : env.keep = true

/-- If all values fit, one call, which is the twin's own body's, and after a call
that succeeded the twin's code and outputs. If one does not fit, no call. -/
def LargeCount.Agrees (r : LargeCount) (env : GenEnv) (args : CallerArgs) : Prop :=
  ∃ b, r.fallback = some b ∧
    (r.fits env args = true → ∃ c, c.function = r.twin ∧ ∀ target stack twinStack,
      (b.run env args target stack).calls = [c] ∧
        (r.twinBody.run env args target twinStack).calls = [c] ∧
        ((target c).ierror = 0 → (∀ ap, ap ∈ r.small → ap.AnsweredBy env args (target c)) →
          (b.run env args target stack).code = (r.twinBody.run env args target twinStack).code ∧
            ∀ ap, ap ∈ r.small → ∀ i, (b.run env args target stack).memory ap.name i =
              (r.twinBody.run env args target twinStack).memory ap.name i)) ∧
    (r.fits env args = false → ∀ target stack,
      (b.run env args target stack).calls = [] ∧
        (b.run env args target stack).code = abiErrValueTooLarge ∧
        (b.run env args target stack).left = [])

/-! ## One parameter -/

namespace LargeParam

/-- What the gate answers. -/
def derived (lp : LargeParam) : GenParam :=
  match lp.small with
  | none => largeOnlyParam lp.large
  | some ap => (fallbackParam lp.large ap).getD lp.large

/-- The length of an array that is staged is known, and is not one of the names
of a table. -/
def sized (p : GenParam) : Bool :=
  !p.isStaged ||
    match p.named, p.length with
    | some (.length _), _ => false
    | some _, _ => true
    | none, some (.param _) => true
    | none, _ => false

/-- The gate lets the parameter through, and the two prototypes agree on it but
for the type. -/
def sound (lp : LargeParam) : Bool :=
  match lp.small with
  | none => true
  | some ap =>
      (fallbackParam lp.large ap).isSome &&
        decide (ap = { lp.large with type := ap.type, named := ap.named }) &&
        lp.large.cls.isPrimary && (!lp.large.isStaged || ap.named = lp.large.named) &&
        ap.settles && sized lp.derived

theorem derived_largeOnly (h : lp.small = none) : lp.derived = largeOnlyParam lp.large := by
  simp only [derived, h]

/-- What soundness says of a parameter that both prototypes have. -/
theorem sound_small (hs : lp.sound = true) (h : lp.small = some ap) :
    fallbackParam lp.large ap = some lp.derived ∧
      ap = { lp.large with type := ap.type, named := ap.named } ∧
      lp.large.cls.isPrimary = true ∧ (lp.large.isStaged = true → ap.named = lp.large.named) ∧
      ap.settles = true ∧ sized lp.derived = true := by
  simp only [sound, h, Bool.and_eq_true, decide_eq_true_eq, Bool.or_eq_true,
    Bool.not_eq_true'] at hs
  obtain ⟨⟨⟨⟨⟨hsome, hap⟩, hp⟩, hn⟩, hset⟩, hsz⟩ := hs
  obtain ⟨q, hq⟩ := Option.isSome_iff_exists.mp hsome
  refine ⟨?_, hap, hp, fun hst => ?_, hset, hsz⟩
  · simp only [derived, h, hq]
    rfl
  · rcases hn with hn | hn
    · rw [hst] at hn
      exact nomatch hn
    · exact hn

theorem derived_of (hs : lp.sound = true) (h : lp.small = some ap) : FallbackOf ap lp.derived := by
  obtain ⟨hq, hap, hp, hn, _, _⟩ := sound_small hs h
  exact fallbackParam_of hq hap hp hn

/-- What the generator's tables and the standard have for it is kept. -/
theorem derived_tables (hs : lp.sound = true) :
    lp.derived.named = lp.large.named ∧ lp.derived.length = lp.large.length ∧
      lp.derived.significant = lp.large.significant := by
  cases h : lp.small with
  | none =>
      rw [derived_largeOnly h, largeOnlyParam]
      split <;> exact ⟨rfl, rfl, rfl⟩
  | some ap =>
      obtain ⟨cls, hq, _⟩ := fallbackParam_cases (sound_small hs h).1
      rw [hq]
      exact ⟨rfl, rfl, rfl⟩

theorem largeOnly_cls (h : lp.small = none) :
    lp.derived.cls = .largeOnlyZero ∨ lp.derived.cls = .largeOnlyVoid := by
  rw [derived_largeOnly h, largeOnlyParam]
  split
  · exact .inl rfl
  · exact .inr rfl

theorem sized_derived (hs : lp.sound = true) (hst : lp.derived.isStaged = true) :
    sized lp.derived = true := by
  cases h : lp.small with
  | none =>
      rcases largeOnly_cls h with hc | hc <;> simp [GenParam.isStaged, hc] at hst
  | some ap => exact (sound_small hs h).2.2.2.2.2

end LargeParam

theorem granted_derived (hg : r.Granted env args) (hmem : lp ∈ r.params) (hs : lp.sound = true) :
    lp.derived.Granted env args := by
  have hlarge : lp.large ∈ r.large := List.mem_map_of_mem hmem
  obtain ⟨hnamed, hlength, _⟩ := LargeParam.derived_tables hs
  refine ⟨fun hst param he => ?_, fun hst v he => ?_⟩
  · have hsz := LargeParam.sized_derived hs hst
    cases hn : lp.derived.named with
    | some e =>
        rw [GenParam.extent, GenParam.arrayExtent, hn] at he
        obtain rfl : e = .length param := he
        simp [LargeParam.sized, hst, hn] at hsz
    | none =>
        cases hl : lp.derived.length with
        | none => simp [LargeParam.sized, hst, hn, hl] at hsz
        | some l =>
            cases l with
            | star => simp [LargeParam.sized, hst, hn, hl] at hsz
            | param x =>
                rw [GenParam.extent, GenParam.arrayExtent, hn, hl] at he
                obtain rfl : x = param := GenExtent.length.inj he
                exact hg.lengths _ hlarge x (hlength ▸ hl)
  · cases hn : lp.derived.named with
    | some e =>
        rw [GenParam.extent, GenParam.arrayExtent, hn] at he
        exact hg.queries _ hlarge e (hnamed ▸ hn) v he
    | none =>
        rw [GenParam.extent, GenParam.arrayExtent, hn] at he
        cases hl : lp.derived.length with
        | none => rw [hl] at he; exact nomatch he
        | some l => cases l <;> rw [hl] at he <;> exact nomatch he

theorem FallbackOf.granted (h : FallbackOf ap q) (hg : q.Granted env args) :
    ap.Granted env args := by
  have hunstaged : ap.isStaged = false → ap.Granted env args := by
    intro hst
    refine ⟨fun h => ?_, fun h => ?_⟩ <;>
      · rw [hst] at h
        exact nomatch h
  cases h with
  | same named hs _ =>
      cases hst : ap.isStaged with
      | false => exact hunstaged hst
      | true =>
          rw [hs hst] at hg
          exact hg
  | arrayNarrowIn named hc _ _ => exact hunstaged (by simp [GenParam.isStaged, hc])
  | narrowIn named hc _ => exact hunstaged (by simp [GenParam.isStaged, hc])
  | widenOut named hc _ _ | narrowInout named hc _ _ =>
      exact hunstaged (by simp [GenParam.isStaged, hc])

theorem fits_of_primary (h : ap.cls.isPrimary = true) : ap.fits env args = true := by
  cases hc : ap.cls with
  | narrowIn | narrowInout | arrayNarrowIn => rw [hc] at h; exact nomatch h
  | _ => simp only [GenParam.fits, hc]

theorem fits_copied (hc : ap.cls = .arrayNarrowIn) : ap.fits env args =
    (List.range (ap.entries env args)).all fun i =>
      (ap.narrow env.aintBytes).fits (args.memory ap.name i) := by
  simp only [GenParam.fits, hc]

/-- The copy of an array is as long as its significant part. -/
def LargeParam.copied (lp : LargeParam) (env : GenEnv) (args : CallerArgs) : Prop :=
  lp.derived.cls = .arrayNarrowIn →
    lp.derived.entries env args = lp.derived.entriesRead env.comm args

/-- Then the body refuses what does not fit. -/
theorem derived_fits (hs : lp.sound = true) (hlen : lp.copied env args) :
    lp.derived.fits env args = lp.fits env args := by
  cases h : lp.small with
  | none =>
      have hf : lp.fits env args = true := by simp only [LargeParam.fits, h]
      rw [hf]
      rcases LargeParam.largeOnly_cls h with hc | hc <;> simp only [GenParam.fits, hc]
  | some ap =>
      obtain ⟨hq, hap, hp, _, _, _⟩ := LargeParam.sound_small hs h
      have htype := fallbackParam_primary hq hap hp
      have hof := LargeParam.derived_of hs h
      simp only [LargeParam.fits, h]
      by_cases hty : ap.type = lp.large.type
      · rw [fits_of_primary (htype.mpr hty)]
        simp [hty]
      · have hnot : lp.derived.cls.isPrimary ≠ true := fun hp => hty (htype.mp hp)
        simp only [LargeParam.copied] at hlen
        generalize lp.derived = q at hof hnot hlen
        cases hof with
        | same named hst hprim => exact absurd hprim hnot
        | arrayNarrowIn named hc ha hd =>
            rw [fits_copied rfl, hlen rfl]
            simp only [ha, hty, decide_false, Bool.false_or]
            rfl
        | narrowIn named hc hv =>
            simp only [GenParam.fits, hv, hty, decide_false, Bool.false_or]
            rfl
        | widenOut named hc hptr hd =>
            have hsh : ap.shape = .pointer := by simpa [GenParam.isPointer] using hptr
            simp only [GenParam.fits, hsh, hd, hty, decide_false, Bool.false_or]
        | narrowInout named hc hptr hd =>
            have hsh : ap.shape = .pointer := by simpa [GenParam.isPointer] using hptr
            simp only [GenParam.fits, hsh, hd, hty, decide_false, Bool.false_or]
            rfl

/-! ## One entry point -/

namespace LargeCount

def derived (r : LargeCount) : GenBody := ⟨r.twin, r.params.map (·.derived)⟩

/-- The generator makes the body, parameter by parameter. -/
def sound (r : LargeCount) : Bool :=
  decide (assignFallback r.large r.small = some r.derived.params) &&
    r.params.all (·.sound) &&
    decide (r.derived.params.map (·.name)).Nodup && decide (r.small.map (·.name)).Nodup &&
    (!stagesPastReturn r.derived.params || r.derived.params.all (·.endures)) &&
    (!stagesPastReturn r.small || r.small.all (·.endures))

theorem sound_params (hs : r.sound = true) (hmem : lp ∈ r.params) : lp.sound = true := by
  simp only [sound, Bool.and_eq_true, List.all_eq_true] at hs
  exact hs.1.1.1.1.2 lp hmem

theorem sound_fallback (hs : r.sound = true) : r.fallback = some r.derived := by
  simp only [sound, Bool.and_eq_true, decide_eq_true_eq] at hs
  simp only [fallback, hs.1.1.1.1.1]
  rfl

theorem sound_names (hs : r.sound = true) :
    (r.derived.params.map (·.name)).Nodup ∧ (r.small.map (·.name)).Nodup := by
  simp only [sound, Bool.and_eq_true, decide_eq_true_eq] at hs
  exact ⟨hs.1.1.1.2, hs.1.1.2⟩

theorem sound_endures (hs : r.sound = true) :
    (stagesPastReturn r.derived.params = true → ∀ p, p ∈ r.derived.params → p.endures = true) ∧
      (stagesPastReturn r.small = true → ∀ p, p ∈ r.small → p.endures = true) := by
  simp only [sound, Bool.and_eq_true, Bool.or_eq_true, Bool.not_eq_true', List.all_eq_true] at hs
  refine ⟨fun hst p hp => ?_, fun hst p hp => ?_⟩
  · rcases hs.1.2 with h | h
    · rw [hst] at h
      exact nomatch h
    · exact h p hp
  · rcases hs.2 with h | h
    · rw [hst] at h
      exact nomatch h
    · exact h p hp

end LargeCount

theorem mem_small : ap ∈ r.small ↔ ∃ lp, lp ∈ r.params ∧ lp.small = some ap := by
  simp [LargeCount.small]

theorem mem_derived (hmem : lp ∈ r.params) : lp.derived ∈ r.derived.params :=
  List.mem_map_of_mem hmem

/-! ### The call -/

/-- An argument beside the name of its parameter. -/
def labelled (env : GenEnv) (args : CallerArgs) (p : GenParam) : Option (String × CallArg) :=
  (p.argument env args).map fun arg => (p.name, arg)

theorem labelled_isSome (hs : lp.sound = true) :
    (labelled env args lp.derived).isSome = (lp.small.bind (labelled env args)).isSome := by
  cases h : lp.small with
  | none =>
      rcases LargeParam.largeOnly_cls h with hc | hc <;>
        simp [labelled, GenParam.argument, hc]
  | some ap =>
      obtain ⟨hq, hap⟩ := @FallbackOf.argument_isSome _ _ env args (LargeParam.derived_of hs h)
      simp [labelled, hq, hap]

/-- What is passed on for the two parameters is the same, up to the length. -/
theorem labelled_eq_iff (hs : lp.sound = true) :
    labelled env args lp.derived = lp.small.bind (labelled env args) ↔ lp.copied env args := by
  cases h : lp.small with
  | none =>
      rcases LargeParam.largeOnly_cls h with hc | hc <;>
        simp [labelled, GenParam.argument, LargeParam.copied, hc]
  | some ap =>
      have hof := LargeParam.derived_of hs h
      have hread : lp.derived.entriesRead env.comm args = ap.entriesRead env.comm args := by
        rw [GenParam.entriesRead, (LargeParam.derived_tables hs).2.2,
          (LargeParam.sound_small hs h).2.1]
        rfl
      simp only [LargeParam.copied, hread]
      constructor
      · intro heq hc
        by_contra hlen
        refine hof.argument_ne hc hlen ?_
        have hargs := congrArg (Option.map Prod.snd) heq
        simpa [labelled, Function.comp_def] using hargs
      · intro hlen
        simp only [labelled, Option.bind_some, hof.argument_eq hlen, hof.name_eq]

/-- The fallback's call is the one that the twin's own body would make. -/
theorem call_eq_iff (hs : r.sound = true) :
    r.derived.call env args = r.twinBody.call env args ↔
      ∀ lp, lp ∈ r.params → lp.copied env args := by
  have hfallback : (r.derived.call env args).args =
      r.params.filterMap fun lp => labelled env args lp.derived := by
    simp only [GenBody.call, LargeCount.derived, List.filterMap_map]
    rfl
  have htwin : (r.twinBody.call env args).args =
      r.params.filterMap fun lp => lp.small.bind (labelled env args) := by
    simp only [GenBody.call, LargeCount.twinBody, LargeCount.small, List.filterMap_filterMap]
    rfl
  have hargs : r.derived.call env args = r.twinBody.call env args ↔
      (r.derived.call env args).args = (r.twinBody.call env args).args := by
    constructor
    · exact fun h => congrArg GenCall.args h
    · exact fun h => congrArg (GenCall.mk r.twin) h
  rw [hargs, hfallback, htwin, filterMap_eq_iff fun lp hlp =>
    labelled_isSome (LargeCount.sound_params hs hlp)]
  exact forall_congr' fun lp => imp_congr_right fun hlp =>
    labelled_eq_iff (LargeCount.sound_params hs hlp)

/-! ### What is refused -/

theorem granted_params (hs : r.sound = true) (hg : r.Granted env args) :
    ∀ p, p ∈ r.derived.params → p.Granted env args := by
  intro p hp
  obtain ⟨lp, hlp, rfl⟩ := List.mem_map.mp hp
  exact granted_derived hg hlp (LargeCount.sound_params hs hlp)

theorem granted_twin (hs : r.sound = true) (hg : r.Granted env args) :
    ∀ p, p ∈ r.twinBody.params → p.Granted env args := by
  intro ap hap
  obtain ⟨lp, hlp, hsmall⟩ := mem_small.mp hap
  have hlps := LargeCount.sound_params hs hlp
  exact (LargeParam.derived_of hlps hsmall).granted (granted_derived hg hlp hlps)

theorem primary_small (hs : r.sound = true) (hap : ap ∈ r.small) : ap.cls.isPrimary = true := by
  obtain ⟨lp, hlp, hsmall⟩ := mem_small.mp hap
  obtain ⟨_, h, hp, _⟩ := LargeParam.sound_small (LargeCount.sound_params hs hlp) hsmall
  rw [h]
  exact hp

theorem twin_fits (hs : r.sound = true) : r.twinBody.fits env args = true :=
  List.all_eq_true.mpr fun _ hap => fits_of_primary (primary_small hs hap)

theorem fits_of_copied (hs : r.sound = true) (hlen : ∀ lp, lp ∈ r.params → lp.copied env args) :
    r.derived.fits env args = r.fits env args := by
  simp only [GenBody.fits, LargeCount.derived, LargeCount.fits, List.all_map]
  rw [Bool.eq_iff_iff, List.all_eq_true, List.all_eq_true]
  refine forall_congr' fun lp => imp_congr_right fun hlp => ?_
  rw [Function.comp_apply, derived_fits (LargeCount.sound_params hs hlp) (hlen lp hlp)]

/-! ### After the call -/

section Replies

variable {reply : GenReply}

theorem answered_derived (hs : r.sound = true)
    (ha : ∀ ap, ap ∈ r.small → ap.AnsweredBy env args reply) :
    ∀ p, p ∈ r.derived.params → p.AnsweredBy env args reply := by
  intro p hp
  obtain ⟨lp, hlp, rfl⟩ := List.mem_map.mp hp
  cases h : lp.small with
  | none =>
      rcases LargeParam.largeOnly_cls h with hc | hc <;> simp only [GenParam.AnsweredBy, hc]
  | some ap =>
      exact (LargeParam.derived_of (LargeCount.sound_params hs hlp) h).answeredBy
        (ha ap (mem_small.mpr ⟨lp, hlp, h⟩))

/-- A property of outputs that the parameters of the large-count form alone do not
have. -/
theorem any_derived (hs : r.sound = true) {f : GenParam → Bool}
    (hof : ∀ ap q, FallbackOf ap q → f q = f ap)
    (honly : ∀ q : GenParam, q.cls = .largeOnlyZero ∨ q.cls = .largeOnlyVoid → f q = false) :
    r.derived.params.any f = r.small.any f := by
  rw [Bool.eq_iff_iff, List.any_eq_true, List.any_eq_true]
  constructor
  · rintro ⟨q, hq, hf⟩
    obtain ⟨lp, hlp, rfl⟩ := List.mem_map.mp hq
    cases h : lp.small with
    | none =>
        rw [honly _ (LargeParam.largeOnly_cls h)] at hf
        exact nomatch hf
    | some ap =>
        rw [hof ap _ (LargeParam.derived_of (LargeCount.sound_params hs hlp) h)] at hf
        exact ⟨ap, mem_small.mpr ⟨lp, hlp, h⟩, hf⟩
  · rintro ⟨ap, hap, hf⟩
    obtain ⟨lp, hlp, h⟩ := mem_small.mp hap
    rw [← hof ap _ (LargeParam.derived_of (LargeCount.sound_params hs hlp) h)] at hf
    exact ⟨lp.derived, mem_derived hlp, hf⟩

theorem code_agrees {stack twinStack : Stack} (hs : r.sound = true) (hkeep : env.keep = true)
    (ha : ∀ ap, ap ∈ r.small → ap.AnsweredBy env args reply) :
    r.derived.code env args stack (env.answers args reply) (.called 0) =
      r.twinBody.code env args twinStack (env.answers args reply) (.called 0) := by
  have hmakes : r.derived.params.any (·.makesHandle) = r.twinBody.params.any (·.makesHandle) :=
    any_derived hs (fun ap q h => h.makesHandle_eq) fun q hq => by
      rcases hq with hq | hq <;> simp [GenParam.makesHandle, hq]
  have hraised : r.derived.params.any (raisedOf env args (env.answers args reply)) =
      r.twinBody.params.any (raisedOf env args (env.answers args reply)) :=
    any_derived hs (fun ap q h => h.raised_eq) fun q hq => by
      rcases hq with hq | hq <;> simp [raisedOf, hq]
  rw [code_success hkeep (answered_derived hs ha), code_success hkeep ha, hmakes, hraised]

/-- Where the two prototypes have the parameter, it lands the same. -/
theorem landed_agrees (hs : r.sound = true) (hlp : lp ∈ r.params) (h : lp.small = some ap)
    (he : reply.ierror = 0) (ha : ∀ ap, ap ∈ r.small → ap.AnsweredBy env args reply)
    (stack twinStack : Stack) (i : Nat) :
    (r.derived.emit env).leaves env.cv stack args (env.answers args reply)
        (lp.derived.outParam env.aintBytes) i =
      (r.twinBody.emit env).leaves env.cv twinStack args (env.answers args reply)
        (ap.outParam env.aintBytes) i := by
  have hmem : ap ∈ r.small := mem_small.mpr ⟨lp, hlp, h⟩
  have hlps := LargeCount.sound_params hs hlp
  have hof := LargeParam.derived_of hlps h
  have hset : ap.settles = true := (LargeParam.sound_small hlps h).2.2.2.2.1
  have hprim := primary_small hs hmem
  obtain ⟨hendures, hendures'⟩ := LargeCount.sound_endures hs
  rw [leaves_landed i he (fun ho => ?_) (hof.settles hset) (hof.delivered (ha ap hmem) hset),
    leaves_landed i he (fun ho => ?_) (outParam_settles hset hprim)
      (delivered_of (ha ap hmem) hset hprim)]
  · exact hof.landed_eq hset i
  · rw [outlives_emit] at ho
    exact outlives_of_endures (hendures' ho ap hmem)
  · rw [outlives_emit] at ho
    exact outlives_of_endures (hendures ho _ (mem_derived hlp))

end Replies

/-! ### A run -/

/-- The two runs after a call that succeeded. -/
theorem outputs_agree (hs : r.sound = true) (hg : r.Granted env args)
    (hf : r.derived.fits env args = true)
    (hcall : r.derived.call env args = r.twinBody.call env args)
    (target : GenCall → GenReply) (stack twinStack : Stack)
    (he : (target (r.twinBody.call env args)).ierror = 0)
    (ha : ∀ ap, ap ∈ r.small → ap.AnsweredBy env args (target (r.twinBody.call env args))) :
    (r.derived.run env args target stack).code =
        (r.twinBody.run env args target twinStack).code ∧
      ∀ ap, ap ∈ r.small → ∀ i, (r.derived.run env args target stack).memory ap.name i =
        (r.twinBody.run env args target twinStack).memory ap.name i := by
  refine ⟨?_, fun ap hap i => ?_⟩
  · rw [code_of_fits (granted_params hs hg) hg.stage hf,
      code_of_fits (granted_twin hs hg) hg.stage (twin_fits hs), hcall, he]
    exact code_agrees hs hg.keep ha
  · obtain ⟨lp, hlp, h⟩ := mem_small.mp hap
    have hlps := LargeCount.sound_params hs hlp
    have hfind : r.derived.params.find? (fun p => p.name = ap.name) = some lp.derived := by
      rw [← (LargeParam.derived_of hlps h).name_eq]
      exact find?_of_nodup (LargeCount.sound_names hs).1 (mem_derived hlp)
    have hfind' : r.twinBody.params.find? (fun p => p.name = ap.name) = some ap :=
      find?_of_nodup (LargeCount.sound_names hs).2 hap
    rw [memory_of_fits (granted_params hs hg) hg.stage hf,
      memory_of_fits (granted_twin hs hg) hg.stage (twin_fits hs), hfind, hfind', hcall]
    exact landed_agrees hs hlp h he ha stack twinStack i

theorem agrees_of_copied (hs : r.sound = true) (hg : r.Granted env args)
    (hlen : ∀ lp, lp ∈ r.params → lp.copied env args) : r.Agrees env args := by
  have hcall := (call_eq_iff hs).mpr hlen
  have hfits := fits_of_copied hs hlen
  refine ⟨r.derived, LargeCount.sound_fallback hs, fun hf => ?_, fun hf target stack => ?_⟩
  · rw [← hfits] at hf
    refine ⟨r.twinBody.call env args, rfl, fun target stack twinStack => ⟨?_, ?_, ?_⟩⟩
    · rw [calls_of_fits (granted_params hs hg) hg.stage hf, hcall]
    · exact calls_of_fits (granted_twin hs hg) hg.stage (twin_fits hs)
    · exact outputs_agree hs hg hf hcall target stack twinStack
  · rw [← hfits] at hf
    exact run_of_unfit (granted_params hs hg) hg.stage hf

/-- A copy of another length than the implementation reads is a disagreement, but
for a call that is refused, and is to be refused. -/
theorem agrees_iff (hs : r.sound = true) (hg : r.Granted env args) :
    r.Agrees env args ↔
      (∀ lp, lp ∈ r.params → lp.copied env args) ∨
        r.fits env args = false ∧ r.derived.fits env args = false := by
  have hrefuses : r.derived.fits env args = false → ∀ target stack,
      (r.derived.run env args target stack).calls = [] ∧
        (r.derived.run env args target stack).code = abiErrValueTooLarge ∧
        (r.derived.run env args target stack).left = [] :=
    fun hf target stack => run_of_unfit (granted_params hs hg) hg.stage hf
  constructor
  · rintro ⟨b, hb, hfit, hunfit⟩
    obtain rfl : r.derived = b := Option.some.inj ((LargeCount.sound_fallback hs).symm.trans hb)
    let silent : GenCall → GenReply := fun _ => ⟨0, fun _ _ => none⟩
    cases hd : r.derived.fits env args with
    | true =>
        have hcalls := @calls_of_fits _ _ _ silent (fun _ _ => none) (granted_params hs hg)
          hg.stage hd
        cases hf : r.fits env args with
        | true =>
            obtain ⟨c, _, hrun⟩ := hfit hf
            obtain ⟨hc, hc', _⟩ := hrun silent (fun _ _ => none) (fun _ _ => none)
            rw [hcalls] at hc
            rw [calls_of_fits (granted_twin hs hg) hg.stage (twin_fits hs)] at hc'
            exact .inl ((call_eq_iff hs).mp ((List.cons.inj hc).1.trans (List.cons.inj hc').1.symm))
        | false =>
            rw [(hunfit hf silent fun _ _ => none).1] at hcalls
            exact nomatch hcalls
    | false =>
        cases hf : r.fits env args with
        | true =>
            obtain ⟨c, _, hrun⟩ := hfit hf
            have hc := (hrun silent (fun _ _ => none) (fun _ _ => none)).1
            rw [(hrefuses hd silent fun _ _ => none).1] at hc
            exact nomatch hc
        | false => exact .inr ⟨rfl, rfl⟩
  · rintro (hlen | ⟨hf, hd⟩)
    · exact agrees_of_copied hs hg hlen
    · refine ⟨r.derived, LargeCount.sound_fallback hs, fun h => ?_, fun _ => hrefuses hd⟩
      rw [hf] at h
      exact nomatch h

/-! ## Lengths -/

/-- The length that the generator copies is the standard's. -/
def LargeParam.matched (lp : LargeParam) : Bool :=
  match lp.derived.extent, lp.derived.significant with
  | .length param, some (.length param') => param = param'
  | .query .nranks, some .peers => true
  | .query .rootNranks, some .atRoot => true
  | .query .nsendtypes, some .outdegree => true
  | .query .nrecvtypes, some .indegree => true
  | _, _ => false

theorem entries_query {v : ExtentLocal} {n : Nat} (he : q.extent = .query v)
    (hn : env.ask args v = .ok n) : q.entries env args = n := by
  rw [GenParam.entries, he, GenExtent.count, extent_ask, hn]
  rfl

theorem ask_root (hroot : properRoot env.ranks (args.value "root")) :
    env.ask args .rootNranks =
      .ok (if env.comm.atRoot (args.value "root") then env.comm.peers else 0) := by
  rw [GenEnv.ask, env.rank_fromabi]
  exact rootExtent_atRoot hroot

theorem ask_degrees {f : Nat × Nat → Nat} {n : Nat}
    (hn : (neighborExtents env.comm.queries env.errTopology).map f = .ok n) :
    n = f env.comm.degrees := by
  cases hq : neighborExtents env.comm.queries env.errTopology with
  | error ierror => rw [hq] at hn; exact nomatch hn
  | ok degrees =>
      rw [hq] at hn
      obtain rfl := Except.ok.inj hn
      rw [neighborExtents_degrees hq]

theorem copied_of_matched (hs : r.sound = true) (hg : r.Granted env args) (hlp : lp ∈ r.params)
    (hm : lp.matched = true) : lp.copied env args := by
  intro hc
  have hlps := LargeCount.sound_params hs hlp
  have hst : lp.derived.isStaged = true := by simp [GenParam.isStaged, hc]
  have hanswer : ∀ v, lp.derived.extent = .query v → ∃ n, env.ask args v = .ok n :=
    fun v he => (granted_derived hg hlp hlps).answered hst v (by rw [he]; rfl)
  have hread : ∀ s, lp.derived.significant = some s →
      lp.derived.entriesRead env.comm args = s.entries env.comm args := by
    intro s hsig
    rw [GenParam.entriesRead, hsig]
    rfl
  rw [LargeParam.matched] at hm
  split at hm
  · next param param' he hsig =>
      obtain rfl : param = param' := by simpa using hm
      rw [hread _ hsig, GenParam.entries, he]
      rfl
  · next he hsig => rw [hread _ hsig, entries_query he commExtent_peers]; rfl
  · next he hsig =>
      have hroot := hg.root lp.large (List.mem_map_of_mem hlp)
        ((LargeParam.derived_tables hlps).2.2 ▸ hsig)
      rw [hread _ hsig, entries_query he (ask_root hroot)]
      rfl
  · next he hsig =>
      obtain ⟨n, hn⟩ := hanswer _ he
      rw [hread _ hsig, entries_query he hn, ask_degrees hn]
      rfl
  · next he hsig =>
      obtain ⟨n, hn⟩ := hanswer _ he
      rw [hread _ hsig, entries_query he hn, ask_degrees hn]
      rfl
  · cases hm

/-! ## The entry points -/

/-- The type is another, and something is narrowed. -/
def LargeParam.narrows (lp : LargeParam) : Bool :=
  match lp.derived.cls with
  | .narrowIn | .narrowInout | .arrayNarrowIn => true
  | _ => false

/-- `MPI_Reduce_scatter` in its three forms. -/
def reduceScatters : List String :=
  ["MPI_Reduce_scatter", "MPI_Ireduce_scatter", "MPI_Reduce_scatter_init"]

theorem largeCounts_sound : ∀ r, r ∈ largeCounts → r.sound = true := by
  decide +kernel

/-- All other copies are as long as the standard has them. -/
theorem largeCounts_matched : ∀ r, r ∈ largeCounts → r.twin ∉ reduceScatters →
    (r.params.all fun lp => lp.derived.cls ≠ .arrayNarrowIn || lp.matched) = true := by
  decide +kernel

theorem reduceScatters_narrow : ∀ r, r ∈ largeCounts → r.twin ∈ reduceScatters →
    r.params.filter (·.narrows) = [.counts "recvcounts" .nranks .localSize] := by
  decide +kernel

section Narrowing

/-- What is not narrowed is not copied, and fits. -/
theorem not_narrows (h : lp.narrows = false) :
    lp.copied env args ∧ lp.derived.fits env args = true := by
  cases hc : lp.derived.cls with
  | narrowIn | narrowInout | arrayNarrowIn => simp [LargeParam.narrows, hc] at h
  | _ =>
      refine ⟨fun h => ?_, by simp only [GenParam.fits, hc]⟩
      rw [hc] at h
      cases h

variable {only : LargeParam}

theorem only_mem (hf : r.params.filter (·.narrows) = [only]) : only ∈ r.params :=
  (List.mem_filter.mp (hf ▸ List.mem_singleton_self only)).1

theorem eq_only (hf : r.params.filter (·.narrows) = [only]) (hlp : lp ∈ r.params)
    (hn : lp.narrows = true) : lp = only := by
  have hmem : lp ∈ r.params.filter (·.narrows) := List.mem_filter.mpr ⟨hlp, hn⟩
  rw [hf] at hmem
  exact List.mem_singleton.mp hmem

/-- An entry point that narrows one parameter is about that parameter. -/
theorem copied_only (hf : r.params.filter (·.narrows) = [only]) :
    (∀ lp, lp ∈ r.params → lp.copied env args) ↔ only.copied env args := by
  constructor
  · exact fun h => h only (only_mem hf)
  · intro h lp hlp
    cases hn : lp.narrows with
    | false => exact (not_narrows hn).1
    | true => rwa [eq_only hf hlp hn]

theorem fits_only (hs : r.sound = true) (hf : r.params.filter (·.narrows) = [only]) :
    r.fits env args = only.fits env args ∧
      r.derived.fits env args = only.derived.fits env args := by
  constructor
  · rw [Bool.eq_iff_iff, LargeCount.fits, List.all_eq_true]
    constructor
    · exact fun h => h only (only_mem hf)
    · intro h lp hlp
      cases hn : lp.narrows with
      | false =>
          obtain ⟨hcopied, hfits⟩ := @not_narrows lp env args hn
          rw [← derived_fits (LargeCount.sound_params hs hlp) hcopied, hfits]
      | true => rwa [eq_only hf hlp hn]
  · rw [Bool.eq_iff_iff, GenBody.fits, LargeCount.derived, List.all_map, List.all_eq_true]
    constructor
    · exact fun h => h only (only_mem hf)
    · intro h lp hlp
      cases hn : lp.narrows with
      | false => exact (not_narrows hn).2
      | true =>
          rw [eq_only hf hlp hn]
          exact h

end Narrowing

/-- The counts of `MPI_Reduce_scatter`: as many are copied as there are peers, and
as many read as there are processes in the local group. -/
theorem recvcounts_lengths :
    (LargeParam.counts "recvcounts" .nranks .localSize).derived.entries env args =
        env.comm.peers ∧
      (LargeParam.counts "recvcounts" .nranks .localSize).derived.entriesRead env.comm args =
        env.comm.localSize :=
  ⟨entries_query rfl commExtent_peers, rfl⟩

theorem recvcounts_fits :
    ((LargeParam.counts "recvcounts" .nranks .localSize).fits env args = false ↔
        ∃ i, i < env.comm.localSize ∧ ¬fitsInt (args.memory "recvcounts" i)) ∧
      ((LargeParam.counts "recvcounts" .nranks .localSize).derived.fits env args = false ↔
        ∃ i, i < env.comm.peers ∧ ¬fitsInt (args.memory "recvcounts" i)) := by
  constructor
  · have hfits : (LargeParam.counts "recvcounts" .nranks .localSize).fits env args =
        (List.range env.comm.localSize).all fun i =>
          Narrow.fits .int (args.memory "recvcounts" i) := rfl
    simp [hfits, Narrow.fits]
  · have hfits := @fits_copied (LargeParam.counts "recvcounts" .nranks .localSize).derived env
      args rfl
    rw [hfits, recvcounts_lengths.1]
    have hnarrow : (LargeParam.counts "recvcounts" .nranks .localSize).derived.narrow
        env.aintBytes = .int := rfl
    have hname : (LargeParam.counts "recvcounts" .nranks .localSize).derived.name =
        "recvcounts" := rfl
    simp [hnarrow, hname, Narrow.fits]

theorem recvcounts_copied :
    (LargeParam.counts "recvcounts" .nranks .localSize).copied env args ↔
      ¬(env.comm.isInter = true ∧ env.comm.localSize ≠ env.comm.remoteSize) := by
  have hcls : (LargeParam.counts "recvcounts" .nranks .localSize).derived.cls =
      .arrayNarrowIn := rfl
  simp only [LargeParam.copied, hcls, recvcounts_lengths, forall_const, Communicator.peers]
  cases env.comm.isInter <;> simp [eq_comm]

/-- Where the groups differ in size, both bodies are to refuse a count that does
not fit, and the fallback does if both have it. -/
theorem reduceScatter_agrees_iff (hr : r ∈ largeCounts) (ht : r.twin ∈ reduceScatters)
    (hg : r.Granted env args) :
    r.Agrees env args ↔
      (env.comm.isInter = true → env.comm.localSize ≠ env.comm.remoteSize →
        ∃ i, i < env.comm.localSize ∧ i < env.comm.remoteSize ∧
          ¬fitsInt (args.memory "recvcounts" i)) := by
  have hs := largeCounts_sound r hr
  have hf := reduceScatters_narrow r hr ht
  rw [agrees_iff hs hg, copied_only hf, (fits_only hs hf).1, (fits_only hs hf).2,
    recvcounts_copied, recvcounts_fits.1, recvcounts_fits.2]
  constructor
  · rintro (hsame | ⟨⟨i, hi, hni⟩, ⟨j, hj, hnj⟩⟩) hinter hne
    · exact absurd ⟨hinter, hne⟩ hsame
    · rw [Communicator.peers, if_pos hinter] at hj
      -- The one of the shorter array is an entry of the longer.
      by_cases hshort : env.comm.localSize ≤ env.comm.remoteSize
      · exact ⟨i, hi, by omega, hni⟩
      · exact ⟨j, by omega, hj, hnj⟩
  · intro h
    by_cases hdiffer : env.comm.isInter = true ∧ env.comm.localSize ≠ env.comm.remoteSize
    · obtain ⟨i, hi, hj, hni⟩ := h hdiffer.1 hdiffer.2
      refine .inr ⟨⟨i, hi, hni⟩, ⟨i, ?_, hni⟩⟩
      rwa [Communicator.peers, if_pos hdiffer.1]
    · exact .inl hdiffer

theorem others_agree (hr : r ∈ largeCounts) (ht : r.twin ∉ reduceScatters)
    (hg : r.Granted env args) : r.Agrees env args := by
  have hs := largeCounts_sound r hr
  refine agrees_of_copied hs hg fun lp hlp hc => ?_
  have hm := List.all_eq_true.mp (largeCounts_matched r hr ht) lp hlp
  simp only [hc, ne_eq, not_true, decide_false, Bool.false_or] at hm
  exact copied_of_matched hs hg hlp hm hc

/-- A fallback does what the twin's own body does for the same arguments, and
refuses what does not fit, for every entry point and every argument list, but for
`MPI_Reduce_scatter` on an intercommunicator whose groups differ in size. There
it does so where one of the counts that are both significant and copied does not
fit. -/
theorem large_count_agrees_iff (r : LargeCount) (hr : r ∈ largeCounts) (env : GenEnv)
    (args : CallerArgs) (hg : r.Granted env args) :
    r.Agrees env args ↔
      (r.twin ∈ reduceScatters → env.comm.isInter = true →
        env.comm.localSize ≠ env.comm.remoteSize →
        ∃ i, i < env.comm.localSize ∧ i < env.comm.remoteSize ∧
          ¬fitsInt (args.memory "recvcounts" i)) := by
  by_cases ht : r.twin ∈ reduceScatters
  · rw [reduceScatter_agrees_iff hr ht hg]
    exact ⟨fun h _ => h, fun h => h ht⟩
  · exact iff_of_true (others_agree hr ht hg) fun h => absurd h ht

/-! ## A call -/

/-- An implementation with the ABI's values, and what it is asked about. -/
def plainEnv (comm : Communicator) : GenEnv where
  cv :=
    { fromabi := fun f v =>
        match f with
        | .rank => rankFromabi plainImpl.ranks v
        | _ => v
      toabi := fun _ v => v
      null := fun _ => 0
      abiNull := fun _ => 0
      status := fun _ v _ => v
      field := fun _ v => v
      setField := fun _ _ v => v }
  ranks := plainImpl.ranks
  rank_fromabi := rfl
  aintBytes := 8
  buffer _ p := p
  errors := plainImpl.errors
  errorTable := .empty
  errTopology := 11
  raises _ _ := false
  pending := false
  comm := comm
  ndatatypes := .ok 0
  stage _ := true
  keep := true

def zeroArgs : CallerArgs := ⟨fun _ => 0, fun _ _ => 0, fun _ => false⟩

/-- Every process sends three elements. -/
def threeEach : CallerArgs where
  value name := if name = "sendcount" then 3 else 0
  memory name i := if name = "recvcounts" then 3 else if name = "displs" then 3 * i else 0
  absent _ := false

theorem plain_granted {comm : Communicator} {args : CallerArgs}
    (hlen : ∀ param, 0 ≤ args.value param) (hroot : args.value "root" = 0)
    (h : (r.large.all fun p => p.named.all fun e => e.asks.all fun v =>
      ((plainEnv comm).ask args v).toBool) = true) : r.Granted (plainEnv comm) args where
  lengths _ _ param _ := hlen param
  queries p hp e he v hv := by
    have hok := List.all_eq_true.mp h p hp
    rw [he, Option.all_some, hv, Option.all_some] at hok
    cases hask : (plainEnv comm).ask args v with
    | error ierror => rw [hask] at hok; exact nomatch hok
    | ok n => exact ⟨n, rfl⟩
  root _ _ := by
    rw [hroot]
    exact fun _ h => absurd (show (0 : Int) = abiRoot from h) (by decide)
  stage _ := rfl
  keep := rfl

def gathervC : LargeCount := ⟨"MPI_Gatherv_c", "MPI_Gatherv", gathervParams⟩

/-- A gather at its root, of two processes. -/
theorem gatherv_agrees : gathervC.Agrees (plainEnv ⟨.intra 2 0, .none⟩) threeEach := by
  have hlen : ∀ param, 0 ≤ threeEach.value param := fun param => by
    simp only [threeEach]
    split <;> decide
  exact (large_count_agrees_iff gathervC (by decide +kernel) (plainEnv ⟨.intra 2 0, .none⟩)
    threeEach (plain_granted hlen rfl (by decide))).mpr fun h => absurd h (by decide)

def reduceScatterC : LargeCount :=
  ⟨"MPI_Reduce_scatter_c", "MPI_Reduce_scatter", reduceScatterParams⟩

/-- Two processes, and one on the other side. -/
def twoToOne : Communicator := ⟨.inter 2 1 0, .none⟩

/-- The implementation reads two counts, and gets a copy of one. -/
theorem short_copy_disagrees :
    reduceScatterC ∈ largeCounts ∧ reduceScatterC.Granted (plainEnv twoToOne) zeroArgs ∧
      ¬reduceScatterC.Agrees (plainEnv twoToOne) zeroArgs := by
  have hmem : reduceScatterC ∈ largeCounts := by decide +kernel
  have hg : reduceScatterC.Granted (plainEnv twoToOne) zeroArgs :=
    plain_granted (fun _ => Int.le_refl 0) rfl (by decide)
  refine ⟨hmem, hg, fun h => ?_⟩
  obtain ⟨i, _, _, hni⟩ := (reduceScatter_agrees_iff hmem (by decide) hg).mp h rfl (by decide)
  exact hni (show fitsInt 0 by decide)

end AbiWrapper.Ref
