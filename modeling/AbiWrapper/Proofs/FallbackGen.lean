import AbiWrapper.Ref.FallbackGen

/-!
# What the gate lets through, and how a generated body runs

`fallbackParam` answers in five ways, and what it answers is the twin's
parameter with another class: the two bodies of an entry point differ in
nothing else (`FallbackOf`). Each of the five passes the same argument on, and
after a successful call leaves the same in the caller's memory.

A generated body refuses its arguments for a value that does not fit, if its
lengths, questions and allocations are granted, and for nothing else. It refuses
before its call, and has released its temporaries by then.
-/

namespace AbiWrapper.Ref

variable {p ap q : GenParam} {b : GenBody} {env : GenEnv} {args : CallerArgs}
  {answers : Answers}

/-! ## The gate -/

/-- The classes of a prototype's own parameters. -/
def GenClass.isPrimary : GenClass → Bool
  | .narrowIn | .narrowInout | .widenOut | .arrayNarrowIn | .largeOnlyZero | .largeOnlyVoid =>
      false
  | _ => true

theorem shape_value (hp : p.isPointer = false) (ha : p.isArray = false) : p.shape = .value := by
  cases hs : p.shape with
  | value => rfl
  | pointer => simp [GenParam.isPointer, hs] at hp
  | array => simp [GenParam.isArray, hs] at ha

theorem fallbackParam_cases (h : fallbackParam p ap = some q) :
    ∃ cls, q = { p with type := ap.type, const := ap.const, cls := cls } ∧
      (p.sameBase ap = true ∧ cls = p.cls ∧ p.cls = ap.cls ∨
        p.sameBase ap = false ∧
          (cls = .arrayNarrowIn ∧ ap.cls = .arrayPassthrough ∧ ap.shape = .array ∧
              p.direction = .input ∨
            cls = .narrowIn ∧ ap.cls = .passthrough ∧ ap.isPointer = false ∧
              ap.isArray = false ∨
            cls = .widenOut ∧ ap.cls = .passthrough ∧ ap.isPointer = true ∧
              p.direction = .output ∨
            cls = .narrowInout ∧ ap.cls = .passthrough ∧ ap.isPointer = true ∧
              p.direction = .inout)) := by
  unfold fallbackParam at h
  dsimp only at h
  obtain ⟨_, h⟩ := Option.ite_none_left_eq_some.mp h
  by_cases hbase : p.sameBase ap = true
  · rw [if_pos hbase] at h
    obtain ⟨hc, h⟩ := Option.ite_none_right_eq_some.mp h
    exact ⟨p.cls, (Option.some.inj h).symm, .inl ⟨hbase, rfl, hc⟩⟩
  rw [if_neg hbase] at h
  by_cases harray : p.isArray = true ∨ ap.isArray = true
  · rw [if_pos harray] at h
    obtain ⟨hd, h⟩ := Option.ite_none_left_eq_some.mp h
    obtain ⟨hc, h⟩ := Option.ite_none_left_eq_some.mp h
    obtain ⟨_, h⟩ := Option.ite_none_left_eq_some.mp h
    obtain ⟨_, h⟩ := Option.ite_none_left_eq_some.mp h
    obtain ⟨_, h⟩ := Option.ite_none_left_eq_some.mp h
    obtain ⟨_, h⟩ := Option.ite_none_left_eq_some.mp h
    refine ⟨.arrayNarrowIn, (Option.some.inj h).symm, .inr ⟨by simpa using hbase, .inl ⟨rfl, ?_⟩⟩⟩
    push Not at hd hc
    exact ⟨hc.2, by simpa [GenParam.isArray] using hd.1.2, hd.2⟩
  rw [if_neg harray] at h
  obtain ⟨hc, h⟩ := Option.ite_none_left_eq_some.mp h
  push Not at harray hc
  by_cases hvalue : ¬p.isPointer = true ∧ ¬ap.isPointer = true
  · rw [if_pos hvalue] at h
    obtain ⟨_, h⟩ := Option.ite_none_left_eq_some.mp h
    obtain ⟨_, h⟩ := Option.ite_none_left_eq_some.mp h
    refine ⟨.narrowIn, (Option.some.inj h).symm, .inr ⟨by simpa using hbase, .inr (.inl ?_)⟩⟩
    exact ⟨rfl, hc.2, by simpa using hvalue.2, by simpa using harray.2⟩
  rw [if_neg hvalue] at h
  by_cases hout : p.isPointer = true ∧ ap.isPointer = true ∧ p.direction = .output
  · rw [if_pos hout] at h
    obtain ⟨_, h⟩ := Option.ite_none_left_eq_some.mp h
    refine ⟨.widenOut, (Option.some.inj h).symm,
      .inr ⟨by simpa using hbase, .inr (.inr (.inl ?_))⟩⟩
    exact ⟨rfl, hc.2, hout.2⟩
  rw [if_neg hout] at h
  obtain ⟨hinout, h⟩ := Option.ite_none_right_eq_some.mp h
  obtain ⟨_, h⟩ := Option.ite_none_left_eq_some.mp h
  obtain ⟨_, h⟩ := Option.ite_none_left_eq_some.mp h
  refine ⟨.narrowInout, (Option.some.inj h).symm,
    .inr ⟨by simpa using hbase, .inr (.inr (.inr ?_))⟩⟩
  exact ⟨rfl, hc.2, hinout.2⟩

/-- A parameter of a fallback, beside the twin's. -/
inductive FallbackOf (ap : GenParam) : GenParam → Prop
  | same (named : Option GenExtent) (hs : ap.isStaged = true → named = ap.named)
      (hp : ap.cls.isPrimary = true) : FallbackOf ap { ap with named := named }
  | arrayNarrowIn (named : Option GenExtent) (hc : ap.cls = .arrayPassthrough)
      (ha : ap.shape = .array) (hd : ap.direction = .input) :
      FallbackOf ap { ap with named := named, cls := .arrayNarrowIn }
  | narrowIn (named : Option GenExtent) (hc : ap.cls = .passthrough)
      (hv : ap.shape = .value) : FallbackOf ap { ap with named := named, cls := .narrowIn }
  | widenOut (named : Option GenExtent) (hc : ap.cls = .passthrough) (hp : ap.isPointer = true)
      (hd : ap.direction = .output) :
      FallbackOf ap { ap with named := named, cls := .widenOut }
  | narrowInout (named : Option GenExtent) (hc : ap.cls = .passthrough)
      (hp : ap.isPointer = true) (hd : ap.direction = .inout) :
      FallbackOf ap { ap with named := named, cls := .narrowInout }

/-- What the gate lets through, where the two prototypes agree but for the type. -/
theorem fallbackParam_of (h : fallbackParam p ap = some q)
    (hap : ap = { p with type := ap.type, named := ap.named }) (hp : p.cls.isPrimary = true)
    (hs : p.isStaged = true → ap.named = p.named) : FallbackOf ap q := by
  obtain ⟨cls, rfl, hcls⟩ := fallbackParam_cases h
  have hclass : ap.cls = p.cls := by rw [hap]
  have hdirection : ap.direction = p.direction := by rw [hap]
  have hq : { p with type := ap.type, const := ap.const, cls := cls } =
      { ap with named := p.named, cls := cls } := by
    cases p
    cases ap
    simp_all
  rw [hq]
  rcases hcls with ⟨_, rfl, _⟩ | ⟨_, ⟨rfl, hc, ha, hd⟩ | ⟨rfl, hc, hp, ha⟩ | ⟨rfl, hc, hp, hd⟩ |
    ⟨rfl, hc, hp, hd⟩⟩
  · have hsame : { ap with named := p.named, cls := p.cls } = { ap with named := p.named } := by
      rw [← hclass]
    rw [hsame]
    refine .same p.named (fun hst => ?_) (hclass ▸ hp)
    rw [hs]
    simpa only [GenParam.isStaged, hclass] using hst
  · exact .arrayNarrowIn p.named hc ha (hdirection ▸ hd)
  · exact .narrowIn p.named hc (shape_value hp ha)
  · exact .widenOut p.named hc hp (hdirection ▸ hd)
  · exact .narrowInout p.named hc hp (hdirection ▸ hd)

/-- A class of narrowing is given where the types differ. -/
theorem fallbackParam_primary (h : fallbackParam p ap = some q)
    (hap : ap = { p with type := ap.type, named := ap.named }) (hp : p.cls.isPrimary = true) :
    q.cls.isPrimary = true ↔ ap.type = p.type := by
  have hbase : p.sameBase ap = true ↔ ap.type = p.type := by
    rw [hap]
    simp [GenParam.sameBase, GenParam.isPointer, eq_comm]
  obtain ⟨cls, rfl, hcls⟩ := fallbackParam_cases h
  rw [← hbase]
  rcases hcls with ⟨hb, rfl, _⟩ | ⟨hb, ⟨rfl, _⟩ | ⟨rfl, _⟩ | ⟨rfl, _⟩ | ⟨rfl, _⟩⟩
  · exact iff_of_true hp hb
  all_goals exact iff_of_false (fun h => nomatch h) (by simp [hb])

theorem FallbackOf.name_eq (h : FallbackOf ap q) : q.name = ap.name := by
  cases h <;> rfl

/-! ## Up to the call -/

/-- The length that a parameter gives an array is not negative, and an extent
query has an answer. -/
structure GenParam.Granted (p : GenParam) (env : GenEnv) (args : CallerArgs) : Prop where
  nonneg : p.isStaged = true → ∀ param, p.extent = .length param → 0 ≤ args.value param
  answered : p.isStaged = true → ∀ v, p.extent.asks = some v → ∃ n, env.ask args v = .ok n

def GenParam.fits (p : GenParam) (env : GenEnv) (args : CallerArgs) : Bool :=
  match p.cls with
  | .narrowIn => (p.narrow env.aintBytes).fits (args.value p.name)
  | .narrowInout => (p.narrow env.aintBytes).fits (args.memory p.name 0)
  | .arrayNarrowIn =>
      (List.range (p.entries env args)).all fun i =>
        (p.narrow env.aintBytes).fits (args.memory p.name i)
  | _ => true

def GenBody.fits (b : GenBody) (env : GenEnv) (args : CallerArgs) : Bool :=
  b.params.all fun p => p.fits env args

theorem extent_ask (v : ExtentLocal) : env.extent args v.name =
    match env.ask args v with
    | .ok n => .ok n
    | .error ierror => .error ierror.toInt := by
  cases v <;> rfl

/-- A question that has an answer does not end the body. -/
theorem query_none {reply : GenReply} (hg : p.Granted env args)
    {guard : CallerArgs → Answers → Option BodyExit} (h : guard ∈ p.queries) :
    guard args (env.answers args reply) = none := by
  cases hs : p.isStaged with
  | false => simp [GenParam.queries, hs] at h
  | true =>
      cases hv : p.extent.asks with
      | none => simp [GenParam.queries, hs, hv] at h
      | some v =>
          obtain ⟨n, hn⟩ := hg.answered hs v hv
          simp only [GenParam.queries, hs, hv, if_true, List.mem_singleton] at h
          subst h
          simp [queryGuard, GenEnv.answers, extent_ask, hn]

/-- Of the checks of a parameter, the one that decides is whether it fits. -/
theorem guard_cases {reply : GenReply} (hg : p.Granted env args)
    {guard : CallerArgs → Answers → Option BodyExit} (h : guard ∈ p.guards env.aintBytes) :
    guard args (env.answers args reply) = none ∨
      guard args (env.answers args reply) = some (.refused abiErrValueTooLarge) ∧
        p.fits env args = false := by
  have hlength : p.isStaged = true →
      (∀ param, guard = countGuard param → p.extent = .length param →
        guard args (env.answers args reply) = none) := by
    rintro hs param rfl he
    have hnonneg := hg.nonneg hs param he
    simp [countGuard, Int.not_lt.mpr hnonneg]
  cases hc : p.cls with
  | narrowIn | narrowInout =>
      simp only [GenParam.guards, hc, List.mem_singleton] at h
      subst h
      simp only [fitsGuard, GenParam.fits, hc]
      split <;> simp_all
  | arrayConvertIn | arrayStageOut | arrayNarrowIn =>
      have hs : p.isStaged = true := by simp [GenParam.isStaged, hc]
      cases he : p.extent with
      | length param =>
          simp only [GenParam.guards, hc, he, List.mem_singleton] at h
          exact .inl (hlength hs param h he)
      | query v => simp [GenParam.guards, hc, he] at h
      | clamped v max => simp [GenParam.guards, hc, he] at h
  | _ => simp [GenParam.guards, hc] at h

/-- A scalar that does not fit fails a check of its own. -/
theorem guard_of_unfit (reply : GenReply) (hc : p.cls ≠ .arrayNarrowIn)
    (hf : p.fits env args = false) :
    ∃ guard, guard ∈ p.guards env.aintBytes ∧
      guard args (env.answers args reply) = some (.refused abiErrValueTooLarge) := by
  cases hcls : p.cls with
  | narrowIn =>
      refine ⟨fitsGuard (p.narrow env.aintBytes) fun args => args.value p.name,
        by simp [GenParam.guards, hcls], ?_⟩
      simp only [GenParam.fits, hcls] at hf
      simp [fitsGuard, hf]
  | narrowInout =>
      refine ⟨fitsGuard (p.narrow env.aintBytes) fun args => args.memory p.name 0,
        by simp [GenParam.guards, hcls], ?_⟩
      simp only [GenParam.fits, hcls] at hf
      simp [fitsGuard, hf]
  | arrayNarrowIn => exact absurd hcls hc
  | _ => simp [GenParam.fits, hcls] at hf

theorem narrowOk_outParam {reply : GenReply} :
    EntryPoint.narrowOk args (env.answers args reply) (p.outParam env.aintBytes) =
      (p.cls ≠ .arrayNarrowIn || p.fits env args) := by
  cases hc : p.cls with
  | passthrough | arrayPassthrough =>
      by_cases hd : p.direction = .input <;>
        simp [EntryPoint.narrowOk, GenParam.outParam, GenParam.paramClass, hc, hd]
  | handleOut | handleInout | switchOut | arrayStageOut =>
      cases hk : p.kind <;>
        simp [EntryPoint.narrowOk, GenParam.outParam, GenParam.paramClass, hc, hk]
  | arrayNarrowIn =>
      simp [EntryPoint.narrowOk, GenParam.outParam, GenParam.paramClass, GenParam.fits, hc,
        GenExtent.arrayExtent, GenParam.entries, GenEnv.answers]
  | _ => simp [EntryPoint.narrowOk, GenParam.outParam, GenParam.paramClass, hc]

theorem stageOk_emit {reply : GenReply} (hstage : ∀ x, env.stage x = true) :
    (b.emit env).stageOk args (env.answers args reply) = true := by
  simp [EntryPoint.stageOk, GenEnv.answers, hstage]

theorem guards_refuse (reply : GenReply) (hg : ∀ p, p ∈ b.params → p.Granted env args)
    {guard : CallerArgs → Answers → Option BodyExit} (h : guard ∈ (b.emit env).guards) :
    guard args (env.answers args reply) = none ∨
      guard args (env.answers args reply) = some (.refused abiErrValueTooLarge) ∧
        b.fits env args = false := by
  rcases List.mem_append.mp h with h | h
  · obtain ⟨p, hp, hmem⟩ := List.mem_flatMap.mp h
    refine (guard_cases (hg p hp) hmem).imp_right fun ⟨hr, hf⟩ => ⟨hr, ?_⟩
    exact List.all_eq_false.mpr ⟨p, hp, by simp [hf]⟩
  · obtain ⟨p, hp, hmem⟩ := List.mem_flatMap.mp h
    exact .inl (query_none (hg p hp) hmem)

theorem refusal_of_fits (reply : GenReply) (hg : ∀ p, p ∈ b.params → p.Granted env args)
    (hstage : ∀ x, env.stage x = true) (hf : b.fits env args = true) :
    (b.emit env).refusal args (env.answers args reply) = none := by
  have hguards : ((b.emit env).guards.findSome? fun guard =>
      guard args (env.answers args reply)) = none := by
    refine List.findSome?_eq_none_iff.mpr fun guard hguard => ?_
    rcases guards_refuse reply hg hguard with h | ⟨_, hn⟩
    · exact h
    · exact absurd hf (by simp [hn])
  have hnarrow : ((b.emit env).params.all
      (EntryPoint.narrowOk args (env.answers args reply))) = true := by
    refine List.all_eq_true.mpr fun o ho => ?_
    obtain ⟨p, hp, rfl⟩ := List.mem_map.mp ho
    rw [narrowOk_outParam, List.all_eq_true.mp hf p hp, Bool.or_true]
  simp [EntryPoint.refusal, hguards, stageOk_emit hstage, hnarrow]

theorem refusal_of_unfit (reply : GenReply) (hg : ∀ p, p ∈ b.params → p.Granted env args)
    (hstage : ∀ x, env.stage x = true) (hf : b.fits env args = false) :
    (b.emit env).refusal args (env.answers args reply) = some (.refused abiErrValueTooLarge) ∨
      (b.emit env).refusal args (env.answers args reply) = some .tooLarge := by
  cases hguards : ((b.emit env).guards.findSome? fun guard =>
      guard args (env.answers args reply)) with
  | some exit =>
      obtain ⟨guard, hguard, he⟩ := List.exists_of_findSome?_eq_some hguards
      left
      rcases guards_refuse reply hg hguard with h | ⟨h, _⟩
      · exact nomatch h.symm.trans he
      · simp only [EntryPoint.refusal, hguards]
        exact he.symm.trans h
  | none =>
      right
      obtain ⟨p, hp, hpf⟩ := List.all_eq_false.mp hf
      have hpf : p.fits env args = false := by simpa using hpf
      have hc : p.cls = .arrayNarrowIn := by
        by_contra hc
        obtain ⟨guard, hmem, hr⟩ := guard_of_unfit reply hc hpf
        have hin : guard ∈ (b.emit env).guards :=
          List.mem_append_left _ (List.mem_flatMap.mpr ⟨p, hp, hmem⟩)
        exact nomatch (List.findSome?_eq_none_iff.mp hguards guard hin).symm.trans hr
      have hnarrow : ((b.emit env).params.all
          (EntryPoint.narrowOk args (env.answers args reply))) = false := by
        refine List.all_eq_false.mpr ⟨_, List.mem_map_of_mem hp, ?_⟩
        rw [narrowOk_outParam, hpf]
        simp [hc]
      simp [EntryPoint.refusal, hguards, stageOk_emit hstage, hnarrow]

/-! ## A run -/

theorem left_nil {out : GenOutcome} (h : out.heap = []) : out.left = [] := by
  simp [GenOutcome.left, h]

theorem left_released {out : GenOutcome} (names : List String)
    (h : out.heap = names.map .alloc ++ names.map .free) : out.left = [] := by
  refine List.filterMap_eq_nil_iff.mpr fun event hevent => ?_
  rw [h] at hevent
  rcases List.mem_append.mp hevent with hmem | hmem
  · obtain ⟨name, hname, rfl⟩ := List.mem_map.mp hmem
    have hfree : HeapEvent.free name ∈ out.heap := by
      rw [h]
      exact List.mem_append_right _ (List.mem_map_of_mem hname)
    have hany : (out.heap.any fun e => e = .free name ∨ e = .keep name) = true :=
      List.any_eq_true.mpr ⟨_, hfree, by simp⟩
    exact if_pos hany
  · obtain ⟨name, _, rfl⟩ := List.mem_map.mp hmem
    rfl

theorem heap_refused {stack : Stack} {code : Int32} :
    b.heap env args stack answers (.refused code) = [] := by
  unfold GenBody.heap
  split <;> rfl

theorem heap_tooLarge {stack : Stack} : b.heap env args stack answers .tooLarge =
    if (b.emit env).outlives then [.alloc "block", .free "block"]
    else b.staged.map .alloc ++ b.staged.map .free := by
  unfold GenBody.heap
  split <;> rfl

section Runs

variable {target : GenCall → GenReply} {stack : Stack}

/-- A body that refuses a value does nothing else. -/
theorem run_of_unfit (hg : ∀ p, p ∈ b.params → p.Granted env args)
    (hstage : ∀ x, env.stage x = true) (hf : b.fits env args = false) :
    (b.run env args target stack).calls = [] ∧
      (b.run env args target stack).code = abiErrValueTooLarge ∧
      (b.run env args target stack).left = [] := by
  rcases refusal_of_unfit (target (b.call env args)) hg hstage hf with hr | hr
  · refine ⟨?_, ?_, ?_⟩
    · simp [GenBody.run, EntryPoint.run, hr]
    · simp [GenBody.run, EntryPoint.run, hr, GenBody.code]
    · refine left_nil ?_
      simp only [GenBody.run, EntryPoint.run, hr, heap_refused]
  · refine ⟨?_, ?_, ?_⟩
    · simp [GenBody.run, EntryPoint.run, hr]
    · simp [GenBody.run, EntryPoint.run, hr, GenBody.code]
    · cases ho : (b.emit env).outlives with
      | true =>
          refine left_released ["block"] ?_
          simp [GenBody.run, EntryPoint.run, hr, heap_tooLarge, ho]
      | false =>
          refine left_released b.staged ?_
          simp [GenBody.run, EntryPoint.run, hr, heap_tooLarge, ho]

theorem exit_of_fits (hg : ∀ p, p ∈ b.params → p.Granted env args)
    (hstage : ∀ x, env.stage x = true) (hf : b.fits env args = true) (reply : GenReply) :
    (b.emit env).run env.cv .emitted stack args (env.answers args reply) =
      ⟨.called reply.ierror, (b.emit env).leaves env.cv stack args (env.answers args reply)⟩ := by
  simp only [EntryPoint.run, refusal_of_fits reply hg hstage hf]
  rfl

theorem calls_of_fits (hg : ∀ p, p ∈ b.params → p.Granted env args)
    (hstage : ∀ x, env.stage x = true) (hf : b.fits env args = true) :
    (b.run env args target stack).calls = [b.call env args] := by
  simp only [GenBody.run, exit_of_fits hg hstage hf]

theorem code_of_fits (hg : ∀ p, p ∈ b.params → p.Granted env args)
    (hstage : ∀ x, env.stage x = true) (hf : b.fits env args = true) :
    (b.run env args target stack).code =
      b.code env args stack (env.answers args (target (b.call env args)))
        (.called (target (b.call env args)).ierror) := by
  simp only [GenBody.run, exit_of_fits hg hstage hf]

theorem memory_of_fits (hg : ∀ p, p ∈ b.params → p.Granted env args)
    (hstage : ∀ x, env.stage x = true) (hf : b.fits env args = true) (name : String) (i : Nat) :
    (b.run env args target stack).memory name i =
      match b.params.find? fun p => p.name = name with
      | some p =>
          (b.emit env).leaves env.cv stack args (env.answers args (target (b.call env args)))
            (p.outParam env.aintBytes) i
      | none => none := by
  have hexit := @exit_of_fits b env args stack hg hstage hf (target (b.call env args))
  cases hfind : b.params.find? fun p => p.name = name with
  | some p => simp only [GenBody.run, hexit, hfind]
  | none => simp only [GenBody.run, hexit, hfind]

end Runs

/-! ## Arguments -/

/-- Tables of lengths matter to arrays that are staged. -/
theorem argument_named {named : Option GenExtent} (h : ap.isStaged = false) :
    { ap with named := named }.argument env args = ap.argument env args := by
  obtain ⟨name, type, const, shape, direction, kind, length, rootOnly, cls, _⟩ := ap
  cases cls <;> first | rfl | exact nomatch h

theorem argument_copied (hc : p.cls = .arrayNarrowIn) : p.argument env args =
    some (.array ((List.range (p.entries env args)).map (args.memory p.name))) := by
  simp only [GenParam.argument, hc]

theorem argument_array (hc : p.cls = .arrayPassthrough) (hd : p.direction = .input) :
    p.argument env args =
      some (.array ((List.range (p.entriesRead env.comm args)).map (args.memory p.name))) := by
  simp only [GenParam.argument, hc, if_pos hd]

/-- An array of as many entries as the implementation reads, and everything else
in any case, is passed on as the twin's body passes it. -/
theorem FallbackOf.argument_eq (h : FallbackOf ap q)
    (hlen : q.cls = .arrayNarrowIn → q.entries env args = ap.entriesRead env.comm args) :
    q.argument env args = ap.argument env args := by
  cases h with
  | same named hs hp =>
      cases hst : ap.isStaged with
      | false => exact argument_named hst
      | true => rw [hs hst]
  | arrayNarrowIn named hc ha hd =>
      rw [argument_copied rfl, argument_array hc hd, hlen rfl]
  | narrowIn named hc hv =>
      have hq : ¬ap.isPointer = true := by simp [GenParam.isPointer, hv]
      simp only [GenParam.argument, hc, if_neg hq]
      rfl
  | widenOut named hc hp hd => simp only [GenParam.argument, hc, hp, hd, if_true]
  | narrowInout named hc hp hd => simp only [GenParam.argument, hc, hp, hd, if_true]

theorem FallbackOf.argument_isSome (h : FallbackOf ap q) :
    (q.argument env args).isSome = true ∧ (ap.argument env args).isSome = true := by
  have hap : ap.cls.isPrimary = true → (ap.argument env args).isSome = true := by
    intro hp
    cases hc : ap.cls <;> rw [hc] at hp <;> simp only [GenParam.argument, hc] <;>
      first | rfl | (split <;> first | rfl | (split <;> rfl)) | exact nomatch hp
  have hq : (q.argument env args).isSome = (ap.argument env args).isSome ∨
      q.cls = .arrayNarrowIn := by
    by_cases hc : q.cls = .arrayNarrowIn
    · exact .inr hc
    · exact .inl (by rw [h.argument_eq fun hq => absurd hq hc])
  have hcls : ap.cls.isPrimary = true := by
    cases h with
    | same _ _ hp => exact hp
    | arrayNarrowIn _ hc _ _ | narrowIn _ hc _ | widenOut _ hc _ _ | narrowInout _ hc _ _ =>
        rw [hc]
        rfl
  refine ⟨?_, hap hcls⟩
  rcases hq with hq | hq
  · rw [hq, hap hcls]
  · rw [argument_copied hq]
    rfl

/-- The copy of an array is not the array if it has another length. -/
theorem FallbackOf.argument_ne (h : FallbackOf ap q) (hc : q.cls = .arrayNarrowIn)
    (hlen : q.entries env args ≠ ap.entriesRead env.comm args) :
    q.argument env args ≠ ap.argument env args := by
  cases h with
  | arrayNarrowIn named hcls ha hd =>
      rw [argument_copied rfl, argument_array hcls hd]
      intro heq
      have hlist := congrArg List.length (CallArg.array.inj (Option.some.inj heq))
      rw [List.length_map, List.length_map, List.length_range, List.length_range] at hlist
      exact hlen hlist
  | same named hs hp =>
      have hap : ap.cls = .arrayNarrowIn := hc
      rw [hap] at hp
      exact nomatch hp
  | narrowIn named hcls hp => exact nomatch hc
  | widenOut named hcls hp hd => exact nomatch hc
  | narrowInout named hcls hp hd => exact nomatch hc

end AbiWrapper.Ref
