import AbiWrapper.Proofs.FallbackGen

/-!
# What two generated bodies leave after the same call

After a successful call the caller's memory holds what the implementation wrote,
converted, and `landed` says so without a body: where the arrays are staged,
what is set before the call and which local the implementation wrote to makes no
difference once it has written its outputs. A fallback's parameter and the
twin's land the same (`FallbackOf.landed_eq`), a widened output being the
integer that was written, and they raise the same handle errors.
-/

namespace AbiWrapper.Ref

variable {p ap q : GenParam} {b : GenBody} {env : GenEnv} {args : CallerArgs}
  {answers : Answers} {reply : GenReply}

/-! ## Memory -/

/-- What a successful call leaves where a parameter points, by what the
implementation wrote. -/
def landed (cv : Conversions) (args : CallerArgs) (answers : Answers) (o : OutParam) (i : Nat) :
    Option Int :=
  match o.cls with
  | .passthrough | .widenOut | .narrowInout =>
      some ((answers.wrote o.name i).getD (args.memory o.name i))
  | .scalarOut f | .handleOut f =>
      if i = 0 then (answers.wrote o.name 0).map (cv.toabi f) else some (args.memory o.name i)
  | .convertInout f =>
      if i = 0 then
        some (cv.toabi f ((answers.wrote o.name 0).getD (cv.fromabi f (args.memory o.name 0))))
      else some (args.memory o.name i)
  | .statusOut =>
      if i = 0 ∧ args.absent o.name = false then
        some (cv.status true ((answers.wrote o.name 0).getD 0) (args.memory o.name 0))
      else some (args.memory o.name i)
  | .arrayStageOut f e =>
      if i < e.conv args answers then (answers.wrote o.name i).map (cv.toabi f)
      else some (args.memory o.name i)
  | _ => some (args.memory o.name i)

/-- The implementation wrote an output that the body takes from a local without
a value, or sets before the call; and one object through a pointer to one. -/
structure Delivered (args : CallerArgs) (answers : Answers) (o : OutParam) : Prop where
  zeroed : o.zeroed = true → (answers.wrote o.name 0).isSome = true
  handle : ∀ f, o.cls = .handleOut f → (answers.wrote o.name 0).isSome = true
  scalar : ∀ f, o.cls = .scalarOut f → (answers.wrote o.name 0).isSome = true
  widened : o.cls = .widenOut → (answers.wrote o.name 0).isSome = true
  single : o.cls = .widenOut ∨ o.cls = .narrowInout → ∀ i, i ≠ 0 → answers.wrote o.name i = none
  array : ∀ f e, o.cls = .arrayStageOut f e → ∀ i, i < e.conv args answers →
    (answers.wrote o.name i).isSome = true

/-- The classes that two bodies may share. What is set before the call is an
integer that is passed through or stored after it. -/
def OutParam.settles (o : OutParam) : Bool :=
  match o.cls with
  | .passthrough | .widenOut | .scalarOut _ => true
  | .input | .narrowInout | .handleOut _ | .convertInout _ | .statusOut | .arrayConvertIn _
  | .arrayNarrowIn _ _ | .arrayStageOut _ _ => !o.zeroed
  | .largeOnlyZero | .arrayStageInout _ _ | .arrayStatusOut _ | .arrayMapOut _ _ => false

def ParamClass.outlives : ParamClass → Bool
  | .input | .passthrough | .handleOut _ | .arrayConvertIn _ | .arrayNarrowIn _ _ => true
  | _ => false

/-- The classes of outputs that are one object and not an array. -/
def ParamClass.single : ParamClass → Bool
  | .handleOut _ | .scalarOut _ | .widenOut | .narrowInout | .convertInout _ | .statusOut => true
  | _ => false

theorem entry_eq {ep : EntryPoint} {cv : Conversions} {o : OutParam} {i : Nat}
    (h : i ≠ 0 ∨ o.zeroed = false ∧ ∀ f, o.cls ≠ .handleOut f) :
    ep.entry cv args o i = args.memory o.name i := by
  have hd : ep.outDefined cv args o i (args.memory o.name i) = args.memory o.name i := by
    rcases h with h | ⟨hz, hh⟩
    · simp [EntryPoint.outDefined, h]
    · simp only [EntryPoint.outDefined, hz]
      split
      · cases hc : o.cls with
        | handleOut f => exact absurd hc (hh f)
        | _ => rfl
      · rfl
  simp [EntryPoint.entry, hd]

/-- A conversion takes the value that the implementation wrote. -/
theorem leaves_converted {ep : EntryPoint} {cv : Conversions} {stack : Stack} {o : OutParam}
    {i : Nat} {v : Int} (hc : ep.converts args answers o i = true)
    (hw : answers.wrote o.name i = some v) :
    ep.leaves cv stack args answers o i =
      some (EntryPoint.convert cv o (ep.entry cv args o i) v) := by
  have hheld : ep.held cv stack args answers o i = some v := by rw [EntryPoint.held, hw]
  rw [EntryPoint.leaves, if_pos hc, hheld, Option.map_some]

/-- Of an output that is one object nothing but that object is touched. -/
theorem leaves_beyond {ep : EntryPoint} {cv : Conversions} {stack : Stack} {o : OutParam} {i : Nat}
    (hi : i ≠ 0) (hs : o.cls.single = true) (hd : Delivered args answers o) :
    ep.leaves cv stack args answers o i = landed cv args answers o i := by
  have hentry : ep.entry cv args o i = args.memory o.name i := entry_eq (.inl hi)
  have hout : ∀ held, ep.outDefined cv args o i held = held := by
    intro held
    simp [EntryPoint.outDefined, hi]
  have hconverts : ep.converts args answers o i = false := by
    obtain ⟨name, cls, zeroed⟩ := o
    cases cls with
    | handleOut f | scalarOut f | widenOut | narrowInout | convertInout f | statusOut =>
        simp [EntryPoint.converts, hi]
    | _ => exact nomatch hs
  have hkept : ep.kept cv args answers o i = args.memory o.name i := by
    obtain ⟨name, cls, zeroed⟩ := o
    cases cls with
    | handleOut f | scalarOut f | widenOut | narrowInout | convertInout f | statusOut =>
        simp [EntryPoint.kept, EntryPoint.written, hentry, hout, hi]
    | _ => exact nomatch hs
  rw [EntryPoint.leaves, hconverts, if_neg Bool.false_ne_true, hkept]
  obtain ⟨name, cls, zeroed⟩ := o
  cases cls with
  | widenOut =>
      have hnone : answers.wrote name i = none := hd.single (.inl rfl) i hi
      simp only [landed, hnone, Option.getD_none]
  | narrowInout =>
      have hnone : answers.wrote name i = none := hd.single (.inr rfl) i hi
      simp only [landed, hnone, Option.getD_none]
  | handleOut f | scalarOut f | convertInout f => simp only [landed, if_neg hi]
  | statusOut => simp only [landed, hi, false_and, if_false]
  | _ => exact nomatch hs

theorem leaves_outliving {stack : Stack} {o : OutParam} (i : Nat) (he : answers.ierror = 0)
    (ho : (b.emit env).outlives = true) (hc : o.cls.outlives = true)
    (hd : Delivered args answers o) :
    (b.emit env).leaves env.cv stack args answers o i = landed env.cv args answers o i := by
  have hentry : (b.emit env).entry env.cv args o i = args.memory o.name i := by
    simp [EntryPoint.entry, ho]
  obtain ⟨name, cls, zeroed⟩ := o
  cases cls with
  | handleOut f =>
      by_cases hi : i = 0
      · subst hi
        obtain ⟨v, hv⟩ := Option.isSome_iff_exists.mp (hd.handle f rfl)
        have hv : answers.wrote name 0 = some v := hv
        rw [leaves_converted (by simp [EntryPoint.converts, ho, he]) hv]
        simp only [landed, EntryPoint.convert, if_true, hv, Option.map_some]
      · exact leaves_beyond hi rfl hd
  | input | passthrough | arrayConvertIn e | arrayNarrowIn n e =>
      simp [EntryPoint.leaves, EntryPoint.converts, EntryPoint.kept, EntryPoint.written,
        landed, ho, he, hentry]
  | _ => exact nomatch hc

theorem leaves_blocking {stack : Stack} {o : OutParam} (i : Nat) (he : answers.ierror = 0)
    (ho : (b.emit env).outlives = false) (hs : o.settles = true)
    (hd : Delivered args answers o) :
    (b.emit env).leaves env.cv stack args answers o i = landed env.cv args answers o i := by
  by_cases hbeyond : i ≠ 0 ∧ o.cls.single = true
  · exact leaves_beyond hbeyond.1 hbeyond.2 hd
  have hw : ∀ o, (b.emit env).wanted args o = true := fun o => rfl
  obtain ⟨name, cls, zeroed⟩ := o
  have hfirst : cls.single = true → i = 0 := fun hsingle =>
    Classical.not_not.mp fun hi => hbeyond ⟨hi, hsingle⟩
  have hentry0 : zeroed = false → (∀ f, cls ≠ .handleOut f) →
      (b.emit env).entry env.cv args ⟨name, cls, zeroed⟩ i = args.memory name i :=
    fun hz hc => entry_eq (.inr ⟨hz, hc⟩)
  cases cls with
  | passthrough =>
      have hkeep : answers.wrote name i = none →
          (b.emit env).entry env.cv args ⟨name, .passthrough, zeroed⟩ i = args.memory name i := by
        intro hwrote
        by_cases hi : i = 0
        · subst hi
          refine hentry0 ?_ nofun
          by_contra hz
          have hsome := hd.zeroed (by simpa using hz)
          rw [hwrote] at hsome
          exact nomatch hsome
        · exact entry_eq (.inl hi)
      cases hwrote : answers.wrote name i with
      | some v =>
          simp [EntryPoint.leaves, EntryPoint.converts, EntryPoint.kept, EntryPoint.written,
            landed, ho, hwrote]
      | none =>
          simp [EntryPoint.leaves, EntryPoint.converts, EntryPoint.kept, EntryPoint.written,
            landed, ho, hwrote, hkeep hwrote]
  | handleOut f =>
      obtain rfl := hfirst rfl
      obtain ⟨v, hv⟩ := Option.isSome_iff_exists.mp (hd.handle f rfl)
      have hv : answers.wrote name 0 = some v := hv
      rw [leaves_converted (by simp [EntryPoint.converts, ho, he, hw]) hv]
      simp only [landed, EntryPoint.convert, if_true, hv, Option.map_some]
  | scalarOut f =>
      obtain rfl := hfirst rfl
      obtain ⟨v, hv⟩ := Option.isSome_iff_exists.mp (hd.scalar f rfl)
      have hv : answers.wrote name 0 = some v := hv
      rw [leaves_converted (by simp [EntryPoint.converts, ho, hw]) hv]
      simp only [landed, EntryPoint.convert, if_true, hv, Option.map_some]
  | widenOut =>
      obtain rfl := hfirst rfl
      obtain ⟨v, hv⟩ := Option.isSome_iff_exists.mp (hd.widened rfl)
      have hv : answers.wrote name 0 = some v := hv
      rw [leaves_converted (by simp [EntryPoint.converts, ho, hw]) hv]
      simp only [landed, EntryPoint.convert, hv, Option.getD_some]
  | narrowInout | convertInout f =>
      obtain rfl := hfirst rfl
      cases hwrote : answers.wrote name 0 <;>
        simp [EntryPoint.leaves, EntryPoint.converts, EntryPoint.held, EntryPoint.convert,
          EntryPoint.uninitialised, EntryPoint.initial, landed, ho, hw, hwrote]
  | statusOut =>
      have hz : zeroed = false := by simpa [OutParam.settles] using hs
      obtain rfl := hfirst rfl
      cases ha : args.absent name <;> cases hwrote : answers.wrote name 0 <;>
        simp [EntryPoint.leaves, EntryPoint.converts, EntryPoint.held, EntryPoint.convert,
          EntryPoint.uninitialised, EntryPoint.initial, EntryPoint.kept, EntryPoint.written,
          landed, ho, ha, hwrote, hentry0 hz nofun]
  | arrayStageOut f e =>
      have hz : zeroed = false := by simpa [OutParam.settles] using hs
      by_cases hi : i < e.conv args answers
      · obtain ⟨v, hv⟩ := Option.isSome_iff_exists.mp (hd.array f e rfl i hi)
        have hv : answers.wrote name i = some v := hv
        rw [leaves_converted (by simp [EntryPoint.converts, ho, he, hw, hi]) hv]
        simp only [landed, EntryPoint.convert, if_pos hi, hv, Option.map_some]
      · simp [EntryPoint.leaves, EntryPoint.converts, EntryPoint.kept, EntryPoint.written,
          landed, ho, he, hw, hi, hentry0 hz nofun]
  | input | arrayConvertIn e | arrayNarrowIn n e =>
      have hz : zeroed = false := by simpa [OutParam.settles] using hs
      simp [EntryPoint.leaves, EntryPoint.converts, EntryPoint.kept, EntryPoint.written,
        landed, ho, hentry0 hz nofun]
  | _ => exact nomatch hs

theorem leaves_landed {stack : Stack} {o : OutParam} (i : Nat) (he : answers.ierror = 0)
    (ho : (b.emit env).outlives = true → o.cls.outlives = true) (hs : o.settles = true)
    (hd : Delivered args answers o) :
    (b.emit env).leaves env.cv stack args answers o i = landed env.cv args answers o i := by
  cases hout : (b.emit env).outlives with
  | true => exact leaves_outliving i he hout (ho hout) hd
  | false => exact leaves_blocking i he hout hs hd

/-! ## Two bodies -/

/-- Values are inputs, what is converted has a family, and what is set before
the call is passed through or is a constant that is stored after it. -/
def GenParam.settles (p : GenParam) : Bool :=
  (p.shape ≠ .value || p.direction = .input) &&
    match p.cls with
    | .passthrough => true
    | .switchOut => p.kind.isSome
    | .handleOut | .handleInout | .arrayStageOut => p.kind.isSome && !p.type.narrowable
    | _ => !(p.direction = .output && p.isPointer && p.type.narrowable)

/-- A call that succeeded has written its outputs: all of an array, and of
anything else one object. -/
def GenParam.AnsweredBy (p : GenParam) (env : GenEnv) (args : CallerArgs) (reply : GenReply) :
    Prop :=
  match p.cls with
  | .passthrough =>
      p.isPointer = true →
        (p.direction = .output → (reply.wrote p.name 0).isSome = true) ∧
          ∀ i, i ≠ 0 → reply.wrote p.name i = none
  | .handleOut | .switchOut => (reply.wrote p.name 0).isSome = true
  | .arrayStageOut => ∀ i, i < p.entries env args → (reply.wrote p.name i).isSome = true
  | _ => True

theorem outParam_named {named : Option GenExtent} {bytes : Nat} (h : ap.isStaged = false) :
    { ap with named := named }.outParam bytes = ap.outParam bytes := by
  obtain ⟨name, type, const, shape, direction, kind, length, rootOnly, cls, _⟩ := ap
  cases cls <;> first | rfl | exact nomatch h

theorem outParam_settles {bytes : Nat} (hs : ap.settles = true) (hp : ap.cls.isPrimary = true) :
    (ap.outParam bytes).settles = true := by
  obtain ⟨name, type, const, shape, direction, kind, length, rootOnly, cls, _⟩ := ap
  cases cls with
  | passthrough | arrayPassthrough =>
      by_cases hd : direction = .input <;>
        simp_all [GenParam.settles, GenParam.outParam, GenParam.paramClass, OutParam.settles]
  | handleOut | handleInout | switchOut | arrayStageOut =>
      cases kind <;>
        simp_all [GenParam.settles, GenParam.outParam, GenParam.paramClass, OutParam.settles]
  | narrowIn | narrowInout | widenOut | arrayNarrowIn | largeOnlyZero | largeOnlyVoid =>
      cases hp
  | _ => simp_all [GenParam.settles, GenParam.outParam, GenParam.paramClass, OutParam.settles]

theorem FallbackOf.landed_eq {bytes : Nat} (h : FallbackOf ap q) (hs : ap.settles = true)
    (i : Nat) : landed env.cv args answers (q.outParam bytes) i =
      landed env.cv args answers (ap.outParam bytes) i := by
  cases h with
  | same named hst hp =>
      cases hstaged : ap.isStaged with
      | false => rw [outParam_named hstaged]
      | true => rw [hst hstaged]
  | arrayNarrowIn named hc ha hd =>
      simp only [landed, GenParam.outParam, GenParam.paramClass, hc, if_pos hd]
  | narrowIn named hc hv =>
      have hd : ap.direction = .input := by
        simpa [GenParam.settles, hc, hv] using hs
      simp only [landed, GenParam.outParam, GenParam.paramClass, hc, if_pos hd]
  | widenOut named hc hp hd | narrowInout named hc hp hd =>
      have hin : ap.direction ≠ .input := by simp [hd]
      simp only [landed, GenParam.outParam, GenParam.paramClass, hc, if_neg hin]

theorem FallbackOf.settles (h : FallbackOf ap q) {bytes : Nat} (hs : ap.settles = true) :
    (q.outParam bytes).settles = true := by
  cases h with
  | same named hst hp =>
      refine outParam_settles ?_ hp
      exact hs
  | arrayNarrowIn named hc ha hd =>
      simp [OutParam.settles, GenParam.outParam, GenParam.paramClass, hd]
  | narrowIn named hc hv =>
      simp [OutParam.settles, GenParam.outParam, GenParam.paramClass, GenParam.isPointer, hv]
  | widenOut named hc hp hd => rfl
  | narrowInout named hc hp hd =>
      simp [OutParam.settles, GenParam.outParam, GenParam.paramClass, hd]

theorem paramClass_inv {bytes : Nat} :
    match p.paramClass bytes with
    | .handleOut _ => p.cls = .handleOut
    | .scalarOut _ => p.cls = .switchOut
    | .widenOut => p.cls = .widenOut
    | .narrowInout => p.cls = .narrowInout
    | .arrayStageOut _ e => p.cls = .arrayStageOut ∧ e = p.extent.arrayExtent
    | _ => True := by
  cases hc : p.cls with
  | passthrough | arrayPassthrough =>
      simp only [GenParam.paramClass, hc]
      split_ifs <;> trivial
  | handleOut | handleInout | switchOut | arrayStageOut =>
      cases hk : p.kind <;> simp [GenParam.paramClass, hc, hk]
  | _ => simp [GenParam.paramClass, hc]

theorem zeroed_answered (bytes : Nat) (ha : ap.AnsweredBy env args reply)
    (hs : ap.settles = true) (hz : (ap.outParam bytes).zeroed = true) :
    (reply.wrote ap.name 0).isSome = true := by
  simp only [GenParam.outParam, Bool.and_eq_true, decide_eq_true_eq] at hz
  obtain ⟨⟨hd, hp⟩, hn⟩ := hz
  cases hc : ap.cls with
  | passthrough =>
      simp only [GenParam.AnsweredBy, hc] at ha
      exact (ha hp).1 hd
  | switchOut => simpa only [GenParam.AnsweredBy, hc] using ha
  | _ => simp [GenParam.settles, hc, hd, hp, hn] at hs

/-- What the implementation wrote is enough for the twin's body. -/
theorem delivered_of (ha : ap.AnsweredBy env args reply) (hs : ap.settles = true)
    (hp : ap.cls.isPrimary = true) :
    Delivered args (env.answers args reply) (ap.outParam env.aintBytes) where
  zeroed hz := zeroed_answered env.aintBytes ha hs hz
  handle f hf := by
    have hc := @paramClass_inv ap env.aintBytes
    rw [show ap.paramClass env.aintBytes = .handleOut f from hf] at hc
    simp only [GenParam.AnsweredBy, hc] at ha
    exact ha
  scalar f hf := by
    have hc := @paramClass_inv ap env.aintBytes
    rw [show ap.paramClass env.aintBytes = .scalarOut f from hf] at hc
    simp only [GenParam.AnsweredBy, hc] at ha
    exact ha
  widened hf := by
    have hc := @paramClass_inv ap env.aintBytes
    rw [show ap.paramClass env.aintBytes = .widenOut from hf] at hc
    rw [hc] at hp
    exact nomatch hp
  single hf := by
    have hc := @paramClass_inv ap env.aintBytes
    rcases hf with hf | hf
    · rw [show ap.paramClass env.aintBytes = .widenOut from hf] at hc
      rw [hc] at hp
      exact nomatch hp
    · rw [show ap.paramClass env.aintBytes = .narrowInout from hf] at hc
      rw [hc] at hp
      exact nomatch hp
  array f e hf := by
    have hc := @paramClass_inv ap env.aintBytes
    rw [show ap.paramClass env.aintBytes = .arrayStageOut f e from hf] at hc
    obtain ⟨hc, rfl⟩ := hc
    simp only [GenParam.AnsweredBy, hc] at ha
    exact ha

/-- Of a class that takes nothing from a local. -/
theorem Delivered.of_plain {o : OutParam}
    (hz : o.zeroed = true → (answers.wrote o.name 0).isSome = true) (hs : o.cls.single = false)
    (ha : ∀ f e, o.cls ≠ .arrayStageOut f e) : Delivered args answers o where
  zeroed := hz
  handle f hf := by
    rw [hf] at hs
    cases hs
  scalar f hf := by
    rw [hf] at hs
    cases hs
  widened hf := by
    rw [hf] at hs
    cases hs
  single hf := by
    rcases hf with hf | hf
    · rw [hf] at hs
      cases hs
    · rw [hf] at hs
      cases hs
  array f e hf := absurd hf (ha f e)

/-- It is enough for the fallback, whose locals are the twin's outputs. -/
theorem FallbackOf.delivered (h : FallbackOf ap q) (ha : ap.AnsweredBy env args reply)
    (hs : ap.settles = true) :
    Delivered args (env.answers args reply) (q.outParam env.aintBytes) := by
  cases h with
  | same named hst hp =>
      cases hstaged : ap.isStaged with
      | false =>
          rw [outParam_named hstaged]
          exact delivered_of ha hs hp
      | true =>
          rw [hst hstaged]
          exact delivered_of ha hs hp
  | arrayNarrowIn named hc _ hd =>
      refine .of_plain (fun hz => zeroed_answered env.aintBytes ha hs hz) rfl ?_
      intro f e hf
      cases hf
  | narrowIn named hc hv =>
      refine .of_plain (fun hz => zeroed_answered env.aintBytes ha hs hz) rfl ?_
      intro f e hf
      cases hf
  | widenOut named hc hp hd =>
      simp only [GenParam.AnsweredBy, hc] at ha
      obtain ⟨hsome, hnone⟩ := ha hp
      refine ⟨fun _ => hsome hd, ?_, ?_, fun _ => hsome hd, fun _ => hnone, ?_⟩
      · intro f hf
        cases hf
      · intro f hf
        cases hf
      · intro f e hf
        cases hf
  | narrowInout named hc hp hd =>
      have hz : ({ ap with named := named, cls := .narrowInout }.outParam env.aintBytes).zeroed =
          false := by simp [GenParam.outParam, hd]
      simp only [GenParam.AnsweredBy, hc] at ha
      refine ⟨?_, ?_, ?_, ?_, fun _ => (ha hp).2, ?_⟩
      · intro h
        rw [hz] at h
        cases h
      · intro f hf
        cases hf
      · intro f hf
        cases hf
      · intro hf
        cases hf
      · intro f e hf
        cases hf

/-! ## Handle errors -/

/-- What the conversion of an output raises does not depend on the body. -/
def raisedOf (env : GenEnv) (args : CallerArgs) (answers : Answers) (p : GenParam) : Bool :=
  match p.cls, p.kind with
  | .handleOut, some f => answers.ierror = 0 && (answers.wrote p.name 0).any (env.raises f)
  | .handleInout, some f =>
      env.raises f ((answers.wrote p.name 0).getD (env.cv.fromabi f (args.memory p.name 0)))
  | .arrayStageOut, some f =>
      answers.ierror = 0 &&
        (List.range (p.entries env args)).any fun i =>
          (answers.wrote p.name i).any (env.raises f)
  | _, _ => false

theorem held_of_wrote {ep : EntryPoint} {cv : Conversions} {stack : Stack} {o : OutParam}
    {i : Nat} (h : (answers.wrote o.name i).isSome = true) :
    ep.held cv stack args answers o i = answers.wrote o.name i := by
  obtain ⟨v, hv⟩ := Option.isSome_iff_exists.mp h
  simp only [EntryPoint.held, hv]

theorem raisedBy_eq {stack : Stack} (ha : p.AnsweredBy env args reply) :
    b.raisedBy env args stack (env.answers args reply) p =
      raisedOf env args (env.answers args reply) p := by
  cases hk : p.kind with
  | none => cases hc : p.cls <;> simp [GenBody.raisedBy, raisedOf, hc, hk]
  | some f =>
      cases hc : p.cls with
      | handleOut =>
          simp only [GenParam.AnsweredBy, hc] at ha
          simp only [GenBody.raisedBy, raisedOf, hc, hk]
          rw [held_of_wrote ha]
          rfl
      | handleInout =>
          simp only [GenBody.raisedBy, raisedOf, hc, hk, EntryPoint.held,
            EntryPoint.uninitialised, EntryPoint.initial, GenParam.outParam, GenParam.paramClass]
          cases (env.answers args reply).wrote p.name 0 <;> rfl
      | arrayStageOut =>
          simp only [GenParam.AnsweredBy, hc] at ha
          simp only [GenBody.raisedBy, raisedOf, hc, hk]
          congr 1
          rw [Bool.eq_iff_iff, List.any_eq_true, List.any_eq_true]
          refine exists_congr fun i => and_congr_right fun hi => ?_
          rw [held_of_wrote (ha i (List.mem_range.mp hi))]
          rfl
      | _ => simp [GenBody.raisedBy, raisedOf, hc, hk]

theorem FallbackOf.raised_eq (h : FallbackOf ap q) :
    raisedOf env args answers q = raisedOf env args answers ap := by
  cases h with
  | same named hst hp =>
      cases hstaged : ap.isStaged with
      | true => rw [hst hstaged]
      | false =>
          obtain ⟨name, type, const, shape, direction, kind, length, rootOnly, cls, _⟩ := ap
          cases kind <;> cases cls <;> first | rfl | exact nomatch hstaged
  | arrayNarrowIn named hc _ _ | narrowIn named hc _ | widenOut named hc _ _
  | narrowInout named hc _ _ =>
      simp [raisedOf, hc]

theorem FallbackOf.makesHandle_eq (h : FallbackOf ap q) : q.makesHandle = ap.makesHandle := by
  cases h with
  | same named hst hp => rfl
  | arrayNarrowIn named hc _ _ | narrowIn named hc _ | widenOut named hc _ _
  | narrowInout named hc _ _ =>
      simp [GenParam.makesHandle, hc]

theorem FallbackOf.answeredBy (h : FallbackOf ap q) (ha : ap.AnsweredBy env args reply) :
    q.AnsweredBy env args reply := by
  cases h with
  | same named hst hp =>
      cases hstaged : ap.isStaged with
      | true =>
          rw [hst hstaged]
          exact ha
      | false =>
          obtain ⟨name, type, const, shape, direction, kind, length, rootOnly, cls, _⟩ := ap
          cases cls <;> first | exact ha | exact nomatch hstaged
  | arrayNarrowIn named _ _ _ | narrowIn named _ _ | widenOut named _ _ _
  | narrowInout named _ _ _ => exact trivial

/-! ## Temporaries that outlive the call -/

/-- The class is one of a body with such temporaries. -/
def GenParam.endures (p : GenParam) : Bool :=
  match p.cls with
  | .passthrough | .arrayPassthrough | .stringIn | .buffer | .bufferInplace | .handleIn
  | .handleOut | .rankIn | .tagIn | .switchIn | .arrayConvertIn | .narrowIn | .arrayNarrowIn =>
      true
  | _ => false

theorem outlives_of_endures {bytes : Nat} (h : p.endures = true) :
    (p.outParam bytes).cls.outlives = true := by
  cases hc : p.cls with
  | passthrough | arrayPassthrough =>
      simp only [GenParam.outParam, GenParam.paramClass, hc]
      split <;> rfl
  | handleOut =>
      simp only [GenParam.outParam, GenParam.paramClass, hc]
      cases p.kind <;> rfl
  | handleInout | switchOut | statusOut | arrayStageOut | narrowInout | widenOut | largeOnlyZero
  | largeOnlyVoid => simp [GenParam.endures, hc] at h
  | _ => simp only [GenParam.outParam, GenParam.paramClass, hc]; rfl

theorem stagedIn_outParam {bytes : Nat} : EntryPoint.stagedIn (p.outParam bytes) =
    (p.cls = .arrayConvertIn || p.cls = .arrayNarrowIn) := by
  cases hc : p.cls with
  | passthrough | arrayPassthrough =>
      by_cases hd : p.direction = .input <;>
        simp [EntryPoint.stagedIn, GenParam.outParam, GenParam.paramClass, hc, hd]
  | handleOut | handleInout | switchOut | arrayStageOut =>
      cases hk : p.kind <;>
        simp [EntryPoint.stagedIn, GenParam.outParam, GenParam.paramClass, hc, hk]
  | _ => simp [EntryPoint.stagedIn, GenParam.outParam, GenParam.paramClass, hc]

theorem requestOut_outParam {bytes : Nat} : EntryPoint.requestOut (p.outParam bytes) =
    (p.cls = .handleOut && p.kind = some (.handle .request)) := by
  cases hc : p.cls with
  | passthrough | arrayPassthrough =>
      by_cases hd : p.direction = .input <;>
        simp [EntryPoint.requestOut, GenParam.outParam, GenParam.paramClass, hc, hd]
  | handleOut | handleInout | switchOut | arrayStageOut =>
      cases hk : p.kind <;>
        simp [EntryPoint.requestOut, GenParam.outParam, GenParam.paramClass, hc, hk]
  | _ => simp [EntryPoint.requestOut, GenParam.outParam, GenParam.paramClass, hc]

/-- The assembler and the generator's predicate agree. -/
theorem outlives_emit : (b.emit env).outlives = stagesPastReturn b.params := by
  simp only [EntryPoint.outlives, GenBody.emit, stagesPastReturn, List.any_map, Function.comp_def,
    stagedIn_outParam, requestOut_outParam]

/-! ## The code -/

/-- A body whose temporaries outlive it makes a request. -/
theorem outlives_makesHandle (h : (b.emit env).outlives = true) :
    b.params.any (·.makesHandle) = true := by
  simp only [EntryPoint.outlives, Bool.and_eq_true, List.any_eq_true] at h
  obtain ⟨_, o, ho, hr⟩ := h
  obtain ⟨p, hp, rfl⟩ := List.mem_map.mp ho
  refine List.any_eq_true.mpr ⟨p, hp, ?_⟩
  have hc := @paramClass_inv p env.aintBytes
  cases hcls : p.paramClass env.aintBytes with
  | handleOut f =>
      rw [hcls] at hc
      simp [GenParam.makesHandle, hc]
  | _ => simp [EntryPoint.requestOut, GenParam.outParam, hcls] at hr

theorem errorcode_success : env.errorcode 0 = 0 := rfl

theorem raised_of_answered {stack : Stack}
    (ha : ∀ p, p ∈ b.params → p.AnsweredBy env args reply) :
    b.raised env args stack (env.answers args reply) =
      (env.pending || b.params.any (raisedOf env args (env.answers args reply))) := by
  rw [GenBody.raised]
  congr 1
  rw [Bool.eq_iff_iff, List.any_eq_true, List.any_eq_true]
  refine exists_congr fun p => and_congr_right fun hp => ?_
  rw [raisedBy_eq (ha p hp)]

/-- A call that succeeded fails if a handle it made has no room. -/
theorem code_success {stack : Stack} (hkeep : env.keep = true)
    (ha : ∀ p, p ∈ b.params → p.AnsweredBy env args reply) :
    b.code env args stack (env.answers args reply) (.called 0) =
      if b.params.any (·.makesHandle) &&
          (env.pending || b.params.any (raisedOf env args (env.answers args reply))) then
        abiErrIntern
      else 0 := by
  rw [← @raised_of_answered b env args reply stack ha]
  cases ho : (b.emit env).outlives with
  | true =>
      simp only [GenBody.code, ho, hkeep, outlives_makesHandle ho, Bool.true_and, if_true]
      rfl
  | false => simp only [GenBody.code, ho, errorcode_success]; rfl

end AbiWrapper.Ref
