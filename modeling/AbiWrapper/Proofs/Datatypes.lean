import AbiWrapper.Proofs.ErrorHistory
import AbiWrapper.Proofs.HandleBijection
import AbiWrapper.Proofs.Spawn
import AbiWrapper.Ref.Datatypes

/-!
# What `MPI_Type_get_contents` gives back

The constructors convert some of their integers, and what comes back is what
the implementation was given: so the caller gets its own integers exactly if
the conversions changed none. Position by position that is a question about one
argument, because no conversion changes how many integers an argument is, and
only the two array constructors have arguments that a conversion can change.
-/

namespace AbiWrapper.Ref

/-! ## The switches -/

theorem constFromabi_eq_self_iff {rows : List (Int × Int)} (hnd : (rows.map Prod.fst).Nodup)
    {n : Int} : constFromabi rows n = n ↔ keptBy rows n := by
  induction rows with
  | nil =>
      constructor
      · exact fun _ row hm => nomatch hm
      · exact fun _ => rfl
  | cons row rest ih =>
      obtain ⟨hnot, hrest⟩ := List.nodup_cons.mp hnd
      by_cases he : row.1 = n
      · have hval : constFromabi (row :: rest) n = row.2 := by
          simp [constFromabi, he]
        rw [hval]
        constructor
        · intro h row' hm he'
          rcases List.mem_cons.mp hm with rfl | hm
          · exact h
          · exact absurd (List.mem_map.mpr ⟨row', hm, he'.trans he.symm⟩) hnot
        · exact fun h => h row List.mem_cons_self he
      · have hval : constFromabi (row :: rest) n = constFromabi rest n := by
          simp [constFromabi, he]
        rw [hval, ih hrest]
        constructor
        · intro h row' hm he'
          rcases List.mem_cons.mp hm with rfl | hm
          · exact absurd he' he
          · exact h row' hm he'
        · exact fun h row' hm => h row' (List.mem_cons_of_mem _ hm)

section Params

variable {impl : TypeImpl} {args : TypeArgs} {len : Nat} {param : TypeParam} {n : Int}

theorem rankFromabi_eq_constFromabi :
    rankFromabi impl.ranks n = constFromabi impl.rankRows n := by
  simp only [rankFromabi, constFromabi, TypeImpl.rankRows, List.find?_cons, List.find?_nil,
    eq_comm (b := n)]
  split_ifs <;> simp_all

theorem rankFromabi_eq_self_iff :
    rankFromabi impl.ranks n = n ↔ keptBy impl.rankRows n := by
  rw [rankFromabi_eq_constFromabi]
  exact constFromabi_eq_self_iff (by simp [TypeImpl.rankRows]; decide)

theorem orderFromabi_eq_self_iff : orderFromabi impl n = n ↔ keptBy impl.orderRows n :=
  constFromabi_eq_self_iff (by simp [TypeImpl.orderRows])

theorem distributeFromabi_eq_self_iff :
    distributeFromabi impl n = n ↔ keptBy impl.distributeRows n :=
  constFromabi_eq_self_iff (by simp [TypeImpl.distributeRows])

theorem dargFromabi_eq_self_iff : dargFromabi impl n = n ↔ keptBy impl.dargRows n :=
  constFromabi_eq_self_iff (by simp [TypeImpl.dargRows])

/-! ## One argument -/

theorem convertTypeParam_length (kind : TypeParamKind) :
    (convertTypeParam impl args len param kind).numbers.length =
      (givenParam args len param kind).numbers.length := by
  cases kind <;> simp [convertTypeParam, givenParam, TypeVal.numbers]

theorem map_range_eq_iff {f g : Nat → Int} :
    (List.range len).map f = (List.range len).map g ↔ ∀ i, i < len → f i = g i := by
  rw [List.map_inj_left]
  exact forall_congr' fun i => by rw [List.mem_range]

/-- An argument that comes back among the integers is unchanged. -/
def sameParam (impl : TypeImpl) (args : TypeArgs) (len : Nat) (param : TypeParam) :
    TypeParamKind → Prop
  | .rank => keptBy impl.rankRows (args.number param)
  | .order => keptBy impl.orderRows (args.number param)
  | .distributes => ∀ i, i < len → keptBy impl.distributeRows (args.array param i)
  | .dargs => ∀ i, i < len → keptBy impl.dargRows (args.array param i)
  | _ => True

theorem convertTypeParam_integer_iff {large : Bool} (kind : TypeParamKind) :
    (if kind.isInteger large then (convertTypeParam impl args len param kind).numbers else []) =
        (if kind.isInteger large then (givenParam args len param kind).numbers else []) ↔
      sameParam impl args len param kind := by
  cases kind with
  | rank =>
      show [rankFromabi impl.ranks (args.number param)] = [args.number param] ↔ _
      rw [List.singleton_inj]
      exact rankFromabi_eq_self_iff
  | order =>
      show [orderFromabi impl (args.number param)] = [args.number param] ↔ _
      rw [List.singleton_inj]
      exact orderFromabi_eq_self_iff
  | distributes =>
      show (List.range len).map _ = (List.range len).map _ ↔ _
      rw [map_range_eq_iff]
      exact forall_congr' fun i => imp_congr_right fun _ => distributeFromabi_eq_self_iff
  | dargs =>
      show (List.range len).map _ = (List.range len).map _ ↔ _
      rw [map_range_eq_iff]
      exact forall_congr' fun i => imp_congr_right fun _ => dargFromabi_eq_self_iff
  | _ => simp [convertTypeParam, sameParam, TypeParamKind.isInteger]

theorem convertTypeParam_largeCount {large : Bool} (kind : TypeParamKind) :
    (if kind.isLargeCount large then (convertTypeParam impl args len param kind).numbers else []) =
      if kind.isLargeCount large then (givenParam args len param kind).numbers else [] := by
  cases kind <;> rfl

end Params

/-! ## All of them -/

/-- Two lists that are put together from pieces of the same lengths are equal if
the pieces are. -/
theorem flatMap_eq_iff {α β : Type} {f g : α → List β} {l : List α}
    (hlen : ∀ a, a ∈ l → (f a).length = (g a).length) :
    l.flatMap f = l.flatMap g ↔ ∀ a, a ∈ l → f a = g a := by
  induction l with
  | nil => simp
  | cons a rest ih =>
      simp only [List.flatMap_cons, List.forall_mem_cons]
      have hrest := ih fun b hb => hlen b (List.mem_cons_of_mem _ hb)
      constructor
      · intro h
        obtain ⟨ha, hr⟩ := List.append_inj h (hlen a List.mem_cons_self)
        exact ⟨ha, hrest.mp hr⟩
      · intro h
        rw [h.1, hrest.mpr h.2]

section Contents

variable {impl : TypeImpl} {ctor : TypeCtor} {form : TypeForm} {args : TypeArgs} {large : Bool}
  {params : List (TypeParam × TypeParamKind)} {val : TypeParam × TypeParamKind → TypeVal}

theorem contentsOf_integers :
    (contentsOf large (params.map fun p => (p.2, val p))).integers =
      params.flatMap fun p => if p.2.isInteger large then (val p).numbers else [] :=
  List.flatMap_map _ _ _

theorem contentsOf_largeCounts :
    (contentsOf large (params.map fun p => (p.2, val p))).largeCounts =
      params.flatMap fun p => if p.2.isLargeCount large then (val p).numbers else [] :=
  List.flatMap_map _ _ _

theorem call_integers_iff :
    (ctor.call impl form args).contents.integers = (ctor.abiContents form args).integers ↔
      ctor.sameNumbers impl args := by
  rw [TypeCall.contents, TypeCtor.call, TypeCtor.abiContents, contentsOf_integers,
    contentsOf_integers, flatMap_eq_iff]
  · exact forall_congr' fun p => imp_congr_right fun _ => convertTypeParam_integer_iff p.2
  · intro p _
    split
    · exact convertTypeParam_length p.2
    · rfl

theorem call_largeCounts :
    (ctor.call impl form args).contents.largeCounts = (ctor.abiContents form args).largeCounts := by
  rw [TypeCall.contents, TypeCtor.call, TypeCtor.abiContents, contentsOf_largeCounts,
    contentsOf_largeCounts]
  congr 1
  funext p
  exact convertTypeParam_largeCount p.2

end Contents

/-! ## The two calls -/

theorem errorcodeToabi_eq_zero {impl : ImplErrors} {e : Int32} {t : ErrorTable}
    (h : (errorcodeToabi impl e t).1 = 0) : e = 0 := by
  rcases (toabi_cases impl t e).back with hback | ⟨-, -, hother⟩
  · rw [h] at hback
    exact (Option.some.inj hback).symm
  · rw [h] at hother
    exact absurd hother (by decide)

/-- A handle that raises no flag has found none raised. -/
theorem handleToabi_flag {maps : Rmaps} {c : HandleClass} {bits : UInt64} {flag : Bool}
    (h : (handleToabi maps c bits flag).2 = false) : flag = false := by
  simp only [handleToabi] at h
  split at h
  · exact h
  · split at h
    · simp at h
    · exact h

theorem datatypesLoop_one {maps : Rmaps} {datatypes : Nat → UInt64} {i : Nat} {flag : Bool} :
    datatypesLoop maps datatypes i 1 flag =
      ([(handleToabi maps .datatype (datatypes i) flag).1],
        (handleToabi maps .datatype (datatypes i) flag).2) := rfl

section Calls

variable {impl : TypeImpl} {malloc : Nat → Bool} {create : TypeCall → TypeReply}
  {ctor : TypeCtor} {form : TypeForm} {args : TypeArgs} {w : World}

theorem refusal_ne_zero {code : Int32} (h : ctor.refusal impl form args malloc = some code) :
    code ≠ 0 := by
  simp only [TypeCtor.refusal] at h
  split at h
  · obtain rfl := Option.some.inj h
    decide
  · split at h
    · obtain rfl := Option.some.inj h
      decide
    · split at h
      · obtain rfl := Option.some.inj h
        decide
      · split at h
        · obtain rfl := Option.some.inj h
          decide
        · split at h
          · obtain rfl := Option.some.inj h
            decide
          · exact nomatch h

theorem finishCreate_ok {staged : Bool} {reply : TypeReply}
    (h : (finishCreate impl staged reply w).code = 0) :
    reply.ierror = 0 ∧ handleToabi impl.maps .datatype reply.newtype w.handleError =
      ((finishCreate impl staged reply w).newtype, false) := by
  rcases hp : (if reply.ierror = 0 then
      handleToabi impl.maps .datatype reply.newtype w.handleError
    else (abiNull .datatype, w.handleError)) with ⟨newtype, raised⟩
  simp only [finishCreate, hp] at h ⊢
  cases raised with
  | true => cases staged <;> exact absurd h (by simp [abiErrIntern])
  | false =>
      have hzero := errorcodeToabi_eq_zero h
      rw [if_pos hzero] at hp
      exact ⟨hzero, hp⟩

theorem typeCreate_ok (h : (typeCreate impl malloc create ctor form args w).code = 0) :
    typeCreate impl malloc create ctor form args w =
      finishCreate impl (ctor.staged impl form ≠ []) (create (ctor.call impl form args)) w := by
  simp only [typeCreate] at h ⊢
  split
  · next code hrefused =>
      rw [hrefused] at h
      exact absurd h (refusal_ne_zero hrefused)
  · rfl

/-- What a constructor returns names the implementation's datatype. -/
theorem typeCreate_names (h : (typeCreate impl malloc create ctor form args w).code = 0)
    (hbits : (create (ctor.call impl form args)).newtype ≠ rmapEmpty) :
    handleFromabi impl.handles .datatype
        (typeCreate impl malloc create ctor form args w).newtype =
      (create (ctor.call impl form args)).newtype := by
  have hfinish := typeCreate_ok h
  rw [hfinish] at h ⊢
  obtain ⟨-, hto⟩ := finishCreate_ok h
  have hflag : w.handleError = false := handleToabi_flag (congrArg Prod.snd hto)
  rw [hflag] at hto
  have hclass : HandleClass.datatype ∈ impl.handles.classes := by simp [ImplHandles.classes]
  have hback := (translates impl.built hclass hbits).roundtrip (congrArg Prod.snd hto)
  rw [hto] at hback
  exact hback

end Calls

section Query

variable {impl : TypeImpl} {malloc : Nat → Bool} {ndatatypes : UInt64 → Int32 × Int}
  {target : ContentsCall → ContentsReply} {form : TypeForm} {args : ContentsArgs} {w : World}

theorem finishContents_ok {c : ContentsCall} {reply : ContentsReply}
    (h : (finishContents impl c reply w).code = 0) : reply.ierror = 0 := by
  rcases hp : (if reply.ierror = 0 then
      ((some (datatypesLoop impl.maps reply.datatypes 0 c.args.maxDatatypes.toNat
        w.handleError).1 : Option (List UInt64)),
        (datatypesLoop impl.maps reply.datatypes 0 c.args.maxDatatypes.toNat w.handleError).2)
    else (none, w.handleError)) with ⟨datatypes, raised⟩
  simp only [finishContents, hp] at h
  cases raised with
  | true => exact absurd h (by simp [abiErrIntern])
  | false => exact errorcodeToabi_eq_zero h

/-- A query that succeeds has asked the implementation about the datatype that
the handle names, and left what it wrote. -/
theorem getContents_ok (h : (getContents impl malloc ndatatypes target form args w).code = 0) :
    ∃ c : ContentsCall, c.args.datatype = handleFromabi impl.handles .datatype args.datatype ∧
      c.large = decide (form = .large) ∧ (target c).ierror = 0 ∧
      (getContents impl malloc ndatatypes target form args w).integers =
        some (target c).integers ∧
      (getContents impl malloc ndatatypes target form args w).largeCounts =
        if c.large then some (target c).largeCounts else none := by
  simp only [getContents] at h ⊢
  split at h
  · exact absurd h (by simp [stoppedContents, abiErrUnsupportedOperation])
  · next habsent =>
      rw [if_neg habsent]
      split at h
      · exact absurd h (by simp [stoppedContents, abiErrValueTooLarge])
      · next hfits =>
          rw [if_neg hfits]
          split at h
          · next hierror => exact absurd (errorcodeToabi_eq_zero h) hierror
          · next hierror =>
              rw [if_neg hierror]
              split at h
              · exact absurd h (by simp [stoppedContents, abiErrIntern])
              · next hstage =>
                  rw [if_neg hstage]
                  exact ⟨_, rfl, rfl, finishContents_ok h, rfl, rfl⟩

end Query

/-! ## The way back -/

def givesBack (target : ContentsCall → ContentsReply) (datatype : UInt64) (contents : Contents) :
    Prop :=
  ∀ c : ContentsCall, c.args.datatype = datatype → (target c).ierror = 0 →
    (target c).integers = contents.integers ∧
      (c.large = true → (target c).largeCounts = contents.largeCounts)

/-- The integers that the caller gets, and the large counts if it gets any, are
those of the datatype. -/
def ContentsResult.are (r : ContentsResult) (contents : Contents) : Prop :=
  r.integers = some contents.integers ∧
    ∀ largeCounts, r.largeCounts = some largeCounts → largeCounts = contents.largeCounts

/-- A datatype is made by any constructor, and asked for its contents. -/
theorem type_contents_iff (impl : TypeImpl) (malloc malloc' : Nat → Bool)
    (create : TypeCall → TypeReply) (ctor : TypeCtor) (form form' : TypeForm) (args : TypeArgs)
    (ndatatypes : UInt64 → Int32 × Int) (target : ContentsCall → ContentsReply)
    (query : ContentsArgs) (w w' : World)
    (hbits : (create (ctor.call impl form args)).newtype ≠ rmapEmpty)
    (hback : givesBack target (create (ctor.call impl form args)).newtype
      (ctor.call impl form args).contents)
    (hmade : (typeCreate impl malloc create ctor form args w).code = 0)
    (hquery : query.datatype = (typeCreate impl malloc create ctor form args w).newtype)
    (hasked : (getContents impl malloc' ndatatypes target form' query w').code = 0) :
    (getContents impl malloc' ndatatypes target form' query w').are (ctor.abiContents form args) ↔
      ctor.sameNumbers impl args := by
  obtain ⟨c, hdatatype, -, hok, hintegers, hlarge⟩ := getContents_ok hasked
  rw [hquery, typeCreate_names hmade hbits] at hdatatype
  obtain ⟨hsame, hsame'⟩ := hback c hdatatype hok
  rw [ContentsResult.are, hintegers, hsame, Option.some.injEq, call_integers_iff]
  refine and_iff_left_of_imp fun _ largeCounts hl => ?_
  rw [hlarge] at hl
  split at hl
  · next hc =>
      rw [← Option.some.inj hl, hsame' hc, call_largeCounts]
  · exact nomatch hl

/-! ## An implementation with numbers of its own -/

/-- Two of its numbers are the ABI's. -/
def renumbered : TypeImpl :=
  { plainImpl with
    orderC := 56
    orderFortran := 15
    distributeNone := 123
    distributeBlock := 121
    distributeCyclic := 18
    distributeDfltDarg := -49767
    aintSize := 8 }

/-- Two dimensions, or two blocks, of a datatype of the application's. -/
def twoOfEach : TypeArgs where
  number param := if param = .order then 12 else 2
  array _ _ := 1
  handle _ := 0x5000
  handles _ _ := 0x5000

/-- They are the ones that these arguments have. -/
def cyclicColumns : TypeArgs where
  number param := if param = .order then 15 else 2
  array param _ := if param = .distribs then 18 else 1
  handle _ := 0x5000
  handles _ _ := 0x5000

def givesHandle (_ : TypeCall) : TypeReply := ⟨0, 0x6000⟩

/-- A truthful implementation, of one datatype. -/
def answers (contents : Contents) (_ : ContentsCall) : ContentsReply :=
  ⟨0, contents.integers, contents.addresses, contents.largeCounts,
    fun i => contents.datatypes.getD i 0⟩

def askAll : ContentsArgs := ⟨0x6000, 100, 100, 100, 100⟩

theorem plainDatatype_toabi {bits : UInt64} (hb : bits ∈ [0x5000, 0x6000]) :
    handleToabi plainImpl.maps .datatype bits false = (bits, false) := by
  rcases List.mem_cons.mp hb with rfl | hb
  · rw [plain_translates (by decide) (by decide) (by decide +kernel)]
    decide
  · rw [List.mem_singleton.mp hb, plain_translates (by decide) (by decide) (by decide +kernel)]
    decide

/-- A constructor that refuses nothing. -/
theorem typeCreate_renumbered {ctor : TypeCtor} {form : TypeForm} {args : TypeArgs}
    (h : ctor.refusal renumbered form args (fun _ => true) = none) :
    typeCreate renumbered (fun _ => true) givesHandle ctor form args plainWorld =
      ⟨0, 0x6000, plainWorld⟩ := by
  have hto : handleToabi renumbered.maps .datatype 0x6000 false = (0x6000, false) :=
    plainDatatype_toabi (by decide)
  have hflag : plainWorld.handleError = false := rfl
  simp only [typeCreate, h, givesHandle, finishCreate, if_true, hflag, hto]
  rfl

theorem finishContents_renumbered {c : ContentsCall} {contents : Contents}
    (hone : c.args.maxDatatypes = 1) (h : contents.datatypes = [0x5000]) :
    (finishContents renumbered c (answers contents c) plainWorld).code = 0 := by
  have hto : handleToabi renumbered.maps .datatype 0x5000 false = (0x5000, false) :=
    plainDatatype_toabi (by decide)
  have hbits : (answers contents c).datatypes 0 = 0x5000 := by
    rw [answers, h]
    rfl
  have hloop : datatypesLoop renumbered.maps (answers contents c).datatypes 0 1 false =
      ([0x5000], false) := by
    rw [datatypesLoop_one, hbits, hto]
  have hflag : plainWorld.handleError = false := rfl
  have hraise : (answers contents c).ierror = 0 := rfl
  simp only [finishContents, hraise, if_true, hone, hflag, Int.toNat_one, hloop]
  rfl

theorem getContents_renumbered {contents : Contents} (h : contents.datatypes = [0x5000]) :
    (getContents renumbered (fun _ => true) (fun _ => (0, 1)) (answers contents) .small askAll
      plainWorld).code = 0 := by
  have hstage : spawnStageOk (fun _ => true) renumbered.datatypeSize 1 = true := by decide
  have hone : (max (min 1 askAll.maxDatatypes) 0) = 1 := by decide
  simp only [getContents, hone, Int.toNat_one, hstage]
  rw [if_neg (by decide), if_neg (by decide), if_neg (by decide), if_neg (by decide)]
  exact finishContents_renumbered rfl h

theorem answers_givesBack {contents : Contents} {datatype : UInt64} :
    givesBack (answers contents) datatype contents := fun _ _ _ => ⟨rfl, fun _ => rfl⟩

/-- Columns that are dealt out in turn, and what they are made of. -/
theorem type_contents_darray :
    (getContents renumbered (fun _ => true) (fun _ => (0, 1))
      (answers (TypeCtor.darray.call renumbered .small cyclicColumns).contents) .small askAll
      plainWorld).are (TypeCtor.darray.abiContents .small cyclicColumns) := by
  have hnone : TypeCtor.darray.refusal renumbered .small cyclicColumns (fun _ => true) = none := by
    decide
  have hmade := typeCreate_renumbered hnone
  have hsame : TypeCtor.darray.sameNumbers renumbered cyclicColumns := by
    have hdistribs : keptBy renumbered.distributeRows 18 := by decide
    have hdargs : keptBy renumbered.dargRows 1 := by decide
    simp only [TypeCtor.sameNumbers, TypeCtor.params, List.forall_mem_cons]
    exact ⟨trivial, by decide, trivial, trivial, fun _ _ => hdistribs, fun _ _ => hdargs, trivial,
      by decide, trivial, nofun⟩
  refine (type_contents_iff renumbered (fun _ => true) (fun _ => true) givesHandle .darray .small
    .small cyclicColumns (fun _ => (0, 1)) _ askAll plainWorld plainWorld ?_ answers_givesBack ?_ ?_
    (getContents_renumbered ?_)).mpr hsame
  · decide
  · rw [hmade]
  · rw [hmade]
    rfl
  · rfl

/-- The order of a subarray comes back as the implementation's. -/
theorem subarray_order_differs :
    ¬ ∀ (impl : TypeImpl) (malloc malloc' : Nat → Bool) (create : TypeCall → TypeReply)
      (ctor : TypeCtor) (form form' : TypeForm) (args : TypeArgs)
      (ndatatypes : UInt64 → Int32 × Int) (target : ContentsCall → ContentsReply)
      (query : ContentsArgs) (w w' : World),
      (create (ctor.call impl form args)).newtype ≠ rmapEmpty →
      givesBack target (create (ctor.call impl form args)).newtype
        (ctor.call impl form args).contents →
      (typeCreate impl malloc create ctor form args w).code = 0 →
      query.datatype = (typeCreate impl malloc create ctor form args w).newtype →
      (getContents impl malloc' ndatatypes target form' query w').code = 0 →
        (getContents impl malloc' ndatatypes target form' query w').are
          (ctor.abiContents form args) := by
  intro h
  have hnone : TypeCtor.subarray.refusal renumbered .small twoOfEach (fun _ => true) = none := by
    decide
  have hmade := typeCreate_renumbered hnone
  have hbad := h renumbered (fun _ => true) (fun _ => true) givesHandle .subarray .small .small
    twoOfEach (fun _ => (0, 1)) (answers (TypeCtor.subarray.call renumbered .small
      twoOfEach).contents) askAll plainWorld plainWorld (by decide) answers_givesBack
    (by rw [hmade]) (by rw [hmade]; rfl) (getContents_renumbered rfl)
  have hnot : ¬ TypeCtor.subarray.sameNumbers renumbered twoOfEach := by
    intro hsame
    have hkept : keptBy renumbered.orderRows 12 := hsame (.order, .order) (by decide)
    exact absurd hkept (by decide)
  have hone : (TypeCtor.subarray.call renumbered .small twoOfEach).contents.datatypes =
      [0x5000] := rfl
  obtain ⟨c, -, -, -, hintegers, -⟩ := getContents_ok (getContents_renumbered hone)
  exact hnot (call_integers_iff.mp (Option.some.inj (hintegers.symm.trans hbad.1)))

end AbiWrapper.Ref
