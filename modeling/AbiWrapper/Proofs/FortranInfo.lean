import AbiWrapper.Ref.FortranInfo
import AbiWrapper.Proofs.Conversion
import AbiWrapper.Proofs.HandleBijection

/-!
# Whose the kept info object is

Setting copies, getting does not. So the kept object is safe from the handle
that was passed in, which is another object's, and is at the mercy of every
handle that was passed out, which is its own. `FortranInv` says that the object
is live and what it contains; it survives every action but one on the object
itself, and those are exactly what the runs of `fortran_info_kept` leave out.
-/

namespace AbiWrapper.Ref

open AbiWrapper.Lib

/-- A later get hands out a live object with what the set was given. -/
def FortranInfoKept (impl : Impl) (s : FortranState) : Prop :=
  ∀ content, s.given = some content → ∀ derive,
    (s.getFortranInfo impl derive).1 = 0 ∧
      (s.getFortranInfo impl derive).2.2.infos
        (handleFromabi impl.handles .info (s.getFortranInfo impl derive).2.1) = some content

structure FortranInv (impl : Impl) (s : FortranState) : Prop where
  down : s.world.handleError = false
  published : s.given ≠ none → s.published = true
  claimed : s.published = true → s.claimed = true
  kept : s.published = true → s.given ≠ none ∧ s.infos s.fortranInfo = s.given ∧
    namedByAbi impl s.fortranInfo

namespace FortranInv

variable {impl : Impl} {s s' : FortranState} {info abi : UInt64} {content : Option InfoContent}
  {world : World} {code : Int32}

theorem init (infos : UInt64 → Option InfoContent) : FortranInv impl (.init infos) where
  down := rfl
  published h := absurd rfl h
  claimed h := absurd h Bool.false_ne_true
  kept h := absurd h Bool.false_ne_true

/-- Another object is made, freed or modified. -/
theorem setInfo (h : FortranInv impl s) (hne : s.published = true → info ≠ s.fortranInfo) :
    FortranInv impl (s.setInfo info content) where
  down := h.down
  published := h.published
  claimed := h.claimed
  kept hp := by
    obtain ⟨hgiven, hcontent, hnamed⟩ := h.kept hp
    refine ⟨hgiven, ?_, hnamed⟩
    show Function.update s.infos info content s.fortranInfo = s.given
    rw [Function.update_of_ne (hne hp).symm]
    exact hcontent

/-- The handle of a new object is not the kept one's. -/
theorem fresh (h : FortranInv impl s) (hfree : s.infos info = none) :
    s.published = true → info ≠ s.fortranInfo := by
  intro hp he
  obtain ⟨hgiven, hcontent, -⟩ := h.kept hp
  rw [he, hcontent] at hfree
  exact hgiven hfree

theorem setWorld (h : FortranInv impl s) (hw : world.handleError = false) :
    FortranInv impl { s with world } := ⟨hw, h.published, h.claimed, h.kept⟩

theorem handed (h : FortranInv impl s) : FortranInv impl (s.handed code abi) := by
  rw [FortranState.handed]
  split
  · exact ⟨h.down, h.published, h.claimed, h.kept⟩
  · exact h

theorem toabi_down {w : World} {ierror : Int32} (hw : w.handleError = false) :
    (w.toabi impl ierror).2.handleError = false := hw

theorem set (h : FortranInv impl s) {dup : Option (Except Int32 UInt64)}
    (hlive : ∀ d, dup = some (.ok d) →
      s.infos d = none ∧ s.infos (handleFromabi impl.handles .info abi) ≠ none)
    (hg : keptAlone impl s (.set dup abi)) :
    FortranInv impl (s.setFortranInfo impl dup abi).2 := by
  cases dup with
  | none => exact h
  | some dup =>
      simp only [FortranState.setFortranInfo]
      split
      · exact h
      · next hc =>
          have hno : s.claimed = false := by simpa using hc
          have hunpub : s.published ≠ true := fun hp => by simp [h.claimed hp] at hno
          cases dup with
          | error ierror =>
              exact ⟨toabi_down h.down, h.published, fun _ => rfl, h.kept⟩
          | ok d =>
              obtain ⟨-, hcontent⟩ := hlive d rfl
              refine ⟨h.down, fun _ => rfl, fun _ => rfl, fun _ => ⟨hcontent, ?_, hg hno⟩⟩
              exact Function.update_self _ _ _

theorem get (h : FortranInv impl s) {derive : Derive}
    (hfree : ∀ sizes info, derive = .made sizes info → s.infos info = none) :
    FortranInv impl (s.getFortranInfo impl derive).2.2 := by
  simp only [FortranState.getFortranInfo]
  split
  · exact h.setWorld rfl
  · cases derive with
    | unusable => exact h
    | refused ierror | unset ierror => exact h.setWorld (toabi_down h.down)
    | made sizes info => exact (h.setInfo (h.fresh (hfree sizes info rfl))).setWorld rfl

theorem reached {p : UInt64 × InfoContent} (hr : s.reached impl abi = some p) :
    p.1 = handleFromabi impl.handles .info abi := by
  simp only [FortranState.reached] at hr
  split at hr
  · obtain ⟨content, -, rfl⟩ := Option.map_eq_some_iff.mp hr
    rfl
  · exact nomatch hr

theorem step (h : FortranInv impl s) {a : FortranAct} (hg : keptAlone impl s a)
    (hs : s.step impl a = some s') : FortranInv impl s' := by
  cases a with
  | create info content =>
      simp only [FortranState.step] at hs
      split at hs
      · next hfree =>
          obtain rfl := Option.some.inj hs
          exact ((h.setInfo (h.fresh hfree)).setWorld rfl).handed
      · exact nomatch hs
  | set dup abiInfo =>
      simp only [FortranState.step] at hs
      split at hs
      · split at hs
        · next d hlive =>
            obtain rfl := Option.some.inj hs
            refine h.set (fun d' hd => ?_) hg
            obtain rfl := Except.ok.inj (Option.some.inj hd)
            exact hlive
        · exact nomatch hs
      · next hno =>
          obtain rfl := Option.some.inj hs
          exact h.set (fun d hd => absurd hd (hno d)) hg
  | get derive =>
      simp only [FortranState.step] at hs
      split at hs
      · next sizes info =>
          split at hs
          · next hfree =>
              obtain rfl := Option.some.inj hs
              refine (h.get fun sizes' info' he => ?_).handed
              obtain ⟨-, rfl⟩ := Derive.made.inj he
              exact hfree
          · exact nomatch hs
      · next hno =>
          obtain rfl := Option.some.inj hs
          exact (h.get fun sizes info he => absurd he (hno sizes info)).handed
  | free abiInfo =>
      obtain ⟨p, hr, rfl⟩ := Option.map_eq_some_iff.mp hs
      have hset : FortranInv impl (s.setInfo p.1 none) := by
        refine h.setInfo fun hp => ?_
        rw [reached hr]
        exact hg hp
      exact ⟨hset.down, hset.published, hset.claimed, hset.kept⟩
  | put abiInfo key value =>
      obtain ⟨p, hr, rfl⟩ := Option.map_eq_some_iff.mp hs
      refine h.setInfo fun hp => ?_
      rw [reached hr]
      exact hg hp

theorem infoKept (h : FortranInv impl s) : FortranInfoKept impl s := by
  intro content hgiven derive
  have hp : s.published = true := h.published (by simp [hgiven])
  obtain ⟨-, hcontent, hflag, hback⟩ := h.kept hp
  simp only [FortranState.getFortranInfo, if_pos hp, World.infoToabi, h.down, takeHandleError,
    hflag]
  refine ⟨rfl, ?_⟩
  show s.infos _ = some content
  rw [hback, hcontent, hgiven]

end FortranInv

/-- After every run in which the caller leaves the kept object alone, a get
hands it out as it was set. -/
theorem fortran_info_kept (impl : Impl) (infos : UInt64 → Option InfoContent)
    (acts : List FortranAct) (s : FortranState)
    (hm : Meets (FortranState.step impl) (keptAlone impl) (.init infos) acts)
    (he : exec (FortranState.step impl) (.init infos) acts = some s) : FortranInfoKept impl s :=
  (exec_invariant (fun _ _ _ h hg hs => FortranInv.step h hg hs) (.init infos) hm he).infoKept

/-! ## A caller that frees what it gets -/

/-- A handle outside the reserved range that is no predefined one's. -/
theorem infoToabi_dynamic {impl : Impl} {info : UInt64} {w : World}
    (hno : ∀ p, p ∈ impl.handles.predef .info → p.2 ≠ info) (hr : ¬ inPredefRange info)
    (he : info ≠ rmapEmpty) (hw : w.handleError = false) :
    w.infoToabi impl info = (info, false, { w with handleError := false }) ∧
      namedByAbi impl info := by
  have hc : HandleClass.info ∈ impl.handles.classes := by simp [ImplHandles.classes]
  obtain ⟨hto, hfrom⟩ := (translates impl.built hc he).dynamic hno hr false
  rw [World.infoToabi, namedByAbi, hw, hto]
  exact ⟨rfl, rfl, hfrom⟩

theorem plainInfo_dynamic {info : UInt64} {w : World} (h : info ∈ [0x6000, 0x7000])
    (hw : w.handleError = false) :
    w.infoToabi plainImpl info = (info, false, { w with handleError := false }) ∧
      namedByAbi plainImpl info := by
  rcases List.mem_cons.mp h with rfl | h
  · exact infoToabi_dynamic (predef_ne (by decide +kernel)) (by decide) (by decide) hw
  · rw [List.mem_singleton.mp h]
    exact infoToabi_dynamic (predef_ne (by decide +kernel)) (by decide) (by decide) hw

/-- The objects of an implementation with nothing but `MPI_INFO_ENV`. -/
def envInfos (info : UInt64) : Option InfoContent :=
  if info = 0x131 then some [("mpi_logical_size", "4")] else none

/-- The caller goes on with its own object, and frees it. -/
def ownObjectFreed : List FortranAct :=
  [.create 0x7000 [("mpi_logical_size", "4")], .set (some (.ok 0x6000)) 0x7000,
    .put 0x7000 "mpi_logical_size" "8", .free 0x7000]

theorem fortran_info_kept_own : ∃ s,
    exec (FortranState.step plainImpl) (.init envInfos) ownObjectFreed = some s ∧
      s.given = some [("mpi_logical_size", "4")] ∧ FortranInfoKept plainImpl s := by
  have hown : ∀ w : World, w.handleError = false → w.infoToabi plainImpl 0x7000 =
      (0x7000, false, { w with handleError := false }) :=
    fun w hw => (plainInfo_dynamic (by decide) hw).1
  have hnamed : namedByAbi plainImpl 0x6000 :=
    (plainInfo_dynamic (w := plainWorld) (by decide) rfl).2
  have hback : handleFromabi plainImpl.handles .info 0x7000 = 0x7000 := by decide +kernel
  have hgiven : (exec (FortranState.step plainImpl) (.init envInfos) ownObjectFreed).map
      (·.given) = some (some [("mpi_logical_size", "4")]) := by
    simp [ownObjectFreed, exec, FortranState.step, FortranState.init, envInfos, hown, hback,
      FortranState.handed, FortranState.setFortranInfo, FortranState.reached,
      FortranState.setInfo]
  have hmeets : Meets (FortranState.step plainImpl) (keptAlone plainImpl) (.init envInfos)
      ownObjectFreed := by
    simp [Meets, ownObjectFreed, keptAlone, FortranState.step, FortranState.init, envInfos, hown,
      hback, hnamed, FortranState.handed, FortranState.setFortranInfo, FortranState.reached,
      FortranState.setInfo]
  obtain ⟨s, hs, hgiven⟩ := Option.map_eq_some_iff.mp hgiven
  exact ⟨s, hs, hgiven, fortran_info_kept plainImpl envInfos ownObjectFreed s hmeets hs⟩

section Freed

variable {impl : Impl} {s : FortranState}

/-- What a get answers of an object whose handle keeps its bits. -/
theorem getFortranInfo_kept (hp : s.published = true) (hdown : s.world.handleError = false)
    (hdyn : handleToabi impl.maps .info s.fortranInfo false = (s.fortranInfo, false)) :
    s.getFortranInfo impl .unusable =
      (0, s.fortranInfo, { s with world := { s.world with handleError := false } }) := by
  simp only [FortranState.getFortranInfo, if_pos hp, World.infoToabi, hdown, hdyn,
    takeHandleError]
  rfl

def FortranState.afterFree (s : FortranState) : FortranState :=
  { s.setInfo s.fortranInfo none with
    world := { s.world with handleError := false }
    owned := (s.owned ++ [s.fortranInfo]).erase s.fortranInfo }

theorem exec_get_free (hp : s.published = true) (hdown : s.world.handleError = false)
    (hdyn : handleToabi impl.maps .info s.fortranInfo false = (s.fortranInfo, false))
    (hback : handleFromabi impl.handles .info s.fortranInfo = s.fortranInfo)
    (hlive : s.infos s.fortranInfo ≠ none) :
    exec (FortranState.step impl) s [.get .unusable, .free s.fortranInfo] =
      some s.afterFree := by
  obtain ⟨content, hc⟩ := Option.ne_none_iff_exists'.mp hlive
  simp only [exec_cons, exec_nil, FortranState.step, getFortranInfo_kept hp hdown hdyn,
    FortranState.handed, FortranState.reached, if_true, Option.bind_some, hback, hc,
    Option.map_some, List.mem_append, List.mem_singleton, or_true]
  rfl

theorem afterFree_not_kept (hp : s.published = true) (hgiven : s.given ≠ none)
    (hdyn : handleToabi impl.maps .info s.fortranInfo false = (s.fortranInfo, false))
    (hback : handleFromabi impl.handles .info s.fortranInfo = s.fortranInfo) :
    ¬ FortranInfoKept impl s.afterFree := by
  intro hkept
  obtain ⟨content, hc⟩ := Option.ne_none_iff_exists'.mp hgiven
  obtain ⟨-, hbad⟩ := hkept content hc .unusable
  have hget : s.afterFree.getFortranInfo impl .unusable =
      (0, s.fortranInfo, s.afterFree) := getFortranInfo_kept hp rfl hdyn
  rw [hget] at hbad
  have hdead : Function.update s.infos s.fortranInfo none
      (handleFromabi impl.handles .info s.fortranInfo) = some content := hbad
  rw [hback, Function.update_self] at hdead
  exact nomatch hdead

end Freed

/-- The caller frees the handle a get returned, as that of a derived object is
the caller's to free. -/
theorem fortran_info_freed :
    ¬ ∀ (impl : Impl) (infos : UInt64 → Option InfoContent) (acts : List FortranAct)
      (s : FortranState), exec (FortranState.step impl) (.init infos) acts = some s →
        FortranInfoKept impl s := by
  intro h
  obtain ⟨s, hset, hp, hinfo, hdown, hgiven, hlive⟩ : ∃ s : FortranState,
      (FortranState.init envInfos).step plainImpl (.set (some (.ok 0x6000)) 0x131) = some s ∧
        s.published = true ∧ s.fortranInfo = 0x6000 ∧ s.world.handleError = false ∧
        s.given ≠ none ∧ s.infos 0x6000 ≠ none :=
    ⟨_, rfl, rfl, rfl, rfl, Option.some_ne_none _, Option.some_ne_none _⟩
  have hdyn : handleToabi plainImpl.maps .info s.fortranInfo false = (s.fortranInfo, false) := by
    rw [hinfo]
    rw [plain_translates (by decide) (by decide) (by decide +kernel)]
    decide
  have hback : handleFromabi plainImpl.handles .info s.fortranInfo = s.fortranInfo := by
    rw [hinfo]
    exact handleFromabi_dynamic (by decide)
  have hrun : exec (FortranState.step plainImpl) (.init envInfos)
      [.set (some (.ok 0x6000)) 0x131, .get .unusable, .free s.fortranInfo] =
        some s.afterFree := by
    rw [exec_cons, hset, Option.bind_some]
    exact exec_get_free hp hdown hdyn hback (hinfo ▸ hlive)
  exact afterFree_not_kept hp hgiven hdyn hback (h _ _ _ _ hrun)

end AbiWrapper.Ref
