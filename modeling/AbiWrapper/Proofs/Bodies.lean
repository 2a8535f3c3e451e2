import AbiWrapper.Lib.Simulation
import AbiWrapper.Proofs.Bitmasks
import AbiWrapper.Proofs.Constants
import AbiWrapper.Proofs.Conversion
import AbiWrapper.Proofs.StatusOps
import AbiWrapper.Ref.Bodies

/-!
# A program does the same behind the wrapper

An ABI value names an implementation's if it is converted to that, whatever is
interned in the table of error codes later (`ValueNames`). A variable of a program
behind the wrapper names what the same variable has without it; so the arguments
of every call are the ones that the implementation would have been given, and it
does the same. What it writes is named again as long as it is a value that the
implementation can mean (`NamedKind.proper`): `toabi_names` has one case for
each way a value crosses.

The flag of a handle that the ABI cannot name stays down all along, so it is
never taken for the error of another call.
-/

namespace AbiWrapper.Ref

open AbiWrapper.Lib

variable {fmt : IntFormat} {L : StatusLayout} {σ : Type} {impl : ImplApp fmt L σ}

/-! ## Values -/

/-- An ABI value is converted to this one, now and from now on. -/
def ValueNames (impl : ImplApp fmt L σ) (t : ErrorTable) (k : ValueKind) (abi v : k.Value) : Prop :=
  ∀ t', t.Extends t' → impl.fromabi t' k abi = some v

/-- A value that an implementation can mean: a handle that is predefined or
outside the ABI's range, a constant that is a name's or nobody's, and flags of
the family. -/
def NamedKind.proper (impl : ImplApp fmt L σ) : (k : NamedKind) → k.Value → Prop
  | .handle c, v => ProperHandle impl.status.handles c v
  | .const f, v => v ∈ (impl.consts f).values ∨ v ∉ f.abis
  | .mask f, v => v &&& union (f.abis.map (impl.masks f).code) = v
  | .errorcode, _ | .plain, _ => True

def ValueKind.proper (impl : ImplApp fmt L σ) : (k : ValueKind) → k.Value → Prop
  | .named k, v => k.proper impl v
  | .color, _ | .buffer _, _ => True

theorem ValueNames.mono {t t' : ErrorTable} {k : ValueKind} {abi v : k.Value}
    (h : ValueNames impl t k abi v) (hext : t.Extends t') : ValueNames impl t' k abi v :=
  fun _ hext' => h _ (hext.trans hext')

theorem Toabi.count_le {errors : ImplErrors} {e abi : Int32} {t t' : ErrorTable}
    (h : Toabi errors t e abi t') : t'.count ≤ t.count + 1 := by
  cases h with
  | success => exact Nat.le_succ _
  | row => exact Nat.le_succ _
  | known => exact Nat.le_succ _
  | interned _ _ _ ha => exact Nat.le_of_eq (Registry.append_eq_some ha).2.2.1
  | refused => exact Nat.le_succ _

theorem toabi_count {errors : ImplErrors} {e : Int32} {t : ErrorTable} :
    (errorcodeToabi errors e t).2.count ≤ t.count + 1 := (toabi_cases errors t e).count_le

/-- What crosses without a table. -/
theorem toabi_names_const {f : ClosedFamily} {numbering : ConstNumbering f} {v : Int32}
    (h : v ∈ numbering.values ∨ v ∉ f.abis) : numbering.fromabi (numbering.toabi v) = v := by
  refine Sentinels.back (f.abis_nodup.sublist ConstNumbering.compiled_abis) ?_
  rcases h with h | h
  · have hsnd : numbering.cases.map Prod.snd = numbering.values := ConstNumbering.cases_snd
    exact .inl (hsnd ▸ h)
  · exact .inr fun hm => h (ConstNumbering.compiled_abis.subset hm)

theorem toabi_names {k : NamedKind} {v : k.Value} {t : ErrorTable}
    (hroom : t.count < errorcodeSlots) (h : k.proper impl v) :
    ValueNames impl (impl.toabi k v (t, false)).2.1 (.named k) (impl.toabi k v (t, false)).1 v ∧
      (impl.toabi k v (t, false)).2.2 = false := by
  cases k with
  | handle c =>
      obtain ⟨hflag, hback⟩ := ProperHandle.back h impl.built
      exact ⟨fun _ _ => congrArg some hback, hflag⟩
  | const f => exact ⟨fun _ _ => congrArg some (toabi_names_const h), rfl⟩
  | mask f => exact ⟨fun _ _ => congrArg some (((impl.masks f).fromabi_toabi v).trans h), rfl⟩
  | errorcode => exact ⟨errorNames_toabi hroom, rfl⟩
  | plain => exact ⟨fun _ _ => rfl, rfl⟩

/-- What a body leaves in the table, whatever it converts. -/
theorem toabi_table {k : NamedKind} {v : k.Value} {t : ErrorTable} {flag : Bool} :
    t.Extends (impl.toabi k v (t, flag)).2.1 ∧
      (impl.toabi k v (t, flag)).2.1.count ≤ t.count + 1 := by
  cases k with
  | handle c => exact ⟨.refl t, Nat.le_succ _⟩
  | const f => exact ⟨.refl t, Nat.le_succ _⟩
  | mask f => exact ⟨.refl t, Nat.le_succ _⟩
  | errorcode => exact ⟨toabi_extends, toabi_count⟩
  | plain => exact ⟨.refl t, Nat.le_succ _⟩

/-- Only handles raise the flag. -/
theorem toabi_quiet {k : NamedKind} {v : k.Value} {t : ErrorTable} (h : k.null = none) :
    (impl.toabi k v (t, false)).2.2 = false := by
  cases k with
  | handle c => cases h
  | const f => rfl
  | mask f => rfl
  | errorcode => rfl
  | plain => rfl

/-! ## Programs -/

/-- A program behind the wrapper and the same one without it. -/
structure AppRel (impl : ImplApp fmt L σ) (n : NativeApp σ) (s : AppState σ) : Prop where
  statuses : StatusRel impl.status n.statuses s.statuses
  vars : StoresRelated (fun x abi v => ValueNames impl s.statuses.errors x.kind abi v ∧
    x.kind.proper impl v) s.vars n.vars
  quiet : s.handleError = false
  world : s.world = n.world
  calls : s.calls = n.calls

/-- What a function may write through the parameter at `i`. -/
def replyOk (impl : ImplApp fmt L σ) (reply : ImplReply σ) (i : Nat) : BodyParam → Prop
  | .input _ | .output _ none | .status none => True
  | .output k (some _) =>
      (k.null ≠ none → reply.ierror = 0 → reply.wrote k i ≠ none) ∧
        ∀ v, reply.defined k i = some v → k.proper impl v
  | .inout k _ => ∀ v, reply.wrote k i = some v → k.proper impl v
  | .status (some _) => ∀ st withError, reply.status i = some (st, withError) →
      ProperStatus impl.status st ∧ (withError = true ↔ EmptyStatus impl.status st)

theorem statusToabi_count {withError : Bool} {st abi stack : Bytes} {t : ErrorTable}
    {impl : StatusImpl} :
    (statusToabi fmt L impl withError st abi stack t).2.count ≤ t.count + 1 := by
  rw [statusToabi]
  split
  · exact toabi_count
  · exact Nat.le_succ _

/-- A variable that the implementation has left without a status. -/
theorem StatusRel.forget {impl : ImplStatus fmt L} {n : NativeState} {s : StatusState} {v : Nat}
    {r : Bytes × ErrorTable} (h : StatusRel impl n s) (hext : s.errors.Extends r.2)
    (hdef : ErrorDefined fmt r.1) : StatusRel impl (n.forget v) (s.store v r) where
  status w st hw := by
    simp only [NativeState.forget, StatusState.store, Function.update_apply] at hw ⊢
    split at hw
    · cases hw
    · next hwv => simpa only [hwv, if_false] using (h.status w st hw).mono hext
  mark w hw := by
    simp only [NativeState.forget, Function.update_apply] at hw ⊢
    split
    · rfl
    · next hwv => exact h.mark w (by simpa only [hwv, if_false] using hw)
  defined := forall_update hdef h.defined
  answers := h.answers.imp fun _ _ ha => ha.mono hext

theorem statusStored_extends {impl : ImplStatus fmt L} {e : Int32} {st abi stack : Bytes}
    {t : ErrorTable} : t.Extends (statusStored fmt L impl e st abi stack t).2.2 := by
  rw [statusStored]
  by_cases h0 : e = 0
  · simp only [h0, if_true]
    exact statusToabi_extends.trans toabi_extends
  · simp only [h0, if_false]
    exact toabi_extends

theorem StatusState.step_extends {impl : ImplStatus fmt L} {s s' : StatusState} {a : StatusAct}
    (h : s.step impl a = some s') : s.errors.Extends s'.errors := by
  obtain ⟨op, stack⟩ := a
  cases op with
  | receive v status withError =>
      cases h
      show s.errors.Extends (statusToabi fmt L impl.consts false
        (StatusState.filled fmt L status withError) (s.abi v) stack s.errors).2
      exact statusToabi_extends
  | complete v status withError =>
      cases h
      show s.errors.Extends (statusToabi fmt L impl.consts true
        (StatusState.filled fmt L status withError) (s.abi v) stack s.errors).2
      exact statusToabi_extends
  | query q v abiDatatype datatype =>
      obtain ⟨r, hr, rfl⟩ := Option.map_eq_some_iff.mp h
      rw [statusQuery] at hr
      split at hr
      · cases hr
        exact .refl _
      · obtain ⟨down, -, rfl⟩ := Option.map_eq_some_iff.mp hr
        exact toabi_extends
  | testCancelled v =>
      obtain ⟨r, hr, rfl⟩ := Option.map_eq_some_iff.mp h
      rw [testCancelled] at hr
      split at hr
      · obtain ⟨down, -, rfl⟩ := Option.map_eq_some_iff.mp hr
        exact toabi_extends
      · cases hr
        exact .refl _
  | setElements q v abiDatatype datatype count =>
      obtain ⟨r, hr, rfl⟩ := Option.map_eq_some_iff.mp h
      rw [statusSetElements] at hr
      split at hr
      · cases hr
        exact .refl _
      · obtain ⟨down, -, rfl⟩ := Option.map_eq_some_iff.mp hr
        exact statusStored_extends
  | setCancelled v flag =>
      obtain ⟨r, hr, rfl⟩ := Option.map_eq_some_iff.mp h
      rw [statusSetCancelled] at hr
      split at hr
      · obtain ⟨down, -, rfl⟩ := Option.map_eq_some_iff.mp hr
        exact statusStored_extends
      · cases hr
        exact .refl _
  | getField f v =>
      cases h
      exact .refl _
  | setField f v abi value =>
      cases h
      exact .refl _
  | convert src dst =>
      cases h
      exact .refl _

namespace AppRel

variable {n n₀ : NativeApp σ} {s s₀ : AppState σ}

theorem init {abi : Nat → Bytes} {vars : (x : Var) → x.kind.Value} {world : σ}
    (hdef : ∀ v, ErrorDefined fmt (abi v)) :
    AppRel impl (.init world) (.init abi vars world) where
  statuses := .init hdef
  vars := .empty
  quiet := rfl
  world := rfl
  calls := rfl

/-- A variable that names what it is given. -/
theorem assign {x : Var} {abi : x.kind.Value} {native : Option x.kind.Value} (h : AppRel impl n s)
    (hnames : ∀ v, native = some v →
      ValueNames impl s.statuses.errors x.kind abi v ∧ x.kind.proper impl v) :
    AppRel impl { n with vars := Function.update n.vars x native }
      { s with vars := Function.update s.vars x abi } :=
  { h with vars := h.vars.update hnames }

/-- The statement of an output: where the variable has a value, the converted one
is that value, and proper. -/
theorem posted {k : NamedKind} {id : Nat} {v : k.Value} {native : Option k.Value}
    (h : AppRel impl n s) (hroom : s.statuses.errors.count < errorcodeSlots)
    (hquiet : k.null = none ∨ k.proper impl v)
    (hv : ∀ w, native = some w → v = w ∧ k.proper impl w) :
    AppRel impl (n.store k id native) (s.posted impl k id v) := by
  have htable : s.statuses.errors.Extends (impl.toabi k v (s.statuses.errors, false)).2.1 ∧
      _ := toabi_table
  have hflag : (impl.toabi k v (s.statuses.errors, false)).2.2 = false := by
    rcases hquiet with hnull | hproper
    · exact toabi_quiet hnull
    · exact (toabi_names hroom hproper).2
  rw [AppState.posted, h.quiet]
  refine ⟨h.statuses.mono htable.1, ?_, hflag, h.world, h.calls⟩
  refine (h.vars.mono fun _ _ _ hx => ⟨hx.1.mono htable.1, hx.2⟩).update fun w hw => ?_
  obtain ⟨rfl, hproper⟩ := hv w hw
  exact ⟨(toabi_names hroom hproper).1, hproper⟩

theorem posted_count {k : NamedKind} {id : Nat} {v : k.Value} :
    (s.posted impl k id v).statuses.errors.count ≤ s.statuses.errors.count + 1 := toabi_table.2

/-- What an output's statement leaves. A handle is looked at where the call has
succeeded, and then there is one. -/
theorem post_output {reply : ImplReply σ} {stack : BodyStack} {i : Nat} {k : NamedKind} {id : Nat}
    (h : AppRel impl n s) (hroom : s.statuses.errors.count < errorcodeSlots)
    (hok : replyOk impl reply i (.output k (some id))) :
    AppRel impl (NativeApp.post fmt L n₀ reply i n (.output k (some id)))
        (AppState.post impl s₀ stack reply i s (.output k (some id))) ∧
      (AppState.post impl s₀ stack reply i s (.output k (some id))).statuses.errors.count ≤
        s.statuses.errors.count + 1 := by
  obtain ⟨hwritten, hproper⟩ := hok
  simp only [NativeApp.post, AppState.post]
  cases hnull : k.null with
  | none =>
      have hdefined : reply.defined k i = reply.wrote k i := by
        rw [ImplReply.defined, hnull]
        exact if_neg nofun
      refine ⟨h.posted hroom (.inl hnull) fun w hw => ?_, posted_count⟩
      rw [← hdefined, hw]
      exact ⟨rfl, hproper w hw⟩
  | some null =>
      by_cases h0 : reply.ierror = 0
      · have hdefined : reply.defined k i = reply.wrote k i := by
          rw [ImplReply.defined]
          exact if_neg fun hne => hne.2 h0
        obtain ⟨w, hw⟩ := Option.ne_none_iff_exists'.mp
          (hwritten (by rw [hnull]; exact nofun) h0)
        have hpw := hproper w (hdefined.trans hw)
        simp only [h0, if_true, hdefined, hw, Option.getD_some]
        refine ⟨h.posted hroom (.inr hpw) fun w' hw' => ?_, posted_count⟩
        cases hw'
        exact ⟨rfl, hpw⟩
      · -- A call that has failed has made no handle.
        have hdefined : reply.defined k i = none := by
          rw [ImplReply.defined, hnull]
          exact if_pos ⟨rfl, h0⟩
        simp only [h0, if_false, hdefined]
        exact ⟨h.assign nofun, Nat.le_succ _⟩

/-- A local that was converted down has its variable's value where the function has
written nothing. -/
theorem post_inout {reply : ImplReply σ} {stack : BodyStack} {i : Nat} {k : NamedKind} {id : Nat}
    (h₀ : AppRel impl n₀ s₀) (h : AppRel impl n s)
    (hroom : s.statuses.errors.count < errorcodeSlots)
    (hgiven : (n₀.argument (.inout k id)).isSome) (hok : replyOk impl reply i (.inout k id)) :
    AppRel impl (NativeApp.post fmt L n₀ reply i n (.inout k id))
        (AppState.post impl s₀ stack reply i s (.inout k id)) ∧
      (AppState.post impl s₀ stack reply i s (.inout k id)).statuses.errors.count ≤
        s.statuses.errors.count + 1 := by
  obtain ⟨arg, harg⟩ := Option.isSome_iff_exists.mp hgiven
  obtain ⟨v, hv, -⟩ := Option.map_eq_some_iff.mp harg
  obtain ⟨hnames, hproper⟩ := h₀.vars ⟨.named k, id⟩ v hv
  have hlocal : impl.namedFromabi s₀.statuses.errors k (s₀.vars ⟨.named k, id⟩) = some v :=
    hnames _ (.refl _)
  simp only [NativeApp.post, AppState.post, hv, hlocal]
  cases hw : reply.wrote k i with
  | none =>
      refine ⟨h.posted hroom (.inr hproper) fun w hw => ?_, posted_count⟩
      cases hw
      exact ⟨rfl, hproper⟩
  | some w =>
      refine ⟨h.posted hroom (.inr (hok w hw)) fun w' hw' => ?_, posted_count⟩
      cases hw'
      exact ⟨rfl, hok w hw⟩

theorem post_status {reply : ImplReply σ} {stack : BodyStack} {i v : Nat} (h : AppRel impl n s)
    (hroom : s.statuses.errors.count < errorcodeSlots)
    (hok : replyOk impl reply i (.status (some v))) :
    AppRel impl (NativeApp.post fmt L n₀ reply i n (.status (some v)))
        (AppState.post impl s₀ stack reply i s (.status (some v))) ∧
      (AppState.post impl s₀ stack reply i s (.status (some v))).statuses.errors.count ≤
        s.statuses.errors.count + 1 := by
  have htable : ∀ st,
      s.statuses.errors.Extends (statusToabi fmt L impl.status.consts false st
        (s.statuses.abi v) stack.bytes s.statuses.errors).2 ∧
      (statusToabi fmt L impl.status.consts false st (s.statuses.abi v) stack.bytes
        s.statuses.errors).2.count ≤ s.statuses.errors.count + 1 :=
    fun st => ⟨statusToabi_extends, statusToabi_count⟩
  simp only [NativeApp.post, AppState.post]
  cases hst : reply.status i with
  | none =>
      refine ⟨⟨h.statuses.forget (htable _).1
        (statusToabiKeepError_defined (h.statuses.defined v)), ?_, h.quiet, h.world,
        h.calls⟩, (htable _).2⟩
      exact h.vars.mono fun _ _ _ hx => ⟨hx.1.mono (htable _).1, hx.2⟩
  | some r =>
      obtain ⟨st, withError⟩ := r
      obtain ⟨hproper, hempty⟩ := hok st withError hst
      refine ⟨⟨h.statuses.received hroom hproper hempty, ?_, h.quiet, h.world, h.calls⟩,
        (htable _).2⟩
      exact h.vars.mono fun _ _ _ hx => ⟨hx.1.mono (htable _).1, hx.2⟩

/-- What the statement of a parameter leaves is what the call has done to its
variable. -/
theorem post {reply : ImplReply σ} {stack : BodyStack} {i : Nat} {p : BodyParam}
    (h₀ : AppRel impl n₀ s₀) (h : AppRel impl n s)
    (hroom : s.statuses.errors.count < errorcodeSlots)
    (hgiven : (n₀.argument p).isSome) (hok : replyOk impl reply i p) :
    AppRel impl (NativeApp.post fmt L n₀ reply i n p)
        (AppState.post impl s₀ stack reply i s p) ∧
      (AppState.post impl s₀ stack reply i s p).statuses.errors.count ≤
        s.statuses.errors.count + 1 := by
  cases p with
  | input x => exact ⟨h, Nat.le_succ _⟩
  | output k id =>
      cases id with
      | none => exact ⟨h, Nat.le_succ _⟩
      | some id => exact post_output h hroom hok
  | inout k id => exact post_inout h₀ h hroom hgiven hok
  | status v =>
      cases v with
      | none => exact ⟨h, Nat.le_succ _⟩
      | some v => exact post_status h hroom hok

theorem posts {reply : ImplReply σ} (stack : BodyStack) {i : Nat} {params : List BodyParam}
    (h₀ : AppRel impl n₀ s₀) (h : AppRel impl n s)
    (hroom : s.statuses.errors.count + params.length < errorcodeSlots)
    (hgiven : ∀ p, p ∈ params → (n₀.argument p).isSome)
    (hok : ∀ j p, params[j]? = some p → replyOk impl reply (i + j) p) :
    AppRel impl (NativeApp.posts fmt L n₀ reply i params n)
        (AppState.posts impl s₀ stack reply i params s) ∧
      (AppState.posts impl s₀ stack reply i params s).statuses.errors.count < errorcodeSlots := by
  induction params generalizing i n s with
  | nil => exact ⟨h, hroom⟩
  | cons p rest ih =>
      rw [List.length_cons] at hroom
      have hhead : replyOk impl reply i p := hok 0 p rfl
      obtain ⟨hp, hcount⟩ := post h₀ h (by omega)
        (hgiven p (List.mem_cons_self ..)) hhead
      refine ih hp (by omega) (fun q hq => hgiven q (List.mem_cons_of_mem _ hq)) fun j q hq => ?_
      have hq' := hok (j + 1) q (by rwa [List.getElem?_cons_succ])
      rwa [Nat.add_right_comm, Nat.add_assoc]

/-- The implementation is given the same. -/
theorem argument {p : BodyParam} {arg : ImplArg} (h : AppRel impl n s)
    (harg : n.argument p = some arg) : s.argument impl p = some arg := by
  cases p with
  | input x =>
      obtain ⟨v, hv, rfl⟩ := Option.map_eq_some_iff.mp harg
      rw [AppState.argument, (h.vars x v hv).1 _ (.refl _)]
      rfl
  | output k id =>
      cases id with
      | none => exact harg
      | some id => exact harg
  | inout k id =>
      obtain ⟨v, hv, rfl⟩ := Option.map_eq_some_iff.mp harg
      have hnames : impl.namedFromabi s.statuses.errors k (s.vars ⟨.named k, id⟩) = some v :=
        (h.vars ⟨.named k, id⟩ v hv).1 _ (.refl _)
      rw [AppState.argument, hnames]
      rfl
  | status v => exact harg

theorem arguments {params : List BodyParam} {args : List ImplArg} (h : AppRel impl n s)
    (hargs : params.mapM n.argument = some args) :
    params.mapM (s.argument impl) = some args ∧ ∀ p, p ∈ params → (n.argument p).isSome := by
  induction params generalizing args with
  | nil =>
      cases hargs
      exact ⟨rfl, fun p hp => absurd hp List.not_mem_nil⟩
  | cons p rest ih =>
      rw [List.mapM_cons] at hargs
      obtain ⟨arg, harg, hargs⟩ := Option.bind_eq_some_iff.mp hargs
      obtain ⟨args', hrest, hargs⟩ := Option.bind_eq_some_iff.mp hargs
      cases hargs
      obtain ⟨hmap, hall⟩ := ih hrest
      rw [List.mapM_cons, h.argument harg, hmap]
      refine ⟨rfl, fun q hq => ?_⟩
      rcases List.mem_cons.mp hq with rfl | hq
      · rw [harg]
        rfl
      · exact hall q hq

/-- The code of a body that has converted nothing but what the ABI can name. -/
theorem returned (params : List BodyParam) {ierror : Int32} (h : AppRel impl n s)
    (hroom : s.statuses.errors.count < errorcodeSlots) :
    AppRel impl { n with statuses := n.statuses.answered (.done ierror) }
      (s.returned impl params ierror) := by
  have hext : s.statuses.errors.Extends
      (errorcodeToabi impl.status.consts.errors ierror s.statuses.errors).2 := toabi_extends
  simp only [AppState.returned, h.quiet, Bool.and_false, Bool.false_eq_true, if_false]
  exact ⟨h.statuses.answered hext ⟨errorNames_toabi hroom, rfl⟩,
    h.vars.mono fun _ _ _ hx => ⟨hx.1.mono hext, hx.2⟩, rfl, h.world, h.calls⟩

end AppRel

/-- What an action has to keep to. A constant is the implementation's that is
meant; of a function, `replyOk`; and the table has room for the codes. -/
def appOk (impl : ImplApp fmt L σ) (p : NativeApp σ × AppState σ) : AppAct → Prop
  | .assign x abi native =>
      ValueNames impl p.2.statuses.errors x.kind abi native ∧ x.kind.proper impl native
  | .call f params _ =>
      p.2.statuses.errors.count + params.length < errorcodeSlots ∧
        ∀ args, params.mapM p.1.argument = some args → ∀ i q, params[i]? = some q →
          replyOk impl (impl.call p.1.world ⟨f, args⟩) i q
  | .status a => statusActOk impl.status (p.1.statuses, p.2.statuses) a

theorem app_step :
    StepSimulates (NativeApp.step impl) (AppState.step impl) (appOk impl) (AppRel impl) := by
  intro n s a n' h hok hstep
  cases a with
  | assign x abi native =>
      cases hstep
      refine ⟨_, rfl, h.assign fun v hv => ?_⟩
      cases hv
      exact hok
  | call f params stack =>
      obtain ⟨args, hargs, rfl⟩ := Option.map_eq_some_iff.mp hstep
      obtain ⟨hroom, hreply⟩ := hok
      obtain ⟨hmap, hgiven⟩ := h.arguments hargs
      have hcalled : AppRel impl
          { n with
            world := (impl.call n.world ⟨f, args⟩).world
            calls := n.calls ++ [⟨f, args⟩] }
          { s with
            world := (impl.call n.world ⟨f, args⟩).world
            calls := s.calls ++ [⟨f, args⟩] } :=
        { h with world := rfl, calls := by rw [h.calls] }
      obtain ⟨hposts, hcount⟩ := AppRel.posts stack (i := 0) h hcalled hroom hgiven
        fun j p hp => by rw [Nat.zero_add]; exact hreply args hargs j p hp
      refine ⟨_, ?_, hposts.returned params hcount⟩
      rw [AppState.step, AppState.body, hmap, Option.map_some, h.world]
  | status a =>
      obtain ⟨n₁, hn₁, rfl⟩ := Option.map_eq_some_iff.mp hstep
      obtain ⟨s₁, hs₁, hrel⟩ := status_step _ _ a _ h.statuses hok hn₁
      have hext := StatusState.step_extends hs₁
      refine ⟨{ s with statuses := s₁ }, ?_, ?_⟩
      · rw [AppState.step, hs₁]
        rfl
      · exact ⟨hrel, h.vars.mono fun _ _ _ hx => ⟨hx.1.mono hext, hx.2⟩, h.quiet, h.world, h.calls⟩

/-- What a program behind the wrapper has of the same one without it. -/
structure AppMatch (impl : ImplApp fmt L σ) (n : NativeApp σ) (s : AppState σ) : Prop where
  statuses : StatusesMatch impl.status n.statuses s.statuses
  vars : ∀ (x : Var) v, n.vars x = some v →
    impl.fromabi s.statuses.errors x.kind (s.vars x) = some v
  world : s.world = n.world
  calls : s.calls = n.calls

/-- Every program that an implementation can run runs behind the wrapper: the
implementation gets the same calls with the same arguments, and every variable,
every status and every code means what it would have been. -/
theorem apps_simulate {abi : Nat → Bytes} {vars : (x : Var) → x.kind.Value} {world : σ}
    {run : List AppAct} {n : NativeApp σ} (hdef : ∀ v, ErrorDefined fmt (abi v))
    (hok : Meets (both (NativeApp.step impl) (AppState.step impl)) (appOk impl)
      (.init world, .init abi vars world) run)
    (hrun : exec (NativeApp.step impl) (.init world) run = some n) :
    ∃ s, exec (AppState.step impl) (.init abi vars world) run = some s ∧ AppMatch impl n s := by
  obtain ⟨s, hs, h⟩ := simulates app_step (.init hdef) hok hrun
  exact ⟨s, hs, h.statuses.matched, fun x v hv => (h.vars x v hv).1 _ (.refl _), h.world, h.calls⟩

/-! ## An implementation with the ABI's numbers -/

def sameConsts (f : ClosedFamily) : ConstNumbering f where
  has _ := true
  code := id
  distinct := by cases f <;> decide

def sameMasks (f : MaskFamily) : MaskNumbering f where
  code := id
  single := f.abis_single
  distinct := by rw [List.map_id]; exact f.abis_nodup

/-- It duplicates communicators, receives from nobody, and has one error of its own
for everything else. -/
def countingCall (made : Nat) (c : ImplCall) : ImplReply Nat :=
  if c.function = "MPI_Comm_dup" then
    { world := made + 1
      ierror := 0
      wrote := fun k _ =>
        match k with
        | .handle _ => some (0x6000 + UInt64.ofNat made)
        | _ => none
      status := fun _ => none }
  else if c.function = "MPI_Recv" then
    ⟨made, 0, fun _ _ => none, fun _ => some (fromNobody, false)⟩
  else ⟨made, 1000, fun _ _ => none, fun _ => none⟩

def countingApp : ImplApp .littleEndian splitLayout Nat where
  status := byteImpl
  maps := plainMaps
  built := plainMaps_built
  consts := sameConsts
  masks := sameMasks
  undefined := -32766
  bottom := 0
  inPlace := 1
  call := countingCall

/-- Duplicate `MPI_COMM_WORLD`, receive on the duplicate, and fail. -/
def dupRun : List AppAct :=
  let world : Var := ⟨.named (.handle .comm), 0⟩
  let dup : Var := ⟨.named (.handle .comm), 1⟩
  let stack : BodyStack :=
    { value := fun k _ =>
        match k with
        | .handle _ => 0x21
        | .const _ | .errorcode => 7
        | .mask _ => 7
        | .plain => 7
      bytes := fun _ => 7 }
  [.assign world 0x101 0x101,
    .call "MPI_Comm_dup" [.input world, .output (.handle .comm) (some 1)] stack,
    .call "MPI_Recv" [.input dup, .status (some 3)] stack,
    .call "MPI_Barrier" [.input dup] stack,
    .status ⟨.query .getCount 3 0x209 0x209, fun _ => 7⟩]

def zeroVars : (x : Var) → x.kind.Value
  | ⟨.named (.handle _), _⟩ | ⟨.buffer _, _⟩ => (0 : UInt64)
  | ⟨.named (.const _), _⟩ | ⟨.named .errorcode, _⟩ | ⟨.color, _⟩ => (0 : Int32)
  | ⟨.named (.mask _), _⟩ => (0 : Mask)
  | ⟨.named .plain, _⟩ => (0 : Int)

theorem dup_proper : NamedKind.proper countingApp (.handle .comm) (0x6000 : UInt64) :=
  ⟨by decide, by decide, .inr (by decide)⟩

theorem dupRun_ok :
    Meets (both (NativeApp.step countingApp) (AppState.step countingApp)) (appOk countingApp)
      (.init 0, .init (fun _ _ => 0xa5) zeroVars 0) dupRun := by
  have hworld : NamedKind.proper countingApp (.handle .comm) (0x101 : UInt64) :=
    ⟨by decide, by decide, .inl ⟨(0x101, 0x101), by decide +kernel, rfl⟩⟩
  refine Meets.cons ⟨fun _ _ => rfl, hworld⟩ fun p₁ h₁ => ?_
  cases h₁
  refine Meets.cons ⟨by decide, fun args _ i q hq => ?_⟩ fun p₂ h₂ => ?_
  · match i, hq with
    | 0, hq =>
        cases hq
        trivial
    | 1, hq =>
        cases hq
        refine ⟨fun _ _ => nofun, fun v hv => ?_⟩
        cases hv
        exact dup_proper
  cases h₂
  refine Meets.cons ⟨by decide, fun args _ i q hq => ?_⟩ fun p₃ h₃ => ?_
  · match i, hq with
    | 0, hq =>
        cases hq
        trivial
    | 1, hq =>
        cases hq
        intro st withError hst
        cases hst
        exact fromNobody_received 3 .empty
  cases h₃
  refine Meets.cons ⟨by decide, fun args _ i q hq => ?_⟩ fun p₄ h₄ => ?_
  · match i, hq with
    | 0, hq =>
        cases hq
        trivial
  cases h₄
  exact Meets.cons ⟨by decide, signedChar_means⟩ fun _ _ => trivial

theorem dupRun_simulated :
    ∃ n s, exec (NativeApp.step countingApp) (.init 0) dupRun = some n ∧
      exec (AppState.step countingApp) (.init (fun _ _ => 0xa5) zeroVars 0) dupRun = some s ∧
      AppMatch countingApp n s := by
  obtain ⟨n, hn⟩ := Option.isSome_iff_exists.mp
    (by rfl : (exec (NativeApp.step countingApp) (.init 0) dupRun).isSome = true)
  obtain ⟨s, hs, h⟩ := apps_simulate (fun _ => by unfold ErrorDefined; decide +kernel) dupRun_ok hn
  exact ⟨n, s, hn, hs, h⟩

end AbiWrapper.Ref
