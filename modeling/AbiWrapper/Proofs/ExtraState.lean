import AbiWrapper.Lib.Simulation
import AbiWrapper.Proofs.Conversion
import AbiWrapper.Proofs.KeyvalHistory
import AbiWrapper.Ref.ExtraState

/-!
# Every callback reaches the function that was registered

A registration the implementation has is the program's, with a pair of its own
wherever one of the functions is the program's (`HeldSim`). Who has a
registration owns its pair (`Owned`), so nothing that becomes of another one
changes what a trampoline reads: the trampolines of a registration answer
`UserReg.target` as long as its pair is there (`trampoline_eq`), and it is there
until the free function has returned. What the function is given names the objects
and the keys that the implementation has called it for (`CallbackNames`).

The pairs that nobody can free any more are those of attribute keys.
-/

namespace AbiWrapper.Ref

open AbiWrapper.Lib

variable {impl : ImplCallbacks} {reg : UserReg} {heap : RecordHeap Pair} {state : StatePtr}

/-! ## What a registrar makes of a registration -/

namespace UserReg

/-- The pair, which is there unless all functions are the implementation's. -/
def pair : UserReg → Option Pair
  | .attr _ .null .null _ | .attr _ .dup .null _ => none
  | .attr kind copy delete extraState => some (.attr kind copy delete extraState)
  | .grequest query free cancel extraState => some (.grequest query free cancel extraState)
  | .datarep false read write extent extraState =>
      some (.datarep read write .null .null extent extraState)
  | .datarep true read write extent extraState =>
      some (.datarep .null .null read write extent extraState)

def fns (impl : ImplCallbacks) : UserReg → ImplFns
  | .attr kind copy delete _ =>
      .attr kind (match copy with | .null => .null | .dup => .dup | .user _ => .tramp)
        (match delete with | .null => .null | .user _ => .tramp)
  | .grequest .. => .grequest
  | .datarep large read write _ _ =>
      .datarep (if !large then .small else if impl.hasDatarepC then .large else .adapted)
        (read ≠ .null) (write ≠ .null)

def extraState : UserReg → UInt64
  | .attr _ _ _ extraState | .grequest _ _ _ extraState | .datarep _ _ _ _ extraState => extraState

theorem needsPair_eq : reg.needsPair = reg.pair.isSome := by
  cases reg with
  | attr kind copy delete extraState =>
      cases copy with
      | null => cases delete <;> rfl
      | dup => cases delete <;> rfl
      | user fn => rfl
  | grequest query free cancel extraState => rfl
  | datarep large read write extent extraState => cases large <;> rfl

end UserReg

/-- The heap, the functions and the state of a registration that goes through. -/
def registered (impl : ImplCallbacks) (heap : RecordHeap Pair) (address : Option Nat)
    (reg : UserReg) : Option Fns :=
  match reg.pair with
  | none => some (heap, reg.fns impl, .caller reg.extraState)
  | some p => address.map fun a => (Function.update heap a (some p), reg.fns impl, .pair a)

theorem attrPairFns_eq {kind : AttrKind} {copy : CopyFn} {delete : DeleteFn} {extraState : UInt64}
    {address : Option Nat} : attrPairFns heap address kind copy delete extraState =
      registered impl heap address (.attr kind copy delete extraState) := by
  cases copy with
  | null => cases delete <;> cases address <;> rfl
  | dup => cases delete <;> cases address <;> rfl
  | user fn => cases delete <;> cases address <;> rfl

theorem registrarFns_eq {address : Option Nat} : registrarFns impl heap address reg =
    if reg.supported impl then registered impl heap address reg else none := by
  cases reg with
  | attr kind copy delete extraState =>
      rw [registrarFns, attrPairFns_eq]
      rfl
  | grequest query free cancel extraState => rfl
  | datarep large read write extent extraState =>
      cases large with
      | false => rfl
      | true =>
          cases hc : impl.hasDatarepC with
          | true =>
              simp only [registrarFns, UserReg.supported, hc, Bool.true_or, if_true, registered,
                UserReg.pair, UserReg.fns, datarepCFns, Bool.not_true, Bool.false_eq_true, if_false]
          | false =>
              simp only [registrarFns, UserReg.supported, hc, Bool.false_or, registered,
                UserReg.pair, UserReg.fns, datarepCaFns, Bool.not_true, Bool.false_eq_true,
                if_false]

theorem calledFn_target {f : ConvFn} {extraState : UInt64} (h : f ≠ .null) :
    calledFn f extraState = some (f.target extraState) := by
  cases f with
  | null => exact absurd rfl h
  | user fn => rfl

/-! ## Which function is called -/

section Trampolines

variable {cb : Callback} {extraState : UInt64}

theorem trampoline_attr {kind : AttrKind} {copy : CopyFn} {delete : DeleteFn}
    (h : ∀ p, (UserReg.attr kind copy delete extraState).pair = some p →
      state.read heap = some p) :
    trampoline heap ((UserReg.attr kind copy delete extraState).fns impl) state cb =
      (UserReg.attr kind copy delete extraState).target cb := by
  cases cb with
  | copy kind' object keyval valIn valOut flag =>
      cases copy with
      | null => rfl
      | dup => rfl
      | user fn =>
          have hp := h _ rfl
          simp only [trampoline, UserReg.fns, hp, if_true, UserReg.target]
  | delete kind' object keyval val =>
      cases delete with
      | null => rfl
      | user fn =>
          have hp : state.read heap = some (.attr kind copy (.user fn) extraState) :=
            h _ (by cases copy <;> rfl)
          simp only [trampoline, UserReg.fns, hp, if_true, UserReg.target]
  | query | free | cancel complete | extent datatype => rfl
  | read userbuf datatype count filebuf position => rfl
  | write userbuf datatype count filebuf position => rfl

theorem trampoline_grequest {query free cancel : UInt64}
    (hp : state.read heap = some (.grequest query free cancel extraState)) :
    trampoline heap .grequest state cb =
      (UserReg.grequest query free cancel extraState).target cb := by
  cases cb with
  | query | free | cancel complete => simp only [trampoline, hp, UserReg.target]
  | copy kind object keyval valIn valOut flag => rfl
  | delete kind object keyval val => rfl
  | extent datatype => rfl
  | read userbuf datatype count filebuf position => rfl
  | write userbuf datatype count filebuf position => rfl

/-- A conversion function that there is: the trampoline finds it where its shape has
it. -/
theorem trampoline_conv {large : Bool} {read write : ConvFn} {extent : UInt64}
    (hp : state.read heap =
      (UserReg.datarep large read write extent extraState).pair) :
    (∀ userbuf datatype count filebuf position, read ≠ .null →
      trampoline heap ((UserReg.datarep large read write extent extraState).fns impl) state
        (.read userbuf datatype count filebuf position) = some (read.target extraState)) ∧
    ∀ userbuf datatype count filebuf position, write ≠ .null →
      trampoline heap ((UserReg.datarep large read write extent extraState).fns impl) state
        (.write userbuf datatype count filebuf position) = some (write.target extraState) := by
  have htarget : ∀ f : ConvFn, f ≠ .null → calledFn f extraState = some (f.target extraState) :=
    fun _ hf => calledFn_target hf
  refine ⟨fun _ _ _ _ _ hf => ?_, fun _ _ _ _ _ hf => ?_⟩
  all_goals
    rw [← htarget _ hf]
    simp only [trampoline, UserReg.fns, ne_eq, hf, not_false_eq_true, decide_true, if_true]
    cases large with
    | false => simp only [Bool.not_false, if_true, hp, UserReg.pair]
    | true =>
        cases hc : impl.hasDatarepC with
        | true =>
            simp only [Bool.not_true, Bool.false_eq_true, if_false, if_true, hp, UserReg.pair]
        | false => simp only [Bool.not_true, Bool.false_eq_true, if_false, hp, UserReg.pair]

theorem trampoline_datarep {large : Bool} {read write : ConvFn} {extent : UInt64}
    (hp : state.read heap =
      (UserReg.datarep large read write extent extraState).pair) :
    trampoline heap ((UserReg.datarep large read write extent extraState).fns impl) state cb =
      (UserReg.datarep large read write extent extraState).target cb := by
  cases cb with
  | extent datatype =>
      cases large <;> simp only [trampoline, UserReg.fns, hp, UserReg.pair, UserReg.target]
  | read userbuf datatype count filebuf position =>
      by_cases hnull : read = .null
      · subst hnull
        rfl
      · exact (trampoline_conv hp).1 _ _ _ _ _ hnull
  | write userbuf datatype count filebuf position =>
      by_cases hnull : write = .null
      · subst hnull
        rfl
      · exact (trampoline_conv hp).2 _ _ _ _ _ hnull
  | copy kind object keyval valIn valOut flag => rfl
  | delete kind object keyval val => rfl
  | query | free | cancel complete => rfl

/-- A registration whose pair is there is called as the program means it. -/
theorem trampoline_eq (h : reg.pair = none ∨ state.read heap = reg.pair) :
    trampoline heap (reg.fns impl) state cb = reg.target cb := by
  have hread : ∀ p, reg.pair = some p → state.read heap = some p := by
    intro p hp
    rcases h with hnone | hsome
    · exact nomatch hp.symm.trans hnone
    · exact hsome.trans hp
  cases reg with
  | attr kind copy delete extraState => exact trampoline_attr hread
  | grequest query free cancel extraState => exact trampoline_grequest (hread _ rfl)
  | datarep large read write extent extraState =>
      cases large with
      | false => exact trampoline_datarep (hread _ rfl)
      | true => exact trampoline_datarep (hread _ rfl)

end Trampolines

/-! ## What it is called with -/

/-- An ABI key stands for an implementation's, now and from now on. -/
def KeyvalNames (impl : ImplKeyvals) (t : KeyvalTable) (abi keyval : Int32) : Prop :=
  ∀ t', t.Extends t' → keyvalFromabi impl abi t' = some keyval

/-- The program's function is given what stands for the implementation's object, key
or datatype, and everything else as it is. -/
inductive CallbackNames (impl : ImplCallbacks) (t : KeyvalTable) : Callback → Callback → Prop
  | copy {kind : AttrKind} {abiObject object : UInt64} {abiKeyval keyval : Int32}
      {valIn valOut flag : UInt64}
      (hobject : handleFromabi impl.handles kind.handleClass abiObject = object)
      (hkeyval : KeyvalNames impl.keyvals t abiKeyval keyval) :
      CallbackNames impl t (.copy kind abiObject abiKeyval valIn valOut flag)
        (.copy kind object keyval valIn valOut flag)
  | delete {kind : AttrKind} {abiObject object : UInt64} {abiKeyval keyval : Int32} {val : UInt64}
      (hobject : handleFromabi impl.handles kind.handleClass abiObject = object)
      (hkeyval : KeyvalNames impl.keyvals t abiKeyval keyval) :
      CallbackNames impl t (.delete kind abiObject abiKeyval val) (.delete kind object keyval val)
  | query : CallbackNames impl t .query .query
  | free : CallbackNames impl t .free .free
  | cancel {complete : Int32} : CallbackNames impl t (.cancel complete) (.cancel complete)
  | extent {abiDatatype datatype : UInt64}
      (h : handleFromabi impl.handles .datatype abiDatatype = datatype) :
      CallbackNames impl t (.extent abiDatatype) (.extent datatype)
  | read {userbuf abiDatatype datatype filebuf : UInt64} {count position : Int}
      (h : handleFromabi impl.handles .datatype abiDatatype = datatype) :
      CallbackNames impl t (.read userbuf abiDatatype count filebuf position)
        (.read userbuf datatype count filebuf position)
  | write {userbuf abiDatatype datatype filebuf : UInt64} {count position : Int}
      (h : handleFromabi impl.handles .datatype abiDatatype = datatype) :
      CallbackNames impl t (.write userbuf abiDatatype count filebuf position)
        (.write userbuf datatype count filebuf position)

/-- What an implementation can call back for: a handle that the ABI can name, and a key
that has been entered. -/
def Callback.proper (impl : ImplCallbacks) (t : KeyvalTable) : Callback → Prop
  | .copy kind object keyval .. | .delete kind object keyval _ =>
      ProperHandle impl.handles kind.handleClass object ∧ t.find (some keyval) ≠ none
  | .query | .free | .cancel _ => True
  | .extent datatype | .read _ datatype .. | .write _ datatype .. =>
      ProperHandle impl.handles .datatype datatype

/-- A call of a function behind the wrapper, and natively. -/
structure CallNames (impl : ImplCallbacks) (t : KeyvalTable) (call native : UserCall) : Prop where
  fn : call.fn = native.fn
  extraState : call.extraState = native.extraState
  args : CallbackNames impl t call.args native.args

section Names

variable {t t' : KeyvalTable}

theorem CallbackNames.mono {cb native : Callback} (h : CallbackNames impl t cb native)
    (hext : t.Extends t') : CallbackNames impl t' cb native := by
  cases h with
  | copy hobject hkeyval => exact .copy hobject fun _ hext' => hkeyval _ (hext.trans hext')
  | delete hobject hkeyval => exact .delete hobject fun _ hext' => hkeyval _ (hext.trans hext')
  | query => exact .query
  | free => exact .free
  | cancel => exact .cancel
  | extent h => exact .extent h
  | read h => exact .read h
  | write h => exact .write h

theorem CallNames.mono {call native : UserCall} (h : CallNames impl t call native)
    (hext : t.Extends t') : CallNames impl t' call native :=
  ⟨h.fn, h.extraState, h.args.mono hext⟩

theorem Callback.toabi_names {cb : Callback} (h : cb.proper impl t) :
    CallbackNames impl t (cb.toabi impl t) cb := by
  cases cb with
  | copy kind object keyval valIn valOut flag =>
      exact .copy (h.1.back impl.built).2 fun _ hext => keyvalToabi_back h.2 hext
  | delete kind object keyval val =>
      exact .delete (h.1.back impl.built).2 fun _ hext => keyvalToabi_back h.2 hext
  | query => exact .query
  | free => exact .free
  | cancel complete => exact .cancel
  | extent datatype => exact .extent (ProperHandle.back h impl.built).2
  | read userbuf datatype count filebuf position =>
      exact .read (ProperHandle.back h impl.built).2
  | write userbuf datatype count filebuf position =>
      exact .write (ProperHandle.back h impl.built).2

theorem recorded_names {cb : Callback} {calls native : List UserCall} (target : Target)
    (h : List.Forall₂ (CallNames impl t) calls native) (hcb : cb.proper impl t) :
    List.Forall₂ (CallNames impl t) (recorded calls target (cb.toabi impl t))
      (recorded native target cb) := by
  cases target with
  | none => exact h
  | some f => exact List.rel_append h (.cons ⟨rfl, rfl, Callback.toabi_names hcb⟩ .nil)

theorem entered_extends {keyval : Int32} {fns : ImplFns} :
    t.Extends (CallbackState.entered t keyval fns) := by
  cases fns with
  | attr kind copy delete =>
      rw [CallbackState.entered]
      cases hadd : keyvalAdd keyval t with
      | none => exact .refl t
      | some p =>
          obtain ⟨q, hq, rfl⟩ := Option.map_eq_some_iff.mp hadd
          exact Registry.append_extends hq
  | grequest => exact .refl t
  | datarep shape read write => exact .refl t

end Names

/-! ## Histories -/

/-- A pair that nobody frees. -/
def Pair.isAttr : Pair → Prop
  | .attr .. => True
  | .grequest .. | .datarep .. => False

/-- A registration as the program means it, as the implementation has it, and the
pair that belongs to it. -/
inductive HeldSim (impl : ImplCallbacks) :
    Option UserReg → Option (ImplFns × StatePtr) → Option (Nat × Pair) → Prop
  | vacant : HeldSim impl none none none
  | caller {reg : UserReg} (h : reg.pair = none) :
      HeldSim impl (some reg) (some (reg.fns impl, .caller reg.extraState)) none
  | pair {reg : UserReg} {p : Pair} {a : Nat} (h : reg.pair = some p) :
      HeldSim impl (some reg) (some (reg.fns impl, .pair a)) (some (a, p))

/-- A place gets another registration. -/
theorem HeldSim.update {held : Holder → Option UserReg}
    {held' : Holder → Option (ImplFns × StatePtr)} {owner : Holder → Option (Nat × Pair)}
    (h : ∀ p, HeldSim impl (held p) (held' p) (owner p)) {p₀ : Holder} {x : Option UserReg}
    {y : Option (ImplFns × StatePtr)} {z : Option (Nat × Pair)}
    (hx : HeldSim impl x y z) (p : Holder) :
    HeldSim impl (Function.update held p₀ x p) (Function.update held' p₀ y p)
      (Function.update owner p₀ z p) := by
  by_cases hp : p = p₀
  · subst hp
    rw [Function.update_self, Function.update_self, Function.update_self]
    exact hx
  · rw [Function.update_of_ne hp, Function.update_of_ne hp, Function.update_of_ne hp]
    exact h p

def OnlyRequests (held : Holder → Option UserReg) (freeing : Nat → Bool) : Prop :=
  ∀ id, freeing id = true → ∃ query free cancel extraState,
    held (.object id) = some (.grequest query free cancel extraState)

/-- A place that is not being freed may get another registration. -/
theorem OnlyRequests.update {held : Holder → Option UserReg} {freeing : Nat → Bool}
    (h : OnlyRequests held freeing) {p : Holder} {x : Option UserReg}
    (hp : ∀ id, p = .object id → freeing id = false) :
    OnlyRequests (Function.update held p x) freeing := by
  intro id hid
  obtain ⟨query, free, cancel, extraState, hobject⟩ := h id hid
  have hne : Holder.object id ≠ p := fun he => nomatch hid.symm.trans (hp id he.symm)
  exact ⟨query, free, cancel, extraState, (Function.update_of_ne hne _ _).trans hobject⟩

theorem UserReg.attr_pair {kind : AttrKind} {copy : CopyFn} {delete : DeleteFn}
    {extraState : UInt64} {pair : Pair}
    (h : (UserReg.attr kind copy delete extraState).pair = some pair) : pair.isAttr := by
  cases copy with
  | null =>
      cases delete with
      | null => cases h
      | user fn =>
          cases h
          trivial
  | dup =>
      cases delete with
      | null => cases h
      | user fn =>
          cases h
          trivial
  | user fn =>
      cases h
      trivial

structure CallbackRel (impl : ImplCallbacks) (n : NativeCallbacks) (s : CallbackState)
    (owner : Holder → Option (Nat × Pair)) : Prop where
  owned : Owned Pair.isAttr s.heap owner
  held : ∀ p, HeldSim impl (n.held p) (s.held p) (owner p)
  freeing : s.freeing = n.freeing
  calls : List.Forall₂ (CallNames impl s.keyvals) s.calls n.calls
  busy : OnlyRequests n.held n.freeing

def CallbackSim (impl : ImplCallbacks) (n : NativeCallbacks) (s : CallbackState) : Prop :=
  ∃ owner, CallbackRel impl n s owner

/-- `malloc` answers with memory that nothing is in, and the implementation calls back
for what can be named. -/
def callbackOk (impl : ImplCallbacks) (p : NativeCallbacks × CallbackState) : CallbackAct → Prop
  | .start _ _ address => ∀ a, address = some a → p.2.heap a = none
  | .call _ cb => cb.proper impl p.2.keyvals
  | .made .. | .refused _ | .free _ | .freed _ | .retire _ => True

namespace CallbackRel

variable {n n' : NativeCallbacks} {s : CallbackState} {owner : Holder → Option (Nat × Pair)}
  {frame id : Nat}

theorem vacant (h : CallbackRel impl n s owner) {p : Holder} (hp : n.held p = none) :
    s.held p = none ∧ owner p = none := by
  have hheld := h.held p
  rw [hp] at hheld
  cases hheld' : s.held p with
  | none =>
      rw [hheld'] at hheld
      cases ho : owner p with
      | none => exact ⟨rfl, rfl⟩
      | some x =>
          rw [ho] at hheld
          cases hheld
  | some y =>
      rw [hheld'] at hheld
      cases hheld

/-- What the implementation has of a registration: its functions, and the caller's
extra state or a pair. -/
theorem taken (h : CallbackRel impl n s owner) {p : Holder} (hp : n.held p = some reg) :
    ∃ state, s.held p = some (reg.fns impl, state) ∧
      ((reg.pair = none ∧ owner p = none) ∨
        ∃ a pair, reg.pair = some pair ∧ state = .pair a ∧ owner p = some (a, pair)) := by
  have hheld := h.held p
  rw [hp] at hheld
  generalize hy : s.held p = y at hheld
  generalize hz : owner p = z at hheld
  cases hheld with
  | caller hpair => exact ⟨_, rfl, .inl ⟨hpair, rfl⟩⟩
  | pair hpair => exact ⟨_, rfl, .inr ⟨_, _, hpair, rfl, rfl⟩⟩

theorem called {cb : Callback} (h : CallbackRel impl n s owner)
    (hcb : cb.proper impl s.keyvals) (hn : n.called id cb = some n') :
    ∃ s', s.called impl id cb = some s' ∧ CallbackRel impl n' s' owner := by
  obtain ⟨reg, hreg, hn⟩ := Option.bind_eq_some_iff.mp hn
  obtain ⟨target, htarget, rfl⟩ := Option.map_eq_some_iff.mp hn
  obtain ⟨state, hstate, hpair⟩ := h.taken hreg
  have htramp : trampoline s.heap (reg.fns impl) state cb = some target := by
    rw [trampoline_eq, htarget]
    rcases hpair with ⟨hnone, -⟩ | ⟨a, pair, hsome, rfl, ho⟩
    · exact .inl hnone
    · exact .inr ((h.owned.there ho).trans hsome.symm)
  refine ⟨_, by rw [CallbackState.called, hstate, Option.bind_some, htramp, Option.map_some], ?_⟩
  exact ⟨h.owned, h.held, h.freeing, recorded_names target h.calls hcb, h.busy⟩

theorem start {address : Option Nat} (h : CallbackRel impl n s owner)
    (hfresh : ∀ a, address = some a → s.heap a = none)
    (hn : n.step impl (.start frame reg address) = some n') :
    ∃ s', s.step impl (.start frame reg address) = some s' ∧ CallbackSim impl n' s' := by
  simp only [NativeCallbacks.step] at hn
  cases hheld : n.held (.body frame) with
  | some r =>
      rw [hheld] at hn
      cases hn
  | none =>
      obtain ⟨hs, ho⟩ := h.vacant hheld
      rw [hheld] at hn
      simp only [CallbackState.step, hs, registrarFns_eq]
      cases hsupported : reg.supported impl with
      | false =>
          simp only [hsupported, Bool.false_and, Bool.false_eq_true, if_false] at hn ⊢
          cases hn
          exact ⟨s, rfl, owner, h⟩
      | true =>
          have hneeds := reg.needsPair_eq
          simp only [hsupported, Bool.true_and, if_true, registered] at hn ⊢
          cases hpair : reg.pair with
          | none =>
              rw [hpair] at hneeds
              simp only [hneeds, Option.isSome_none, Bool.not_false, Bool.true_or, if_true] at hn ⊢
              cases hn
              refine ⟨_, rfl, Function.update owner (.body frame) none, ?_,
                HeldSim.update h.held (.caller hpair), h.freeing, h.calls, h.busy.update nofun⟩
              rw [← ho, Function.update_eq_self]
              exact h.owned
          | some p =>
              rw [hpair] at hneeds
              simp only [hneeds, Option.isSome_some, Bool.not_true, Bool.false_or] at hn ⊢
              cases address with
              | none =>
                  cases hn
                  exact ⟨s, rfl, owner, h⟩
              | some a =>
                  cases hn
                  exact ⟨_, rfl, Function.update owner (.body frame) (some (a, p)),
                    h.owned.alloc (hfresh a rfl) ho, HeldSim.update h.held (.pair hpair), h.freeing,
                    h.calls, h.busy.update nofun⟩

/-- What is not a request is not being freed. -/
theorem idle (h : CallbackRel impl n s owner)
    (hid : ∀ query free cancel extraState,
      n.held (.object id) ≠ some (.grequest query free cancel extraState)) :
    n.freeing id = false := by
  refine Bool.eq_false_iff.mpr fun hfreeing => ?_
  obtain ⟨query, free, cancel, extraState, hobject⟩ := h.busy id hfreeing
  exact hid query free cancel extraState hobject

theorem made {keyval : Int32} (h : CallbackRel impl n s owner)
    (hn : n.step impl (.made frame id keyval) = some n') :
    ∃ s', s.step impl (.made frame id keyval) = some s' ∧ CallbackSim impl n' s' := by
  simp only [NativeCallbacks.step] at hn
  cases hframe : n.held (.body frame) with
  | none =>
      rw [hframe] at hn
      cases hn
  | some reg =>
      cases hobject : n.held (.object id) with
      | some r =>
          rw [hframe, hobject] at hn
          cases hn
      | none =>
          rw [hframe, hobject] at hn
          cases hn
          obtain ⟨state, hstate, -⟩ := h.taken hframe
          obtain ⟨hs, ho⟩ := h.vacant hobject
          have hidle : n.freeing id = false := h.idle fun _ _ _ _ he => by
            rw [hobject] at he
            cases he
          have hsim := h.held (.body frame)
          rw [hframe, hstate] at hsim
          have hstep : s.step impl (.made frame id keyval) =
              some { s with
                held := Function.update (Function.update s.held (.body frame) none) (.object id)
                  (some (reg.fns impl, state))
                keyvals := CallbackState.entered s.keyvals keyval (reg.fns impl) } := by
            simp only [CallbackState.step, hstate, hs]
          have hbusy : OnlyRequests (Function.update n.held (.body frame) none) n.freeing :=
            h.busy.update nofun
          refine ⟨_, hstep, _, h.owned.move (k := .body frame) ho,
            HeldSim.update (HeldSim.update h.held .vacant) hsim, h.freeing,
            h.calls.imp fun _ _ hc => hc.mono entered_extends,
            hbusy.update fun id' he => ?_⟩
          cases he
          exact hidle

/-- A registration without an object: its pair is freed, or lost with an attribute
key's. -/
theorem gone {p : Holder} {freeing : Nat → Bool} (h : CallbackRel impl n s owner)
    (hp : n.held p = some reg)
    (hbusy : OnlyRequests (Function.update n.held p none) freeing) :
    ∃ state, s.held p = some (reg.fns impl, state) ∧
      match reg.fns impl with
      | .attr .. => CallbackRel impl
          { n with held := Function.update n.held p none, freeing := freeing }
          { s with held := Function.update s.held p none, freeing := freeing }
          (Function.update owner p none)
      | .grequest | .datarep .. => ∃ s',
          { s with held := Function.update s.held p none, freeing := freeing }.release state =
              some s' ∧
            CallbackRel impl { n with held := Function.update n.held p none, freeing := freeing } s'
              (Function.update owner p none) := by
  obtain ⟨state, hstate, hpair⟩ := h.taken hp
  refine ⟨state, hstate, ?_⟩
  have hheld : ∀ q, HeldSim impl (Function.update n.held p none q)
      (Function.update s.held p none q) (Function.update owner p none q) :=
    HeldSim.update h.held .vacant
  have hfreed : ∀ pair, reg.pair = some pair → (∃ a, state = .pair a ∧ owner p = some (a, pair)) →
      ∃ s', { s with held := Function.update s.held p none, freeing := freeing }.release state =
          some s' ∧
        CallbackRel impl { n with held := Function.update n.held p none, freeing := freeing } s'
          (Function.update owner p none) := by
    rintro pair - ⟨a, rfl, ho⟩
    refine ⟨{ s with
      heap := Function.update s.heap a none
      held := Function.update s.held p none
      freeing := freeing }, ?_, h.owned.free ho, hheld, rfl, h.calls, hbusy⟩
    simp only [CallbackState.release, h.owned.there ho, reduceCtorEq, if_false]
  cases reg with
  | attr kind copy delete extraState =>
      refine ⟨h.owned.drop fun a r ho => ?_, hheld, rfl, h.calls, hbusy⟩
      rcases hpair with ⟨-, hnone⟩ | ⟨a', pair, hsome, -, ho'⟩
      · exact nomatch hnone.symm.trans ho
      · cases ho.symm.trans ho'
        exact UserReg.attr_pair hsome
  | grequest query free cancel extraState =>
      rcases hpair with ⟨hnone, -⟩ | ⟨a, pair, hsome, hst, ho⟩
      · cases hnone
      · exact hfreed pair hsome ⟨a, hst, ho⟩
  | datarep large read write extent extraState =>
      rcases hpair with ⟨hnone, -⟩ | ⟨a, pair, hsome, hst, ho⟩
      · cases large <;> cases hnone
      · exact hfreed pair hsome ⟨a, hst, ho⟩

theorem refused (h : CallbackRel impl n s owner) (hn : n.step impl (.refused frame) = some n') :
    ∃ s', s.step impl (.refused frame) = some s' ∧ CallbackSim impl n' s' := by
  simp only [NativeCallbacks.step] at hn
  cases hframe : n.held (.body frame) with
  | none =>
      rw [hframe] at hn
      cases hn
  | some reg =>
      rw [hframe] at hn
      cases hn
      obtain ⟨state, hstate, hgone⟩ := h.gone hframe (h.busy.update nofun)
      rw [← h.freeing] at hgone ⊢
      cases hfns : reg.fns impl with
      | attr kind copy delete =>
          rw [hfns] at hgone hstate
          have hstep : s.step impl (.refused frame) =
              some { s with held := Function.update s.held (.body frame) none } := by
            simp only [CallbackState.step, hstate]
          exact ⟨_, hstep, _, hgone⟩
      | grequest =>
          rw [hfns] at hgone hstate
          obtain ⟨s', hrelease, hrel⟩ := hgone
          refine ⟨s', ?_, _, hrel⟩
          simp only [CallbackState.step, hstate]
          exact hrelease
      | datarep shape read write =>
          rw [hfns] at hgone hstate
          obtain ⟨s', hrelease, hrel⟩ := hgone
          refine ⟨s', ?_, _, hrel⟩
          simp only [CallbackState.step, hstate]
          exact hrelease

/-- The free function is called, and the request is being freed from then on. -/
theorem free (h : CallbackRel impl n s owner) (hn : n.step impl (.free id) = some n') :
    ∃ s', s.step impl (.free id) = some s' ∧ CallbackSim impl n' s' := by
  simp only [NativeCallbacks.step] at hn
  split at hn
  · cases hn
  · next hidle =>
      obtain ⟨n₁, hn₁, rfl⟩ := Option.map_eq_some_iff.mp hn
      have hcb : Callback.free.proper impl s.keyvals := trivial
      obtain ⟨s₁, hs₁, hrel⟩ := h.called hcb hn₁
      have hstep : s.step impl (.free id) =
          some { s₁ with freeing := Function.update s₁.freeing id true } := by
        simp only [CallbackState.step, h.freeing, hidle, hs₁, Bool.false_eq_true, if_false,
          Option.map_some]
      refine ⟨_, hstep, owner, hrel.owned, hrel.held, by rw [hrel.freeing], hrel.calls, ?_⟩
      intro id' hid'
      by_cases he : id' = id
      · subst he
        -- Only a request has a free function.
        obtain ⟨reg, hreg, hn₁⟩ := Option.bind_eq_some_iff.mp hn₁
        obtain ⟨target, htarget, rfl⟩ := Option.map_eq_some_iff.mp hn₁
        cases reg with
        | grequest query free cancel extraState => exact ⟨query, free, cancel, extraState, hreg⟩
        | attr kind copy delete extraState => cases htarget
        | datarep large read write extent extraState => cases htarget
      · have hid₁ : n₁.freeing id' = true := by
          rw [← Function.update_of_ne he true n₁.freeing]
          exact hid'
        exact hrel.busy id' hid₁

theorem freed (h : CallbackRel impl n s owner) (hn : n.step impl (.freed id) = some n') :
    ∃ s', s.step impl (.freed id) = some s' ∧ CallbackSim impl n' s' := by
  simp only [NativeCallbacks.step] at hn
  split at hn
  · next hfreeing =>
      cases hn
      obtain ⟨query, free, cancel, extraState, hobject⟩ := h.busy id hfreeing
      have hbusy : OnlyRequests (Function.update n.held (.object id) none)
          (Function.update n.freeing id false) := by
        intro id' hid'
        by_cases he : id' = id
        · subst he
          rw [Function.update_self] at hid'
          cases hid'
        · rw [Function.update_of_ne he] at hid'
          obtain ⟨query', free', cancel', extraState', hobject'⟩ := h.busy id' hid'
          have hne : Holder.object id' ≠ .object id := fun h => he (Holder.object.inj h)
          exact ⟨query', free', cancel', extraState',
            (Function.update_of_ne hne _ _).trans hobject'⟩
      obtain ⟨state, hstate, s', hrelease, hrel⟩ := h.gone hobject hbusy
      refine ⟨s', ?_, _, hrel⟩
      simp only [CallbackState.step, hstate, h.freeing, hfreeing, if_true]
      exact hrelease
  · cases hn

theorem retire (h : CallbackRel impl n s owner) (hn : n.step impl (.retire id) = some n') :
    ∃ s', s.step impl (.retire id) = some s' ∧ CallbackSim impl n' s' := by
  simp only [NativeCallbacks.step] at hn
  split at hn
  · next kind copy delete extraState hobject =>
      cases hn
      have hidle : n.freeing id = false := h.idle fun _ _ _ _ he => by
        rw [hobject] at he
        cases he
      obtain ⟨state, hstate, hrel⟩ := h.gone hobject
        (h.busy.update fun id' he => by cases he; exact hidle)
      have hstep : s.step impl (.retire id) =
          some { s with held := Function.update s.held (.object id) none } := by
        simp only [CallbackState.step, hstate, UserReg.fns]
      rw [← h.freeing] at hrel ⊢
      exact ⟨_, hstep, _, hrel⟩
  · cases hn

end CallbackRel

theorem callback_step :
    StepSimulates (NativeCallbacks.step impl) (CallbackState.step impl) (callbackOk impl)
      (CallbackSim impl) := by
  rintro n s a n' ⟨owner, h⟩ hok hn
  cases a with
  | start frame reg address => exact h.start hok hn
  | made frame id keyval => exact h.made hn
  | refused frame => exact h.refused hn
  | call id cb =>
      simp only [NativeCallbacks.step] at hn
      split at hn
      · cases hn
      · next hidle =>
          obtain ⟨s', hs', hrel⟩ := h.called hok hn
          refine ⟨s', ?_, owner, hrel⟩
          simp only [CallbackState.step, h.freeing, hidle, if_false, hs']
  | free id => exact h.free hn
  | freed id => exact h.freed hn
  | retire id => exact h.retire hn

/-- The program's functions have been called as without a wrapper, with its own
extra states and with what stands for the implementation's arguments. Every pair on
the heap is a registration's that the implementation has, and of no other, or an
attribute key's. -/
structure CallbacksReach (impl : ImplCallbacks) (n : NativeCallbacks) (s : CallbackState) :
    Prop where
  calls : List.Forall₂ (CallNames impl s.keyvals) s.calls n.calls
  pairs : ∀ a pair, s.heap a = some pair → pair.isAttr ∨ ∃ p reg,
    n.held p = some reg ∧ reg.pair = some pair ∧ s.held p = some (reg.fns impl, .pair a)
  alone : ∀ p p' a fns fns', s.held p = some (fns, .pair a) → s.held p' = some (fns', .pair a) →
    p = p'

theorem CallbackRel.reach {n : NativeCallbacks} {s : CallbackState}
    {owner : Holder → Option (Nat × Pair)} (h : CallbackRel impl n s owner) :
    CallbacksReach impl n s where
  calls := h.calls
  pairs a pair hheap := by
    rcases h.owned.known hheap with ⟨p, ho⟩ | hlost
    · have hheld := h.held p
      rw [ho] at hheld
      generalize hx : n.held p = x at hheld
      generalize hy : s.held p = y at hheld
      cases hheld with
      | pair hpair => exact .inr ⟨p, _, hx, hpair, hy⟩
    · exact .inl hlost
  alone p p' a fns fns' hp hp' := by
    have howns : ∀ {p fns}, s.held p = some (fns, .pair a) → ∃ pair, owner p = some (a, pair) := by
      intro p fns hp
      have hheld := h.held p
      rw [hp] at hheld
      generalize hx : n.held p = x at hheld
      generalize hz : owner p = z at hheld
      cases hheld with
      | pair hpair => exact ⟨_, rfl⟩
    obtain ⟨pair, ho⟩ := howns hp
    obtain ⟨pair', ho'⟩ := howns hp'
    exact h.owned.alone ho ho'

/-- Whatever the program registers, and in whatever order the implementation calls
back, refuses and frees, no trampoline reads a pair that is not its own or not
there any more, none is freed twice, and the program's functions are the ones that
are called. -/
theorem callbacks_reach {run : List CallbackAct} {n : NativeCallbacks}
    (hok : Meets (both (NativeCallbacks.step impl) (CallbackState.step impl)) (callbackOk impl)
      (.init, .init) run)
    (hrun : exec (NativeCallbacks.step impl) .init run = some n) :
    ∃ s, exec (CallbackState.step impl) .init run = some s ∧ CallbacksReach impl n s := by
  have hinit : CallbackSim impl .init .init :=
    ⟨fun _ => none, .empty, fun _ => .vacant, rfl, .nil, nofun⟩
  obtain ⟨s, hs, owner, h⟩ := simulates callback_step hinit hok hrun
  exact ⟨s, hs, h.reach⟩

/-- An implementation with the ABI's numbers and no large counts. -/
def smallCallbacks : ImplCallbacks where
  hasKeyval _ := true
  hasGrequest := true
  hasDatarep := true
  hasDatarepC := false
  handles := plainHandles
  maps := plainMaps
  built := plainMaps_built
  keyvals := ⟨id, fun _ _ _ _ h => h⟩

/-- A request is made, queried and freed while a keyval is refused, and another one
gets the memory of its pair and is copied. -/
def reusedPair : List CallbackAct :=
  [.start 0 (.grequest 0x10 0x11 0x12 0x99) (some 100), .made 0 7 0, .call 7 .query,
    .free 7, .start 1 (.attr .comm (.user 0x20) .null 0x98) (some 200), .refused 1, .freed 7,
    .start 0 (.attr .comm (.user 0x30) .null 0x97) (some 100), .made 0 8 41,
    .call 8 (.copy .comm 0x101 41 0 0 0)]

theorem reusedPair_ok :
    Meets (both (NativeCallbacks.step smallCallbacks) (CallbackState.step smallCallbacks))
      (callbackOk smallCallbacks) (.init, .init) reusedPair := by
  have hworld : ProperHandle plainHandles .comm 0x101 :=
    ⟨by decide, by decide, .inl ⟨(0x101, 0x101), by decide +kernel, rfl⟩⟩
  refine Meets.cons (fun a ha => by cases ha; rfl) fun _ h₁ => ?_
  cases h₁
  refine Meets.cons trivial fun _ h₂ => ?_
  cases h₂
  refine Meets.cons trivial fun _ h₃ => ?_
  cases h₃
  refine Meets.cons trivial fun _ h₄ => ?_
  cases h₄
  refine Meets.cons (fun a ha => by cases ha; rfl) fun _ h₅ => ?_
  cases h₅
  refine Meets.cons trivial fun _ h₆ => ?_
  cases h₆
  refine Meets.cons trivial fun _ h₇ => ?_
  cases h₇
  refine Meets.cons (fun a ha => by cases ha; rfl) fun _ h₈ => ?_
  cases h₈
  refine Meets.cons trivial fun _ h₉ => ?_
  cases h₉
  exact Meets.cons ⟨hworld, by decide⟩ fun _ _ => trivial

theorem reusedPair_reached :
    ∃ n s, exec (NativeCallbacks.step smallCallbacks) .init reusedPair = some n ∧
      exec (CallbackState.step smallCallbacks) .init reusedPair = some s ∧
      CallbacksReach smallCallbacks n s := by
  obtain ⟨n, hn⟩ := Option.isSome_iff_exists.mp
    (by rfl : (exec (NativeCallbacks.step smallCallbacks) .init reusedPair).isSome = true)
  obtain ⟨s, hs, h⟩ := callbacks_reach reusedPair_ok hn
  exact ⟨n, s, hn, hs, h⟩

end AbiWrapper.Ref
