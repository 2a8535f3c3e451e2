import AbiWrapper.Proofs.ErrorClass
import AbiWrapper.Proofs.HandleBijection
import AbiWrapper.Ref.EventCallbacks
import Mathlib.Data.List.Range

/-!
# What an event runs

Used by one thread, the map has at most one entry for a handle, and its fields
should be what the implementation has accepted for that handle; then the
trampolines, which read the entry, run what was registered last.

The map is written before the implementation is asked, and a refusal undoes
nothing. It takes nothing back exactly when it had nothing to take back: the
entry had the call's fields already, or the call had claimed no entry
(`refused_unchanged`). In a run whose refusals are all like that the two agree
(`EventsInv`).
-/

namespace AbiWrapper.Ref

open AbiWrapper.Lib

variable {events : EventTable} {key reg : UInt64} {i j : Nat}
  {stores : List (EventField × UInt64)} {field : EventField → UInt64}

/-! ## Stores -/

theorem storeFields_cons {store : EventField × UInt64} :
    storeFields (store :: stores) field =
      storeFields stores (Function.update field store.1 store.2) := rfl

theorem storeFields_other {f : EventField} (h : f ∉ stores.map Prod.fst) :
    storeFields stores field f = field f := by
  induction stores generalizing field with
  | nil => rfl
  | cons store rest ih =>
      rw [List.map_cons, List.mem_cons, not_or] at h
      rw [storeFields_cons, ih h.2, Function.update_of_ne h.1]

theorem storeFields_eq_self (hnodup : (stores.map Prod.fst).Nodup) :
    storeFields stores field = field ↔ ∀ store, store ∈ stores → field store.1 = store.2 := by
  induction stores generalizing field with
  | nil => exact ⟨fun _ => nofun, fun _ => rfl⟩
  | cons store rest ih =>
      obtain ⟨hnot, hrest⟩ := List.nodup_cons.mp hnodup
      rw [storeFields_cons]
      constructor
      · intro heq
        have hself : field store.1 = store.2 := by
          have hat := congrFun heq store.1
          rw [storeFields_other hnot, Function.update_self] at hat
          exact hat.symm
        rw [← hself, Function.update_eq_self] at heq
        exact List.forall_mem_cons.mpr ⟨hself, (ih hrest).mp heq⟩
      · intro hall
        obtain ⟨hself, hall⟩ := List.forall_mem_cons.mp hall
        rw [← hself, Function.update_eq_self]
        exact (ih hrest).mpr hall

theorem claimed_field (e : EventEntry) : (e.claimed key).field = fun _ => 0 := by
  funext f
  cases f with
  | cb level => match level with
      | 0 | 1 | 2 | 3 => rfl
  | cbData level => match level with
      | 0 | 1 | 2 | 3 => rfl
  | _ => rfl

/-! ## The loops -/

/-- The entry of a handle. -/
def EventTable.Holds (events : EventTable) (key : UInt64) (i : Nat) : Prop :=
  i < eventSlots ∧ (events i).used = true ∧ (events i).key = key

/-- Every handle has at most one. -/
def EventTable.Single (events : EventTable) : Prop :=
  ∀ key i j, events.Holds key i → events.Holds key j → i = j

theorem eventFind_some (h : eventFind key events = some i) : events.Holds key i := by
  obtain ⟨hp, hi, -⟩ := List.find?_range_eq_some.mp h
  obtain ⟨hused, hkey⟩ := of_decide_eq_true hp
  exact ⟨List.mem_range.mp hi, hused, hkey⟩

theorem eventFind_none (h : eventFind key events = none) : ¬events.Holds key i :=
  fun ⟨hi, hused, hkey⟩ => List.find?_eq_none.mp h i (List.mem_range.mpr hi)
    (decide_eq_true ⟨hused, hkey⟩)

theorem EventTable.Single.find (h : events.Single) (hi : events.Holds key i) :
    eventFind key events = some i := by
  cases hf : eventFind key events with
  | none => exact absurd hi (eventFind_none hf)
  | some j => rw [h key j i (eventFind_some hf) hi]

inductive Interns (key : UInt64) (events : EventTable) : Option (Nat × EventTable) → Prop
  | found {i : Nat} (h : eventFind key events = some i) : Interns key events (some (i, events))
  | claimed {i : Nat} (h : eventFind key events = none) (hi : i < eventSlots)
      (hfree : (events i).used = false) :
      Interns key events (some (i, Function.update events i ((events i).claimed key)))
  | full (h : eventFind key events = none) (hused : ∀ i, i < eventSlots → (events i).used = true) :
      Interns key events none

theorem eventIntern_cases (key : UInt64) (events : EventTable) :
    Interns key events (eventIntern key events) := by
  rw [eventIntern]
  cases hf : eventFind key events with
  | some i => exact .found hf
  | none =>
      cases hfree : (List.range eventSlots).find? fun i => (events i).used = false with
      | some i =>
          obtain ⟨hp, hi, -⟩ := List.find?_range_eq_some.mp hfree
          exact .claimed hf (List.mem_range.mp hi) (of_decide_eq_true hp)
      | none =>
          refine .full hf fun i hi => ?_
          have hnot := List.find?_eq_none.mp hfree i (List.mem_range.mpr hi)
          cases hused : (events i).used with
          | true => rfl
          | false => exact absurd (decide_eq_true hused) hnot

/-- What setting fields of a handle's entry comes to. -/
inductive Sets (reg : UInt64) (stores : List (EventField × UInt64)) (events : EventTable) :
    Option EventTable → Prop
  | found {i : Nat} (h : eventFind reg events = some i) : Sets reg stores events
      (some (Function.update events i
        { events i with field := storeFields stores (events i).field }))
  | claimed {i : Nat} (h : eventFind reg events = none) (hi : i < eventSlots)
      (hfree : (events i).used = false) : Sets reg stores events
      (some (Function.update events i ⟨true, reg, storeFields stores fun _ => 0⟩))
  | full (h : eventFind reg events = none) (hused : ∀ i, i < eventSlots → (events i).used = true) :
      Sets reg stores events none

theorem eventSet_cases (reg : UInt64) (stores : List (EventField × UInt64)) (events : EventTable) :
    Sets reg stores events (eventSet reg stores events) := by
  rw [eventSet]
  have hintern := eventIntern_cases reg events
  generalize eventIntern reg events = r at hintern ⊢
  cases hintern with
  | found h => exact .found h
  | claimed h hi hfree =>
      simp only [Option.map_some, Function.update_self, claimed_field, Function.update_idem]
      exact .claimed h hi hfree
  | full h hused => exact .full h hused

theorem eventSet_none (h : eventSet reg stores events = none) : eventFind reg events = none ∧
    ∀ i, i < eventSlots → (events i).used = true := by
  have hcases := eventSet_cases reg stores events
  rw [h] at hcases
  cases hcases with
  | full hf hused => exact ⟨hf, hused⟩

theorem eventSet_room {events' : EventTable} (h : eventSet reg stores events = some events')
    (hf : eventFind reg events = none) : ∃ i, i < eventSlots ∧ (events i).used = false := by
  have hcases := eventSet_cases reg stores events
  rw [h] at hcases
  cases hcases with
  | found hf' => exact nomatch hf.symm.trans hf'
  | claimed _ hi hfree => exact ⟨_, hi, hfree⟩

/-! ## The bodies -/

section Bodies

variable {impl : ImplEvents} {handles : ImplHandles} {errors : ImplErrors} {r : EventRequest}
  {ierror : Int32} {t : ErrorTable}

theorem registers_nodup (h : r.registers = some stores) : (stores.map Prod.fst).Nodup := by
  cases r with
  | registerCallback abiReg abiCbSafety abiInfo abiUserData abiFn =>
      obtain ⟨level, -, rfl⟩ := Option.map_eq_some_iff.mp h
      simp
  | setDroppedHandler abiReg abiFn =>
      cases h
      simp
  | handleFree abiReg abiUserData abiFn =>
      cases h
      simp

/-- What a body does: it refuses, or it sets the fields that it registers and
makes the call. -/
inductive Requests (impl : ImplEvents) (events : EventTable) (r : EventRequest) :
    EventResult → Prop
  | missing {result : EventResult} (h : r.compiled impl = false) (hcall : result.call = none)
      (hevents : result.events = events) : Requests impl events r result
  | invalid {result : EventResult} (h : r.registers = none) (hcall : result.call = none)
      (hevents : result.events = events) : Requests impl events r result
  | full {result : EventResult} {stores : List (EventField × UInt64)}
      (hc : r.compiled impl = true) (h : r.registers = some stores)
      (hset : eventSet r.reg stores events = none) (hcall : result.call = none)
      (hevents : result.events = events) : Requests impl events r result
  | made {result : EventResult} {stores : List (EventField × UInt64)} {target : EventTarget}
      (hc : r.compiled impl = true) (h : r.registers = some stores)
      (hset : eventSet r.reg stores events = some result.events)
      (hcall : result.call = some target) : Requests impl events r result

/-- The three bodies are one text. -/
theorem eventBody_requests {set : EventTable → Option EventTable} {target : EventTarget}
    {compiled : Bool} (hc : r.compiled impl = compiled)
    (hset : ∀ events, set events = r.registers.bind fun stores => eventSet r.reg stores events) :
    Requests impl events r (eventBody errors compiled set target ierror events t) := by
  rw [eventBody]
  cases compiled with
  | false => exact .missing hc rfl rfl
  | true =>
      rw [if_pos rfl, hset]
      cases hr : r.registers with
      | none => exact .invalid hr rfl rfl
      | some stores =>
          rw [Option.bind_some]
          cases hs : eventSet r.reg stores events with
          | none => exact .full hc hr hs rfl rfl
          | some events' => exact .made hc hr hs rfl

theorem body_requests :
    Requests impl events r (r.body impl handles errors ierror events t) := by
  cases r with
  | registerCallback abiReg abiCbSafety abiInfo abiUserData abiFn =>
      refine eventBody_requests rfl fun events => ?_
      rw [eventSetCb, EventRequest.registers]
      cases safetyIndex abiCbSafety with
      | none => rfl
      | some level => rfl
  | setDroppedHandler abiReg abiFn => exact eventBody_requests rfl fun _ => rfl
  | handleFree abiReg abiUserData abiFn => exact eventBody_requests rfl fun _ => rfl

theorem update_entry_eq_self {e : EventEntry} (h : Function.update events i e = events) :
    e = events i := by
  have hat := congrFun h i
  rwa [Function.update_self] at hat

/-- Setting the fields of a handle's entry changes the map unless they were set
already. -/
theorem set_unchanged_iff {events' : EventTable} (hnodup : (stores.map Prod.fst).Nodup)
    (hset : eventSet reg stores events = some events') :
    events' = events ↔ ∃ i, eventFind reg events = some i ∧
      ∀ store, store ∈ stores → (events i).field store.1 = store.2 := by
  have hcases := eventSet_cases reg stores events
  rw [hset] at hcases
  cases hcases with
  | found h =>
      rw [h]
      constructor
      · intro heq
        have hentry := update_entry_eq_self heq
        exact ⟨_, rfl, (storeFields_eq_self hnodup).mp (congrArg EventEntry.field hentry)⟩
      · rintro ⟨k, hk, hall⟩
        cases hk
        rw [(storeFields_eq_self hnodup).mpr hall]
        exact Function.update_eq_self _ _
  | claimed h _ hfree =>
      rw [h]
      refine ⟨fun heq => ?_, nofun⟩
      have hused := congrArg EventEntry.used (update_entry_eq_self heq)
      exact nomatch hused.trans hfree

/-- A call leaves the map alone exactly if what it registers is held. -/
theorem unchanged_iff :
    (r.body impl handles errors ierror events t).events = events ↔ r.held impl events := by
  have hbody : Requests impl events r (r.body impl handles errors ierror events t) := body_requests
  generalize r.body impl handles errors ierror events t = result at hbody ⊢
  cases hbody with
  | missing h _ hevents => exact ⟨fun _ hc => (nomatch h.symm.trans hc), fun _ => hevents⟩
  | invalid h _ hevents => exact ⟨fun _ _ _ hs => (nomatch h.symm.trans hs), fun _ => hevents⟩
  | full _ h hset _ hevents =>
      refine ⟨fun _ _ _ hs => ?_, fun _ => hevents⟩
      cases h.symm.trans hs
      obtain ⟨hf, hused⟩ := eventSet_none hset
      rw [hf]
      exact hused
  | @made stores _ hc h hset _ =>
      rw [set_unchanged_iff (registers_nodup h) hset]
      constructor
      · rintro ⟨i, hf, hall⟩ _ stores' hs
        cases h.symm.trans hs
        rw [hf]
        exact hall
      · intro hheld
        have hheld := hheld hc stores h
        cases hf : eventFind r.reg events with
        | some i =>
            rw [hf] at hheld
            exact ⟨i, rfl, hheld⟩
        | none =>
            rw [hf] at hheld
            obtain ⟨i, hi, hfree⟩ := eventSet_room hset hf
            exact nomatch hfree.symm.trans (hheld i hi)

end Bodies

/-! ## Runs -/

/-- The fields of the entries are what has been accepted. -/
structure EventsInv (s : EventState) : Prop where
  single : s.events.Single
  known : ∀ key i, s.events.Holds key i → (s.events i).field = s.accepted key
  unknown : ∀ key, (∀ i, ¬s.events.Holds key i) → s.accepted key = fun _ => 0

namespace EventsInv

variable {s s' : EventState} {impl : ImplEvents} {handles : ImplHandles} {errors : ImplErrors}

theorem init : EventsInv .init where
  single _ _ _ h := nomatch h.2.1
  known _ _ h := nomatch h.2.1
  unknown _ _ := rfl

theorem errors_congr {t : ErrorTable} (h : EventsInv s) :
    EventsInv { s with errors := t } := ⟨h.single, h.known, h.unknown⟩

/-- What is read through the entry of a handle is what has been accepted. -/
theorem lookup (h : EventsInv s) (key : UInt64) :
    (∃ i, eventFind key s.events = some i ∧ (s.events i).field = s.accepted key) ∨
      eventFind key s.events = none ∧ s.accepted key = fun _ => 0 := by
  cases hf : eventFind key s.events with
  | some i => exact .inl ⟨i, rfl, h.known key i (eventFind_some hf)⟩
  | none => exact .inr ⟨rfl, h.unknown key fun i => eventFind_none hf⟩

/-- An entry is written for one handle: that it has before, or a free one. -/
theorem put (h : EventsInv s) {i : Nat} {field : EventField → UInt64} (hi : i < eventSlots)
    (hown : s.events.Holds reg i ∨ (s.events i).used = false ∧ ∀ j, ¬s.events.Holds reg j) :
    EventsInv { s with
      events := Function.update s.events i ⟨true, reg, field⟩
      accepted := Function.update s.accepted reg field } := by
  have hself : EventTable.Holds (Function.update s.events i ⟨true, reg, field⟩) reg i := by
    rw [EventTable.Holds, Function.update_self]
    exact ⟨hi, rfl, rfl⟩
  have hat : ∀ key, EventTable.Holds (Function.update s.events i ⟨true, reg, field⟩) key i →
      key = reg := fun key hk => by
    rw [EventTable.Holds, Function.update_self] at hk
    exact hk.2.2.symm
  have hother : ∀ {key j}, j ≠ i →
      (EventTable.Holds (Function.update s.events i ⟨true, reg, field⟩) key j ↔
        s.events.Holds key j) := fun hne => by
    rw [EventTable.Holds, Function.update_of_ne hne]
    exact .rfl
  have hno : ∀ j, j ≠ i → ¬s.events.Holds reg j := fun j hne hj => by
    rcases hown with hold | ⟨-, hnone⟩
    · exact hne (h.single reg j i hj hold)
    · exact hnone j hj
  have hfree : ∀ key, key ≠ reg → ¬s.events.Holds key i := fun key hne hk => by
    rcases hown with hold | ⟨hunused, -⟩
    · exact hne (hk.2.2.symm.trans hold.2.2)
    · exact nomatch hunused.symm.trans hk.2.1
  constructor
  · intro key j j' hj hj'
    by_cases hji : j = i <;> by_cases hji' : j' = i
    · rw [hji, hji']
    · subst hji
      rw [hat key hj] at hj'
      exact absurd ((hother hji').mp hj') (hno j' hji')
    · subst hji'
      rw [hat key hj'] at hj
      exact absurd ((hother hji).mp hj) (hno j hji)
    · exact h.single key j j' ((hother hji).mp hj) ((hother hji').mp hj')
  · intro key j hj
    show (Function.update s.events i _ j).field = Function.update s.accepted reg field key
    by_cases hji : j = i
    · subst hji
      rw [hat key hj, Function.update_self, Function.update_self]
    · have hj := (hother hji).mp hj
      have hne : key ≠ reg := fun heq => hno j hji (heq ▸ hj)
      rw [Function.update_of_ne hji, Function.update_of_ne hne]
      exact h.known key j hj
  · intro key hnone
    have hne : key ≠ reg := fun heq => hnone i (heq ▸ hself)
    show Function.update s.accepted reg field key = fun _ => 0
    rw [Function.update_of_ne hne]
    refine h.unknown key fun j hj => ?_
    by_cases hji : j = i
    · subst hji
      exact hfree key hne hj
    · exact hnone j ((hother hji).mpr hj)

/-- An entry is given back. -/
theorem drop (h : EventsInv s) {i : Nat} (hi : s.events.Holds reg i) :
    EventsInv { s with
      events := Function.update s.events i { s.events i with used := false }
      accepted := Function.update s.accepted reg fun _ => 0 } := by
  have hholds : ∀ key j,
      EventTable.Holds (Function.update s.events i { s.events i with used := false }) key j ↔
        j ≠ i ∧ s.events.Holds key j := fun key j => by
    rw [EventTable.Holds, Function.update_apply]
    split
    · next heq => exact ⟨fun hj => (nomatch hj.2.1), fun hj => absurd heq hj.1⟩
    · next hne => exact ⟨fun hj => ⟨hne, hj⟩, fun hj => hj.2⟩
  have hreg : ∀ key j, j ≠ i → s.events.Holds key j → key ≠ reg := fun key j hne hj heq =>
    hne (h.single reg j i (heq ▸ hj) hi)
  constructor
  · intro key j j' hj hj'
    exact h.single key j j' ((hholds key j).mp hj).2 ((hholds key j').mp hj').2
  · intro key j hj
    obtain ⟨hne, hj⟩ := (hholds key j).mp hj
    show (Function.update s.events i _ j).field = Function.update s.accepted reg _ key
    rw [Function.update_of_ne hne, Function.update_of_ne (hreg key j hne hj)]
    exact h.known key j hj
  · intro key hnone
    show Function.update s.accepted reg _ key = fun _ => 0
    rw [Function.update_apply]
    split
    · rfl
    · next hne =>
        refine h.unknown key fun j hj => hnone j ((hholds key j).mpr ⟨?_, hj⟩)
        rintro rfl
        exact hne (hj.2.2.symm.trans hi.2.2)

/-- Setting the fields of a handle's entry is accepting them. -/
theorem set (h : EventsInv s) {events' : EventTable}
    (hset : eventSet reg stores s.events = some events') :
    EventsInv { s with
      events := events'
      accepted := Function.update s.accepted reg (storeFields stores (s.accepted reg)) } := by
  have hcases := eventSet_cases reg stores s.events
  rw [hset] at hcases
  cases hcases with
  | @found i hf =>
      have hi := eventFind_some hf
      have hentry : { s.events i with field := storeFields stores (s.events i).field } =
          (⟨true, reg, storeFields stores (s.accepted reg)⟩ : EventEntry) := by
        rw [h.known reg i hi, ← hi.2.1, ← hi.2.2]
      rw [hentry]
      exact h.put hi.1 (.inl hi)
  | claimed hf hi hfree =>
      have hno := fun j => eventFind_none (i := j) hf
      rw [h.unknown reg hno]
      exact h.put hi (.inr ⟨hfree, hno⟩)

theorem request (h : EventsInv s) {r : EventRequest} {ierror : Int32}
    (hg : ierror ≠ 0 → r.held impl s.events)
    (hs : s.step impl handles errors (.request r ierror) = some s') : EventsInv s' := by
  cases hs
  by_cases herr : ierror = 0
  · have hbody : Requests impl s.events r (r.body impl handles errors ierror s.events s.errors) :=
      body_requests
    generalize r.body impl handles errors ierror s.events s.errors = result at hbody ⊢
    have hkept : result.call = none → result.events = s.events →
        EventsInv ⟨result.events, result.errors, s.accept r result.call ierror⟩ := by
      intro hcall hevents
      rw [hevents, EventState.accept, if_neg fun hc => hc.1 hcall]
      exact h.errors_congr
    cases hbody with
    | missing _ hcall hevents => exact hkept hcall hevents
    | invalid _ hcall hevents => exact hkept hcall hevents
    | full _ _ _ hcall hevents => exact hkept hcall hevents
    | made _ hr hset hcall =>
        rw [EventState.accept, if_pos ⟨by rw [hcall]; nofun, herr⟩, hr]
        exact (h.set hset).errors_congr
  · rw [EventState.accept, if_neg fun hc => herr hc.2]
    rw [unchanged_iff.mpr (hg herr)]
    exact h.errors_congr

theorem freed (h : EventsInv s) (reg : UInt64) (cbSafety : Int32) :
    EventsInv { s with
      events := (eventFreeTramp impl s.events reg cbSafety).2
      accepted := Function.update s.accepted reg fun _ => 0 } := by
  rw [eventFreeTramp]
  cases hf : eventFind reg s.events with
  | some i => exact h.drop (eventFind_some hf)
  | none =>
      have hnone := h.unknown reg fun i => eventFind_none hf
      rw [← hnone, Function.update_eq_self]
      exact h

theorem step (h : EventsInv s) {m : EventMove} (hg : refusalsHeld impl s m)
    (hs : s.step impl handles errors m = some s') : EventsInv s' := by
  cases m with
  | request r ierror => exact h.request hg hs
  | freed reg cbSafety =>
      cases hs
      exact h.freed reg cbSafety

theorem run {moves : List EventMove}
    (hm : Meets (EventState.step impl handles errors) (refusalsHeld impl) .init moves)
    (he : exec (EventState.step impl handles errors) .init moves = some s) : EventsInv s :=
  exec_invariant (fun _ _ _ h hg hs => step h hg hs) init hm he

end EventsInv

/-- The level that a registration names to the implementation is the one that
an event raised at it looks up. -/
theorem safety_round_trip (impl : ImplEvents) {level : Fin 4} (h : impl.has level = true) :
    safetyIndex (tcbsafetyToabi impl (tcbsafetyFromabi impl (abiSafety level))) = some level := by
  have hindex : ∀ level, safetyIndex (abiSafety level) = some level := by decide
  have hmem : ∀ level : Fin 4, level ∈ [0, 1, 2, 3] := by decide
  rw [tcbsafetyFromabi, hindex]
  simp only [h, if_true]
  rw [tcbsafetyToabi]
  cases hf : [0, 1, 2, 3].find? fun l : Fin 4 => impl.has l ∧ impl.code l = impl.code level with
  | none => exact absurd (decide_eq_true ⟨h, rfl⟩) (List.find?_eq_none.mp hf level (hmem level))
  | some level' =>
      have hfound := List.find?_some (p := fun l => impl.has l ∧ impl.code l = impl.code level) hf
      obtain ⟨hhas, hcode⟩ := of_decide_eq_true hfound
      rw [impl.distinct level' level hhas h hcode]
      exact hindex level

/-- What the implementation can make of a state: any event, and any call that
it refuses. -/
structure EventsAccepted (impl : ImplEvents) (handles : ImplHandles) (errors : ImplErrors)
    (s : EventState) : Prop where
  event : ∀ eventInstance reg cbSafety, eventCbTramp impl s.events eventInstance reg cbSafety =
    eventInvocation impl (s.accepted reg) eventInstance reg cbSafety
  dropped : ∀ count reg sourceIndex cbSafety,
    eventDroppedTramp impl s.events count reg sourceIndex cbSafety =
      droppedInvocation impl (s.accepted reg) count reg sourceIndex cbSafety
  freed : ∀ reg cbSafety, (eventFreeTramp impl s.events reg cbSafety).1 =
    freeInvocation impl (s.accepted reg) reg cbSafety
  level : ∀ level, impl.has level = true →
    safetyIndex (tcbsafetyToabi impl (tcbsafetyFromabi impl (abiSafety level))) = some level
  refused : ∀ (r : EventRequest) ierror t, ierror ≠ 0 →
    ((r.body impl handles errors ierror s.events t).events = s.events ↔
      r.held impl s.events)

/-- Nothing is run for a handle with nothing registered. -/
theorem eventInvocation_nothing {impl : ImplEvents} {eventInstance : UInt64} {cbSafety : Int32} :
    eventInvocation impl (fun _ => 0) eventInstance reg cbSafety = none := by
  rw [eventInvocation]
  cases safetyIndex (tcbsafetyToabi impl cbSafety) with
  | none => rfl
  | some level => rfl

theorem EventsInv.accepted {s : EventState} {impl : ImplEvents} {handles : ImplHandles}
    {errors : ImplErrors} (h : EventsInv s) : EventsAccepted impl handles errors s where
  event eventInstance reg cbSafety := by
    rw [eventCbTramp]
    rcases h.lookup reg with ⟨i, hf, hfield⟩ | ⟨hf, hnone⟩
    · rw [hf, ← hfield]
    · rw [hf, hnone, eventInvocation_nothing]
  dropped count reg sourceIndex cbSafety := by
    rw [eventDroppedTramp]
    rcases h.lookup reg with ⟨i, hf, hfield⟩ | ⟨hf, hnone⟩
    · rw [hf, ← hfield]
    · rw [hf, hnone]
      rfl
  freed reg cbSafety := by
    rw [eventFreeTramp]
    rcases h.lookup reg with ⟨i, hf, hfield⟩ | ⟨hf, hnone⟩
    · rw [hf, ← hfield]
    · rw [hf, hnone]
      rfl
  level _ hhas := safety_round_trip impl hhas
  refused _ _ _ _ := unchanged_iff

/-- In every run in which the implementation refuses only what is held, an event
runs what was last accepted for its handle and level, and the next refused call
leaves the map as it was exactly when what it registers is held too. -/
theorem events_accepted {impl : ImplEvents} {handles : ImplHandles} {errors : ImplErrors}
    {moves : List EventMove} {s : EventState}
    (hm : Meets (EventState.step impl handles errors) (refusalsHeld impl) .init moves)
    (he : exec (EventState.step impl handles errors) .init moves = some s) :
    EventsAccepted impl handles errors s := (EventsInv.run hm he).accepted

/-- An implementation that numbers its safety levels from zero. -/
def numberedLevels : ImplEvents where
  registers := true
  drops := true
  frees := true
  has _ := true
  code level := Int32.ofNat level
  distinct := by decide

/-- The second registration for the handle's level is refused. -/
def registeredAgain : List EventMove :=
  [.request (.registerCallback 5 0x03 0 100 1000) 0,
    .request (.registerCallback 5 0x03 0 200 2000) 16]

/-- An event runs its function, with its data. -/
theorem refused_callback_runs :
    ∃ s, exec (EventState.step numberedLevels integerHandles withoutOptional) .init
        registeredAgain = some s ∧
      eventCbTramp numberedLevels s.events 7 5 1 = some (.event 2000 7 5 0x03 200) ∧
      eventInvocation numberedLevels (s.accepted 5) 7 5 1 = some (.event 1000 7 5 0x03 100) := by
  refine ⟨_, rfl, by decide, by decide⟩

/-- A refusal of the same registration is harmless. -/
def registeredSame : List EventMove :=
  [.request (.registerCallback 5 0x03 0 100 1000) 0,
    .request (.registerCallback 5 0x03 0 100 1000) 16]

theorem registeredSame_accepted :
    ∃ s, exec (EventState.step numberedLevels integerHandles withoutOptional) .init
        registeredSame = some s ∧
      eventCbTramp numberedLevels s.events 7 5 1 = some (.event 1000 7 5 0x03 100) ∧
      EventsAccepted numberedLevels integerHandles withoutOptional s := by
  have hm : Meets (EventState.step numberedLevels integerHandles withoutOptional)
      (refusalsHeld numberedLevels) .init registeredSame := by
    refine Meets.cons (fun h => absurd rfl h) fun s₁ h₁ => Meets.cons ?_ fun _ _ => trivial
    cases h₁
    rintro - - stores hstores
    cases hstores
    split
    · next heq =>
        cases heq.symm.trans (show _ = some 0 by decide)
        decide
    · next heq => exact nomatch heq.symm.trans (show _ = some 0 by decide)
  exact ⟨_, rfl, by decide, events_accepted hm rfl⟩

end AbiWrapper.Ref
