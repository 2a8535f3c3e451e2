import AbiWrapper.Proofs.Conversion
import AbiWrapper.Proofs.HandleBijection
import AbiWrapper.Ref.HandleErrors

/-!
# Who reports a flag

A body that converts takes, so it leaves the flag down, and reports what was up
when it had converted: its own hits and whatever was up before. The flag is
therefore down at every point of a history unless a callback has raised it,
and then the next body that takes reports it, whatever it converted itself. What
the application has a handle of has been converted once without a hit, so such a
callback is for an object that is the implementation's alone.
-/

namespace AbiWrapper.Ref

open AbiWrapper.Lib

variable {impl : UpImpl} {s s' : FlagState}

/-! ## Conversions and the flag -/

theorem toolToabi_snd (tool : ToolImpl) (c : ToolClass) (bits : UInt64) (flag : Bool) :
    (toolToabi tool c bits flag).2 = (flag || (toolToabi tool c bits false).2) := by
  simp only [toolToabi]
  split
  · simp
  · simp
  · split
    · simp
    · split
      · simp
      · split <;> simp

/-- A conversion raises the flag or leaves it. -/
theorem upToabi_snd (o : Object) (flag : Bool) :
    (upToabi impl o.1 o.2 flag).2 = (flag || decide (hits impl o)) := by
  have hdecide : decide (hits impl o) = (upToabi impl o.1 o.2 false).2 := by
    cases h : (upToabi impl o.1 o.2 false).2 <;> simp [hits, h]
  rw [hdecide]
  obtain ⟨c, bits⟩ := o
  cases c with
  | handle c => exact handleToabi_snd impl.maps c bits flag
  | tool c => exact toolToabi_snd impl.tool c bits flag

theorem upAll_snd (handles : List Object) (flag : Bool) :
    (upAll impl handles flag).2 = (flag || handles.any fun o => hits impl o) := by
  induction handles generalizing flag with
  | nil => simp [upAll]
  | cons o rest ih =>
      simp only [upAll, List.any_cons]
      rw [ih, upToabi_snd, Bool.or_assoc]

theorem upAll_clear {handles : List Object} (h : ∀ o, o ∈ handles → ¬ hits impl o) (flag : Bool) :
    (upAll impl handles flag).2 = flag := by
  rw [upAll_snd]
  have hnone : (handles.any fun o => hits impl o) = false := by
    rw [List.any_eq_false]
    exact fun o ho => by simpa using h o ho
  rw [hnone, Bool.or_false]

/-- A constant is recognized before anybody looks at its bits. -/
theorem predefined_clear {o : Object} (h : impl.predefined o) : ¬ hits impl o := by
  obtain ⟨c, bits⟩ := o
  cases c with
  | handle c =>
      obtain ⟨abi, habi⟩ := Option.isSome_iff_exists.mp h
      simp only [hits, upToabi, handleToabi, habi]
      exact Bool.false_ne_true
  | tool c =>
      cases c with
      | eventRegistration | eventInstance => exact False.elim h
      | enum | cvarHandle | pvarSession =>
          rcases h with rfl | ⟨hc, -⟩
          · simp [hits, upToabi, toolToabi]
          · cases hc
      | pvarHandle =>
          rcases h with rfl | ⟨-, rfl⟩
          · simp [hits, upToabi, toolToabi]
          · simp only [hits, upToabi, toolToabi]
            split <;> simp

/-! ## Histories -/

/-- What is claimed of the calls that have returned. -/
def ReportsOwn (s : FlagState) : Prop := ∀ r, r ∈ s.reports → r.reported = true → r.own = true

structure FlagInv (impl : UpImpl) (s : FlagState) : Prop where
  down : s.handleError = false
  reports : ReportsOwn s
  /-- The application's objects do not collide. -/
  held : ∀ o, o ∈ s.held → ¬ hits impl o

namespace FlagInv

theorem init : FlagInv impl .init where
  down := rfl
  reports _ h := nomatch h
  held _ h := nomatch h

theorem move (h : FlagInv impl s) (frames : List Frame) : FlagInv impl { s with frames } :=
  ⟨h.down, h.reports, h.held⟩

theorem reported (h : FlagInv impl s) {r : CallReport} (hr : r.reported = true → r.own = true) :
    ∀ r', r' ∈ s.reports ++ [r] → r'.reported = true → r'.own = true := by
  intro r' hm
  rcases List.mem_append.mp hm with hm | hm
  · exact h.reports r' hm
  · rw [List.mem_singleton.mp hm]
    exact hr

theorem leave (h : FlagInv impl s) (rest : List Frame) (exit : Exit) :
    FlagInv impl (s.leave impl rest exit) := by
  cases exit with
  | plain => exact ⟨h.down, h.reported (r := ⟨false, false⟩) nofun, h.held⟩
  | took handles =>
      refine ⟨rfl, h.reported fun hreported => ?_, fun o ho => ?_⟩
      · have hflag : (upAll impl handles s.handleError).2 = true := hreported
        rw [upAll_snd, h.down, Bool.false_or] at hflag
        exact hflag
      · rcases List.mem_append.mp ho with ho | ho
        · exact h.held o ho
        · simpa using (List.mem_filter.mp ho).2

theorem clear (h : FlagInv impl s) {t : Trampoline} {bits : List UInt64}
    (hknown : ∀ o, o ∈ t.handles bits → s.known impl o)
    (hg : callbackClear impl s (.callback t bits)) (o : Object) (ho : o ∈ t.handles bits) :
    ¬ hits impl o := by
  rcases hknown o ho with hheld | hunheld | hpredef
  · exact h.held o hheld
  · exact hg o ho hunheld
  · exact predefined_clear hpredef

theorem step (h : FlagInv impl s) {a : FlagAct} (hg : callbackClear impl s a)
    (hs : s.step impl a = some s') : FlagInv impl s' := by
  cases a with
  | enter =>
      simp only [FlagState.step] at hs
      split at hs
      · exact nomatch hs
      · obtain rfl := Option.some.inj hs
        exact h.move _
  | make o =>
      simp only [FlagState.step] at hs
      split at hs
      · exact nomatch hs
      · obtain rfl := Option.some.inj hs
        exact ⟨h.down, h.reports, h.held⟩
  | callback t bits =>
      simp only [FlagState.step] at hs
      split at hs
      · next hcan =>
          obtain rfl := Option.some.inj hs
          refine ⟨?_, h.reports, h.held⟩
          show (upAll impl (t.handles bits) s.handleError).2 = false
          rw [upAll_clear (h.clear hcan.2 hg), h.down]
      · exact nomatch hs
  | ret =>
      simp only [FlagState.step] at hs
      split at hs
      · obtain rfl := Option.some.inj hs
        exact h.move _
      · exact nomatch hs
  | leave exit =>
      simp only [FlagState.step] at hs
      split at hs
      · obtain rfl := Option.some.inj hs
        exact h.leave _ exit
      · exact nomatch hs

end FlagInv

/-- Every history of a thread in which no callback is called for an object that is
the implementation's alone and meets the reserved window: the calls report their
own conversions. -/
theorem handle_errors_own (impl : UpImpl) (acts : List FlagAct) (s : FlagState)
    (hm : Meets (FlagState.step impl) (callbackClear impl) .init acts)
    (he : exec (FlagState.step impl) .init acts = some s) : ReportsOwn s :=
  (exec_invariant (I := FlagInv impl) (fun _ _ _ h hg hs => h.step hg hs) .init hm he).reports

/-! ## A communicator that is duplicated inside a call -/

def plainUp : UpImpl := ⟨plainImpl.maps, ⟨fun _ => 0, 1⟩⟩

theorem plainComm_range :
    ((plainImpl.handles.predef .comm).all fun p => inPredefRange p.2) = true := by
  decide +kernel

theorem plainComm_hits : hits plainUp (.handle .comm, 0x21) := by
  show (handleToabi plainImpl.maps .comm 0x21 false).2 = true
  rw [plain_translates (by decide) (by decide) (by decide +kernel)]
  decide

theorem plainComm_clear {bits : UInt64} (hempty : bits ≠ rmapEmpty) (hb : ¬ inPredefRange bits) :
    ¬ hits plainUp (.handle .comm, bits) := by
  show ¬ (handleToabi plainImpl.maps .comm bits false).2 = true
  have ht := translates plainImpl.built (c := .comm) (by decide) hempty
  have hpredef : ∀ p, p ∈ plainImpl.handles.predef .comm → p.2 ≠ bits := by
    rintro p hp rfl
    exact hb (of_decide_eq_true (List.all_eq_true.mp plainComm_range p hp))
  rw [(ht.dynamic hpredef hb false).1]
  exact Bool.false_ne_true

/-- The application duplicates a communicator with an attribute. Inside its next
call, which returns no handle, the implementation duplicates this one and frees
the duplicate, so that the attribute is copied and deleted; a shared file pointer
that cannot be opened is such a case. Then the application makes another one. -/
def dupInside (held own made : UInt64) : List FlagAct :=
  [.enter, .leave (.took [(.handle .comm, held)]),
   .enter, .callback .commCopy [held], .ret, .make (.handle .comm, own),
   .callback .commDelete [own], .ret, .leave .plain,
   .enter, .leave (.took [(.handle .comm, made)])]

theorem exec_dupInside {impl : UpImpl} {held : UInt64} (own made : UInt64)
    (hheld : ¬ hits impl (.handle .comm, held)) :
    ∃ s, exec (FlagState.step impl) .init (dupInside held own made) = some s ∧
      s.reports = [⟨false, false⟩, ⟨false, false⟩,
        ⟨hits impl (.handle .comm, own) || hits impl (.handle .comm, made),
          hits impl (.handle .comm, made)⟩] := by
  simp [dupInside, exec_cons, FlagState.step, FlagState.leave, FlagState.init, FlagState.known,
    Trampoline.handles, Trampoline.classes, takeHandleError, upAll_snd, hheld]

theorem dupInside_clear {impl : UpImpl} {held own made : UInt64}
    (hown : ¬ hits impl (.handle .comm, own)) (hheld : ¬ hits impl (.handle .comm, held)) :
    Meets (FlagState.step impl) (callbackClear impl) .init (dupInside held own made) := by
  refine Meets.of_forall fun a ha s => ?_
  simp only [dupInside, List.mem_cons, List.not_mem_nil, or_false] at ha
  rcases ha with rfl | rfl | rfl | rfl | rfl | rfl | rfl | rfl | rfl | rfl | rfl
  all_goals first
    | trivial
    | (intro o ho _
       obtain rfl := List.mem_singleton.mp ho
       assumption)

theorem plainComm_held : ¬ hits plainUp (.handle .comm, 0x6000) :=
  plainComm_clear (by decide) (by decide)

theorem plainComm_own : ¬ hits plainUp (.handle .comm, 0x6100) :=
  plainComm_clear (by decide) (by decide)

/-- A collision of its own is reported. -/
theorem handle_errors_own_hit : ∃ s,
    exec (FlagState.step plainUp) .init (dupInside 0x6000 0x6100 0x21) = some s ∧
      s.reports = [⟨false, false⟩, ⟨false, false⟩, ⟨true, true⟩] ∧ ReportsOwn s := by
  obtain ⟨s, hs, hr⟩ := exec_dupInside 0x6100 0x21 plainComm_held
  refine ⟨s, hs, ?_, handle_errors_own plainUp (dupInside 0x6000 0x6100 0x21) s
    (dupInside_clear plainComm_own plainComm_held) hs⟩
  rw [hr]
  simp [plainComm_hits]

/-- That of the implementation's duplicate is reported by a later call. -/
theorem callback_hit_reported :
    ¬ ∀ (impl : UpImpl) (acts : List FlagAct) (s : FlagState),
      exec (FlagState.step impl) .init acts = some s → ReportsOwn s := by
  intro h
  obtain ⟨s, hs, hr⟩ := exec_dupInside 0x21 0x6100 plainComm_held
  have hbad := h plainUp (dupInside 0x6000 0x21 0x6100) s hs
    ⟨true, false⟩ (by simp [hr, plainComm_hits, plainComm_own]) rfl
  exact nomatch hbad

end AbiWrapper.Ref
