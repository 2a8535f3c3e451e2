import AbiWrapper.Ref.Pools

/-!
# Which function a trampoline calls

A slot that is claimed for a function is no longer null, so no compare-exchange
takes it until it is given back: that is the whole design, and it says what it
needs. A create with a null function writes null over null, its slot stays
free, and the next create takes it too.

`PoolInv` has the slot of each create hold its function and be its alone. A
compare-exchange that succeeds found null, so by the first half whoever held
the slot was given null, and that is the one thing a run is asked not to do.
-/

namespace AbiWrapper.Ref

open AbiWrapper.Lib

/-! ## The steps -/

/-- What a step finds, and the state it leaves. -/
inductive PoolStep (s : PoolState) : PoolAct → PoolState → Prop
  | create {i : Nat} {pool : Pool} {fn : UInt64} (hpc : (s.creations i).pc = .idle) :
      PoolStep s (.create i pool fn)
        { s with creations := Function.update s.creations i ⟨pool, fn, .alloc 0⟩ }
  | cas {i slot : Nat} (hpc : (s.creations i).pc = .alloc slot) :
      PoolStep s (.cas i) (s.casStep i slot)
  | accept {i slot : Nat} (hpc : (s.creations i).pc = .target slot) :
      PoolStep s (.accept i) (s.setPc i (.live slot))
  | refuse {i slot : Nat} (hpc : (s.creations i).pc = .target slot) :
      PoolStep s (.refuse i) (s.setPc i (.release slot))
  | release {i slot : Nat} (hpc : (s.creations i).pc = .release slot) :
      PoolStep s (.release i) ((s.store (s.creations i).pool slot 0).setPc i .failed)
  | free {i slot : Nat} (hpc : (s.creations i).pc = .live slot) :
      PoolStep s (.free i) (s.setPc i (.freed slot))
  | dispatch {i slot : Nat} (hpc : (s.creations i).pc.held = some slot) :
      PoolStep s (.dispatch i)
        { s with invoked := s.invoked ++ [(i, s.fn (s.creations i).pool slot)] }

theorem step_cases {s s' : PoolState} {a : PoolAct} (hs : s.step a = some s') :
    PoolStep s a s' := by
  cases a with
  | create i pool fn =>
      simp only [PoolState.step] at hs
      split at hs
      · next hpc => exact Option.some.inj hs ▸ .create hpc
      · exact nomatch hs
  | cas i =>
      simp only [PoolState.step] at hs
      split at hs
      · next hpc => exact Option.some.inj hs ▸ .cas hpc
      · exact nomatch hs
  | accept i =>
      simp only [PoolState.step] at hs
      split at hs
      · next hpc => exact Option.some.inj hs ▸ .accept hpc
      · exact nomatch hs
  | refuse i =>
      simp only [PoolState.step] at hs
      split at hs
      · next hpc => exact Option.some.inj hs ▸ .refuse hpc
      · exact nomatch hs
  | release i =>
      simp only [PoolState.step] at hs
      split at hs
      · next hpc => exact Option.some.inj hs ▸ .release hpc
      · exact nomatch hs
  | free i =>
      simp only [PoolState.step] at hs
      split at hs
      · next hpc => exact Option.some.inj hs ▸ .free hpc
      · exact nomatch hs
  | dispatch i =>
      simp only [PoolState.step] at hs
      split at hs
      · next hpc => exact Option.some.inj hs ▸ .dispatch (by rw [hpc]; rfl)
      · next hpc => exact Option.some.inj hs ▸ .dispatch (by rw [hpc]; rfl)
      · exact nomatch hs

/-! ## The invariant -/

structure PoolInv (s : PoolState) : Prop where
  stored : ∀ i pool slot, (s.creations i).holds pool slot → s.fn pool slot = (s.creations i).fn
  alone : ∀ i j pool slot, (s.creations i).holds pool slot → (s.creations j).holds pool slot →
    i = j
  invoked : ∀ i fn, (i, fn) ∈ s.invoked → (s.creations i).pc ≠ .idle ∧ fn = (s.creations i).fn

namespace PoolInv

variable {s s' : PoolState} {i slot : Nat} {pc : CreatePc} {pool : Pool} {fn : UInt64}

theorem init : PoolInv .init where
  stored _ _ _ h := nomatch h.2
  alone _ _ _ _ h := nomatch h.2
  invoked _ _ h := nomatch h

theorem setPc_creations_of_ne {j : Nat} (h : j ≠ i) :
    (s.setPc i pc).creations j = s.creations j := Function.update_of_ne h _ _

theorem setPc_creations_self :
    (s.setPc i pc).creations i = { s.creations i with pc := pc } := Function.update_self _ _ _

/-- A create holds after the step what it held before, or less. -/
theorem holds_setPc {j : Nat} (hpc : ∀ k, pc.held = some k → (s.creations i).pc.held = some k)
    (h : ((s.setPc i pc).creations j).holds pool slot) : (s.creations j).holds pool slot := by
  by_cases hj : j = i
  · subst hj
    rw [setPc_creations_self] at h
    exact ⟨h.1, hpc slot h.2⟩
  · rwa [setPc_creations_of_ne hj] at h

theorem setPc_fn (j : Nat) : ((s.setPc i pc).creations j).fn = (s.creations j).fn := by
  by_cases hj : j = i
  · subst hj
    rw [setPc_creations_self]
  · rw [setPc_creations_of_ne hj]

theorem setPc_pc_ne_idle (hpc : pc ≠ .idle) {j : Nat} (h : (s.creations j).pc ≠ .idle) :
    ((s.setPc i pc).creations j).pc ≠ .idle := by
  by_cases hj : j = i
  · subst hj
    rw [setPc_creations_self]
    exact hpc
  · rwa [setPc_creations_of_ne hj]

theorem move (h : PoolInv s) (hidle : pc ≠ .idle)
    (hpc : ∀ k, pc.held = some k → (s.creations i).pc.held = some k) :
    PoolInv (s.setPc i pc) where
  stored j p k hj := by
    rw [setPc_fn]
    exact h.stored j p k (holds_setPc hpc hj)
  alone j j' p k hj hj' := h.alone j j' p k (holds_setPc hpc hj) (holds_setPc hpc hj')
  invoked j f hm := by
    obtain ⟨hne, rfl⟩ := h.invoked j f hm
    exact ⟨setPc_pc_ne_idle hidle hne, (setPc_fn j).symm⟩

theorem store_self : (s.store pool slot fn).fn pool slot = fn := by
  simp only [PoolState.store, Function.update_self]

theorem store_of_ne {p : Pool} {k : Nat} (h : ¬ (p = pool ∧ k = slot)) :
    (s.store pool slot fn).fn p k = s.fn p k := by
  simp only [PoolState.store]
  by_cases hp : p = pool
  · subst hp
    rw [Function.update_self, Function.update_of_ne fun hk => h ⟨rfl, hk⟩]
  · rw [Function.update_of_ne hp]

/-- A slot that nobody holds may be written. -/
theorem store (h : PoolInv s) (hno : ∀ j, ¬ (s.creations j).holds pool slot) :
    PoolInv (s.store pool slot fn) where
  stored j p k hj := by
    rw [store_of_ne]
    · exact h.stored j p k hj
    · intro ⟨hp, hk⟩
      subst hp hk
      exact hno j hj
  alone := h.alone
  invoked := h.invoked

/-- The compare-exchange that claims a slot nobody holds. -/
theorem claim (h : PoolInv s) (hno : ∀ j, ¬ (s.creations j).holds (s.creations i).pool slot) :
    PoolInv ((s.store (s.creations i).pool slot (s.creations i).fn).setPc i (.target slot)) := by
  have hs : PoolInv (s.store (s.creations i).pool slot (s.creations i).fn) := h.store hno
  -- What another create holds is what it held, and it is another slot.
  have hother : ∀ j p k, j ≠ i →
      (((s.store (s.creations i).pool slot (s.creations i).fn).setPc i
        (.target slot)).creations j).holds p k → (s.creations j).holds p k := by
    intro j p k hj hh
    rwa [setPc_creations_of_ne hj] at hh
  have hself : ∀ p k,
      (((s.store (s.creations i).pool slot (s.creations i).fn).setPc i
        (.target slot)).creations i).holds p k → p = (s.creations i).pool ∧ k = slot := by
    intro p k hh
    rw [setPc_creations_self] at hh
    exact ⟨hh.1.symm, (Option.some.inj hh.2).symm⟩
  constructor
  · intro j p k hh
    rw [setPc_fn]
    by_cases hj : j = i
    · subst hj
      obtain ⟨rfl, rfl⟩ := hself p k hh
      exact store_self
    · exact hs.stored j p k (hother j p k hj hh)
  · intro j j' p k hh hh'
    by_cases hj : j = i <;> by_cases hj' : j' = i
    · rw [hj, hj']
    · subst hj
      obtain ⟨rfl, rfl⟩ := hself p k hh
      exact absurd (hother j' _ _ hj' hh') (hno j')
    · subst hj'
      obtain ⟨rfl, rfl⟩ := hself p k hh'
      exact absurd (hother j _ _ hj hh) (hno j)
    · exact h.alone j j' p k (hother j p k hj hh) (hother j' p k hj' hh')
  · intro j f hm
    obtain ⟨hne, rfl⟩ := h.invoked j f hm
    have htarget : CreatePc.target slot ≠ .idle := nofun
    exact ⟨setPc_pc_ne_idle htarget hne, (setPc_fn j).symm⟩

theorem cas (h : PoolInv s)
    (hg : ∀ j, (s.creations j).holds (s.creations i).pool slot → (s.creations j).fn ≠ 0) :
    PoolInv (s.casStep i slot) := by
  simp only [PoolState.casStep]
  split
  · next hzero =>
      refine h.claim fun j hj => hg j hj ?_
      rw [← h.stored j _ _ hj, hzero]
  · split
    · exact h.move nofun fun k hk => nomatch hk
    · exact h.move nofun fun k hk => nomatch hk

theorem release (h : PoolInv s) (hpc : (s.creations i).pc = .release slot) :
    PoolInv ((s.store (s.creations i).pool slot 0).setPc i .failed) := by
  have hi : (s.creations i).holds (s.creations i).pool slot := ⟨rfl, by rw [hpc]; rfl⟩
  -- The create lets go of the slot first, for the proof; then nobody holds it.
  have hmove : PoolInv (s.setPc i .failed) := h.move nofun fun k hk => nomatch hk
  refine hmove.store fun j hj => ?_
  by_cases hji : j = i
  · subst hji
    rw [setPc_creations_self] at hj
    exact nomatch hj.2
  · rw [setPc_creations_of_ne hji] at hj
    exact hji (h.alone j i _ _ hj hi)

theorem create (h : PoolInv s) (hpc : (s.creations i).pc = .idle) :
    PoolInv { s with creations := Function.update s.creations i ⟨pool, fn, .alloc 0⟩ } := by
  have hother : ∀ j p k, (Function.update s.creations i ⟨pool, fn, .alloc 0⟩ j).holds p k →
      j ≠ i ∧ (s.creations j).holds p k := by
    intro j p k hh
    by_cases hj : j = i
    · subst hj
      rw [Function.update_self] at hh
      exact nomatch hh.2
    · rw [Function.update_of_ne hj] at hh
      exact ⟨hj, hh⟩
  constructor
  · intro j p k hh
    obtain ⟨hj, hh'⟩ := hother j p k hh
    show _ = (Function.update s.creations i _ j).fn
    rw [Function.update_of_ne hj]
    exact h.stored j p k hh'
  · intro j j' p k hh hh'
    exact h.alone j j' p k (hother j p k hh).2 (hother j' p k hh').2
  · intro j f hm
    obtain ⟨hne, rfl⟩ := h.invoked j f hm
    have hj : j ≠ i := fun hj => hne (hj ▸ hpc)
    show (Function.update s.creations i _ j).pc ≠ _ ∧ _ = (Function.update s.creations i _ j).fn
    rw [Function.update_of_ne hj]
    exact ⟨hne, rfl⟩

theorem dispatch (h : PoolInv s) (hpc : (s.creations i).pc.held = some slot) :
    PoolInv { s with
      invoked := s.invoked ++ [(i, s.fn (s.creations i).pool slot)] } where
  stored := h.stored
  alone := h.alone
  invoked j f hm := by
    rcases List.mem_append.mp hm with hm | hm
    · exact h.invoked j f hm
    · obtain ⟨rfl, rfl⟩ := Prod.mk.inj (List.mem_singleton.mp hm)
      refine ⟨fun hidle => ?_, h.stored j _ _ ⟨rfl, hpc⟩⟩
      rw [hidle] at hpc
      exact nomatch hpc

theorem step (h : PoolInv s) {a : PoolAct} (hg : nullHoldsNot s a) (hs : s.step a = some s') :
    PoolInv s' := by
  cases step_cases hs with
  | create hpc => exact h.create hpc
  | @cas i slot hpc => exact h.cas (hg slot hpc)
  | release hpc => exact h.release hpc
  | dispatch hpc => exact h.dispatch hpc
  | accept hpc | refuse hpc | free hpc =>
      refine h.move nofun fun k hk => ?_
      rw [hpc]
      exact hk

theorem run (acts : List PoolAct) (hm : Meets PoolState.step nullHoldsNot .init acts)
    (he : exec PoolState.step .init acts = some s) : PoolInv s :=
  exec_invariant (fun _ _ _ h hg hs => h.step hg hs) .init hm he

end PoolInv

/-! ## What a caller relies on -/

/-- What holds of the pools in a state a run has reached. -/
structure PoolsDispatch (s : PoolState) : Prop where
  /-- Two live objects of a pool have two slots. -/
  distinct : ∀ i j slot slot', (s.creations i).pc = .live slot →
    (s.creations j).pc = .live slot' → (s.creations i).pool = (s.creations j).pool → i ≠ j →
    slot ≠ slot'
  /-- No other create has claimed a live object's slot. -/
  unclaimed : ∀ i slot, (s.creations i).pc = .live slot → ∀ j, j ≠ i →
    ¬ (s.creations j).holds (s.creations i).pool slot
  /-- What a live object's trampoline would call now. -/
  current : ∀ i slot, (s.creations i).pc = .live slot →
    s.fn (s.creations i).pool slot = (s.creations i).fn
  /-- What it has called. -/
  invoked : ∀ i fn, (i, fn) ∈ s.invoked → fn = (s.creations i).fn

theorem PoolInv.dispatches {s : PoolState} (h : PoolInv s) : PoolsDispatch s where
  distinct i j slot slot' hi hj hpool hne he := by
    subst he
    refine hne (h.alone i j (s.creations i).pool slot ⟨rfl, ?_⟩ ⟨hpool.symm, ?_⟩)
    · rw [hi]
      rfl
    · rw [hj]
      rfl
  unclaimed i slot hi j hne hj := by
    refine hne (h.alone j i _ slot hj ⟨rfl, ?_⟩)
    rw [hi]
    rfl
  current i slot hi := by
    refine h.stored i _ slot ⟨rfl, ?_⟩
    rw [hi]
    rfl
  invoked i fn hm := (h.invoked i fn hm).2

/-- Every interleaving in which no slot of a null function is claimed again. -/
theorem pools_dispatch (acts : List PoolAct) (s : PoolState)
    (hm : Meets PoolState.step nullHoldsNot .init acts)
    (he : exec PoolState.step .init acts = some s) : PoolsDispatch s :=
  (PoolInv.run acts hm he).dispatches

/-! ## Where no function is null -/

/-- Every create that has been entered was given a function. -/
def AllGiven (s : PoolState) : Prop :=
  ∀ i, (s.creations i).pc ≠ .idle → (s.creations i).fn ≠ 0

theorem AllGiven.step {s s' : PoolState} {a : PoolAct} (h : AllGiven s) (hg : fnGiven s a)
    (hs : s.step a = some s') : AllGiven s' := by
  -- A step of a create that is not idle leaves its function alone.
  have hkeep : ∀ i pc, (s.creations i).pc ≠ .idle → AllGiven (s.setPc i pc) := by
    intro i pc hi j hj
    rw [PoolInv.setPc_fn]
    by_cases hji : j = i
    · exact h j (hji ▸ hi)
    · rw [PoolInv.setPc_creations_of_ne hji] at hj
      exact h j hj
  cases step_cases hs with
  | @create i pool fn hpc =>
      intro j hj
      by_cases hji : j = i
      · subst hji
        show (Function.update s.creations j _ j).fn ≠ 0
        rw [Function.update_self]
        exact hg
      · simp only [Function.update_of_ne hji] at hj ⊢
        exact h j hj
  | @cas i slot hpc =>
      have hi : (s.creations i).pc ≠ .idle := by simp [hpc]
      simp only [PoolState.casStep]
      split
      · exact hkeep i _ hi
      · exact hkeep i _ hi
  | accept hpc | refuse hpc | free hpc | release hpc => exact hkeep _ _ (by simp [hpc])
  | dispatch hpc => exact h

/-- A run that is given functions only claims no slot of a null one. -/
theorem meets_of_fnGiven {acts : List PoolAct} (hm : Meets PoolState.step fnGiven .init acts) :
    Meets PoolState.step nullHoldsNot .init acts := by
  refine hm.of_invariant (I := AllGiven) (fun _ _ _ h hg hs => h.step hg hs) ?_ ?_
  · intro s a h _
    cases a with
    | cas i =>
        intro slot hpc j hj
        refine h j fun hidle => ?_
        have hheld := hj.2
        rw [hidle] at hheld
        exact nomatch hheld
    | _ => trivial
  · intro i hi
    exact absurd rfl hi

/-! ## A null function -/

/-- Two reduction operators, of which the second is created while the first is
in use, and then a call of the first one's trampoline. -/
def twoOps (fn fn' : UInt64) : List PoolAct :=
  [.create 0 .op fn, .cas 0, .accept 0, .create 1 .op fn', .cas 1, .cas 1, .accept 1, .dispatch 0]

theorem pools_dispatch_two : ∃ s, exec PoolState.step .init (twoOps 5 6) = some s ∧
    (0, 5) ∈ s.invoked ∧ PoolsDispatch s :=
  ⟨_, rfl, by decide, pools_dispatch (twoOps 5 6) _ (meets_of_fnGiven (by decide)) rfl⟩

/-- The same with a null function, where the first compare-exchange of the
second create succeeds. -/
def nullOp : List PoolAct :=
  [.create 0 .op 0, .cas 0, .accept 0, .create 1 .op 6, .cas 1, .accept 1, .dispatch 0]

theorem null_function_shares_slot :
    ¬ ∀ (acts : List PoolAct) (s : PoolState),
      exec PoolState.step .init acts = some s → PoolsDispatch s := by
  intro h
  have hbad := h nullOp _ rfl
  exact absurd (hbad.distinct 0 1 0 0 rfl rfl rfl (by decide)) (by decide)

end AbiWrapper.Ref
