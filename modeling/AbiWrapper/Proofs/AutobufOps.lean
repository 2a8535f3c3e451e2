import AbiWrapper.Ref.Autobuf
import Mathlib.Data.List.Nodup

/-!
# Who frees which block

Every block is at one place: not allocated yet, in the hands of a thread, in a
slot, or gone. That alone makes every block be freed at most once, whatever the
threads do, since an exchange takes the block out of the slot.

Whose block it is takes more. A release looks at a slot's scope and exchanges
its block afterwards, and in between the slot may have been given back by
another release of the same scope and taken by a claim for a different one. The
order in which a slot's two words are cleared does not help: both are set again
by then. So the invariant holds in a run whose exchanges find the scope they
looked at, and the run below is one that goes on otherwise.
-/

namespace AbiWrapper.Ref

open AbiWrapper.Lib

/-! ## Where a block is -/

inductive Place
  | unborn
  | held (i : Nat)
  | stored (slot : Nat)
  | gone
deriving DecidableEq

inductive AutobufCall
  | claim (scope : UInt64)
  | release (scope : UInt64)

def AutobufCall.scope : AutobufCall → UInt64
  | .claim scope | .release scope => scope

namespace AutobufPc

def block : AutobufPc → Option Nat
  | .claim _ block (.cas _) | .claim _ block (.store _) | .claim _ block .discard => some block
  | .release _ (.clear _ block) | .release _ (.free block) => some block
  | _ => none

/-- The slot a thread has taken and not filled, or emptied and not given
back. -/
def busy : AutobufPc → Option Nat
  | .claim _ _ (.store slot) => some slot
  | .release _ (.clear slot _) => some slot
  | _ => none

def call : AutobufPc → Option AutobufCall
  | .idle => none
  | .claim scope _ _ => some (.claim scope)
  | .release scope _ => some (.release scope)

def scope (pc : AutobufPc) : Option UInt64 := pc.call.map AutobufCall.scope

end AutobufPc

/-! ## The steps -/

variable {slots : Nat} {s s' : AutobufState} {place : Nat → Place}

/-- A thread that moves on with what it has, or with less, in the same call. -/
structure Quiet (s : AutobufState) (i : Nat) (pc : AutobufPc) : Prop where
  block : ∀ b, pc.block = some b → (s.pc i).block = some b
  busy : pc.busy = none
  call : pc.call = none ∨ pc.call = (s.pc i).call

/-- What a step finds, and the state it leaves. -/
inductive AutobufStep (slots : Nat) (s : AutobufState) : AutobufAct → AutobufState → Prop
  | quiet {a : AutobufAct} {i : Nat} {pc : AutobufPc} (h : Quiet s i pc) :
      AutobufStep slots s a (s.moved i pc s.table)
  | claim {i : Nat} {scope : UInt64} (hscope : scope ≠ 0) (hrest : (s.pc i).atRest = true) :
      AutobufStep slots s (.claim i scope true)
        ((s.allocated scope).moved i (.claim scope s.fresh (claimNext slots 0)) s.table)
  | release {i : Nat} {scope : UInt64} (hrest : (s.pc i).atRest = true) :
      AutobufStep slots s (.release i scope)
        ({ s with released := scope :: s.released }.moved i
          (.release scope (unclaimNext slots 0)) s.table)
  | take {i slot block : Nat} {scope : UInt64} (hpc : s.pc i = .claim scope block (.cas slot))
      (hvacant : s.table.scope slot = 0) :
      AutobufStep slots s (.tick i)
        (s.moved i (.claim scope block (.store slot)) (s.table.setScope slot scope))
  | store {i slot block : Nat} {scope : UInt64}
      (hpc : s.pc i = .claim scope block (.store slot)) :
      AutobufStep slots s (.tick i)
        (s.moved i (.claim scope block (.ret true)) (s.table.setBlock slot (some block)))
  | discard {i block : Nat} {scope : UInt64} (hpc : s.pc i = .claim scope block .discard) :
      AutobufStep slots s (.tick i)
        ({ s with discarded := s.discarded ++ [block] }.moved i
          (.claim scope block (.ret false)) s.table)
  | swap {i slot block : Nat} {scope : UInt64} (hpc : s.pc i = .release scope (.swap slot))
      (hblock : s.table.block slot = some block) :
      AutobufStep slots s (.tick i)
        (s.moved i (.release scope (.clear slot block)) (s.table.setBlock slot none))
  | clear {i slot block : Nat} {scope : UInt64}
      (hpc : s.pc i = .release scope (.clear slot block)) :
      AutobufStep slots s (.tick i)
        (s.moved i (.release scope (.free block)) (s.table.setScope slot 0))
  | free {i block : Nat} {scope : UInt64} (hpc : s.pc i = .release scope (.free block)) :
      AutobufStep slots s (.tick i)
        ({ s with freed := s.freed ++ [(block, scope)] }.moved i (.release scope (.ret true))
          s.table)

theorem claimNext_block {scope : UInt64} {block slot : Nat} :
    (AutobufPc.claim scope block (claimNext slots slot)).block = some block := by
  rw [claimNext]
  split <;> rfl

theorem claimNext_busy {scope : UInt64} {block slot : Nat} :
    (AutobufPc.claim scope block (claimNext slots slot)).busy = none := by
  rw [claimNext]
  split <;> rfl

theorem unclaimNext_block {scope : UInt64} {slot : Nat} :
    (AutobufPc.release scope (unclaimNext slots slot)).block = none := by
  rw [unclaimNext]
  split <;> rfl

theorem unclaimNext_busy {scope : UInt64} {slot : Nat} :
    (AutobufPc.release scope (unclaimNext slots slot)).busy = none := by
  rw [unclaimNext]
  split <;> rfl

theorem claimTick_cases {i block : Nat} {scope : UInt64} {pc : ClaimPc}
    (hpc : s.pc i = .claim scope block pc) (hs : s.step slots (.tick i) = some s') :
    AutobufStep slots s (.tick i) s' := by
  simp only [AutobufState.step, hpc, Option.some.injEq] at hs
  subst hs
  cases pc with
  | cas slot =>
      rw [claimStep]
      split
      · next hvacant =>
          rw [Option.toList_none, List.append_nil]
          exact .take hpc hvacant
      · rw [Option.toList_none, List.append_nil]
        refine .quiet ⟨fun b hb => ?_, claimNext_busy, ?_⟩
        · rw [hpc]
          rwa [claimNext_block] at hb
        · rw [hpc]
          exact .inr rfl
  | store slot =>
      rw [claimStep, Option.toList_none, List.append_nil]
      exact .store hpc
  | discard => exact .discard hpc
  | ret claimed =>
      rw [claimStep, Option.toList_none, List.append_nil]
      refine .quiet ⟨nofun, rfl, ?_⟩
      rw [hpc]
      exact .inr rfl

theorem releaseTick_cases {i : Nat} {scope : UInt64} {pc : UnclaimPc}
    (hpc : s.pc i = .release scope pc) (hs : s.step slots (.tick i) = some s') :
    AutobufStep slots s (.tick i) s' := by
  have hquiet : ∀ pc', (AutobufPc.release scope pc').block = none →
      (AutobufPc.release scope pc').busy = none → Quiet s i (.release scope pc') := by
    intro pc' hblock hbusy
    refine ⟨fun b hb => ?_, hbusy, .inr ?_⟩
    · rw [hblock] at hb
      exact nomatch hb
    · rw [hpc]
      rfl
  have hnext : ∀ slot, Quiet s i (.release scope (unclaimNext slots slot)) := fun slot =>
    hquiet _ unclaimNext_block unclaimNext_busy
  simp only [AutobufState.step, hpc, Option.some.injEq] at hs
  subst hs
  cases pc with
  | load slot =>
      rw [unclaimStep]
      split
      · rw [Option.toList_none, List.map_nil, List.append_nil]
        exact .quiet (hnext _)
      · rw [Option.toList_none, List.map_nil, List.append_nil]
        exact .quiet (hquiet _ rfl rfl)
  | swap slot =>
      rw [unclaimStep]
      split
      · next hnone =>
          rw [Option.toList_none, List.map_nil, List.append_nil,
            AutobufTable.setBlock_none hnone]
          exact .quiet (hnext _)
      · next block hblock =>
          rw [Option.toList_none, List.map_nil, List.append_nil]
          exact .swap hpc hblock
  | clear slot block =>
      rw [unclaimStep, Option.toList_none, List.map_nil, List.append_nil]
      exact .clear hpc
  | free block => exact .free hpc
  | ret found =>
      rw [unclaimStep, Option.toList_none, List.map_nil, List.append_nil]
      exact .quiet (hquiet _ rfl rfl)

theorem autobuf_step_cases {a : AutobufAct} (hs : s.step slots a = some s') :
    AutobufStep slots s a s' := by
  cases a with
  | claim i scope malloc =>
      simp only [AutobufState.step] at hs
      split at hs
      · next hrest =>
          split at hs
          · cases hs
            exact .quiet ⟨nofun, rfl, .inl rfl⟩
          · next hok =>
              cases hs
              obtain ⟨hscope, hmalloc⟩ := not_or.mp hok
              rw [Bool.not_eq_false] at hmalloc
              subst hmalloc
              exact .claim hscope hrest
      · exact nomatch hs
  | release i scope =>
      simp only [AutobufState.step] at hs
      split at hs
      · next hrest =>
          cases hs
          exact .release hrest
      · exact nomatch hs
  | tick i =>
      cases hpc : s.pc i with
      | idle =>
          simp only [AutobufState.step, hpc] at hs
          exact nomatch hs
      | claim scope block pc => exact claimTick_cases hpc hs
      | release scope pc => exact releaseTick_cases hpc hs

/-! ## The invariant -/

/-- What a thread relies on: the block in its hands is its own and was
allocated for its scope, and a slot that is busy for it has that scope and no
block. -/
structure ThreadOk (place : Nat → Place) (s : AutobufState) (i : Nat) (pc : AutobufPc) : Prop where
  hands : ∀ b, pc.block = some b → place b = .held i ∧ pc.scope = some (s.claimedFor b)
  busy : ∀ slot, pc.busy = some slot → pc.scope = some (s.table.scope slot) ∧
    s.table.scope slot ≠ 0 ∧ s.table.block slot = none
  claim : ∀ scope, pc.call = some (.claim scope) → scope ≠ 0
  release : ∀ scope, pc.call = some (.release scope) → scope ∈ s.released

structure AutobufInv (place : Nat → Place) (s : AutobufState) : Prop where
  threads : ∀ i, ThreadOk place s i (s.pc i)
  alone : ∀ i j slot, (s.pc i).busy = some slot → (s.pc j).busy = some slot → i = j
  slots : ∀ slot b, s.table.block slot = some b → place b = .stored slot ∧
    s.claimedFor b = s.table.scope slot ∧ s.table.scope slot ≠ 0
  freed : ∀ b scope, (b, scope) ∈ s.freed → place b = .gone ∧ s.claimedFor b = scope ∧
    scope ∈ s.released
  discarded : ∀ b, b ∈ s.discarded → place b = .gone
  once : (s.freed.map Prod.fst ++ s.discarded).Nodup
  born : ∀ b, place b = .unborn ↔ s.fresh ≤ b

/-- A thread is not concerned by a step that leaves alone the blocks in its
hands and the slot that is busy for it. -/
theorem ThreadOk.frame {i : Nat} {pc : AutobufPc} {place' : Nat → Place}
    (h : ThreadOk place s i pc)
    (hplace : ∀ b, place b = .held i → place' b = .held i ∧ s'.claimedFor b = s.claimedFor b)
    (htable : ∀ slot, pc.busy = some slot → s'.table.scope slot = s.table.scope slot ∧
      s'.table.block slot = s.table.block slot)
    (hreleased : ∀ scope, scope ∈ s.released → scope ∈ s'.released) :
    ThreadOk place' s' i pc where
  hands b hb := by
    obtain ⟨hheld, hscope⟩ := h.hands b hb
    obtain ⟨hheld', hclaimed⟩ := hplace b hheld
    exact ⟨hheld', by rw [hclaimed, hscope]⟩
  busy slot hb := by
    obtain ⟨hs, hbl⟩ := htable slot hb
    rw [hs, hbl]
    exact h.busy slot hb
  claim := h.claim
  release scope hc := hreleased scope (h.release scope hc)

theorem place_update_ne {b b₀ : Nat} {p : Place} (h : place b ≠ place b₀) :
    Function.update place b₀ p b = place b :=
  Function.update_of_ne (fun heq => h (by rw [heq])) _ _

namespace AutobufInv

variable {i b slot : Nat} {pc : AutobufPc} {table : AutobufTable} {scope : UInt64} {p : Place}

theorem init : AutobufInv (fun _ => .unborn) .init where
  threads _ := ⟨nofun, nofun, nofun, nofun⟩
  alone _ _ _ h := nomatch h
  slots _ _ h := nomatch h
  freed _ _ h := nomatch h
  discarded _ h := nomatch h
  once := List.nodup_nil
  born b := ⟨fun _ => Nat.zero_le b, fun _ => rfl⟩

/-- Two threads are busy with one slot after a move only if they were, or the
one that moved has taken the other's. -/
theorem alone_moved (h : AutobufInv place s)
    (hbusy : ∀ slot, pc.busy = some slot → ∀ j, j ≠ i → (s.pc j).busy ≠ some slot) {j k slot : Nat}
    (hj : (Function.update s.pc i pc j).busy = some slot)
    (hk : (Function.update s.pc i pc k).busy = some slot) : j = k := by
  rcases update_cases (P := fun pc : AutobufPc => pc.busy = some slot) hj with
      ⟨rfl, hj'⟩ | ⟨hji, hj'⟩ <;>
    rcases update_cases (P := fun pc : AutobufPc => pc.busy = some slot) hk with
      ⟨rfl, hk'⟩ | ⟨hki, hk'⟩
  · rfl
  · exact absurd hk' (hbusy slot hj' k hki)
  · exact absurd hj' (hbusy slot hk' j hji)
  · exact h.alone j k slot hj' hk'

theorem alone_of_free (h : AutobufInv place s) {j k slot : Nat}
    (hj : (Function.update s.pc i pc j).busy = some slot)
    (hk : (Function.update s.pc i pc k).busy = some slot) (hfree : pc.busy = none) : j = k :=
  h.alone_moved (fun slot hb => by rw [hfree] at hb; exact nomatch hb) hj hk

/-- A block that has been allocated moves from one place to another. -/
theorem born_update (h : AutobufInv place s) (hold : place b ≠ .unborn) (hnew : p ≠ .unborn)
    (b' : Nat) : Function.update place b p b' = .unborn ↔ s.fresh ≤ b' := by
  rw [Function.update_apply]
  split
  · next heq =>
      subst heq
      exact ⟨fun hp => absurd hp hnew, fun hle => absurd ((h.born b').mpr hle) hold⟩
  · exact h.born b'

theorem quiet (h : AutobufInv place s) (hq : Quiet s i pc) :
    AutobufInv place (s.moved i pc s.table) where
  threads := by
    refine forall_update_at (P := ThreadOk place (s.moved i pc s.table)) ?_ fun j _ =>
      (h.threads j).frame (fun _ hb => ⟨hb, rfl⟩) (fun _ _ => ⟨rfl, rfl⟩) fun _ hs => hs
    have hi := h.threads i
    have hcall : ∀ c, pc.call = some c → (s.pc i).call = some c := fun c hc => by
      rcases hq.call with hnone | heq
      · rw [hnone] at hc
        exact nomatch hc
      · rw [← heq, hc]
    refine ⟨fun b hb => ?_, fun slot hb => ?_, fun c hc => hi.claim c (hcall _ hc),
      fun c hc => hi.release c (hcall _ hc)⟩
    · obtain ⟨hheld, hscope⟩ := hi.hands b (hq.block b hb)
      refine ⟨hheld, ?_⟩
      rcases hq.call with hnone | heq
      · cases pc with
        | idle => cases hb
        | claim _ _ _ => cases hnone
        | release _ _ => cases hnone
      · rw [AutobufPc.scope, heq]
        exact hscope
    · rw [hq.busy] at hb
      exact nomatch hb
  alone j k slot hj hk := h.alone_of_free hj hk hq.busy
  slots := h.slots
  freed := h.freed
  discarded := h.discarded
  once := h.once
  born := h.born

theorem claim (h : AutobufInv place s) (hscope : scope ≠ 0) :
    AutobufInv (Function.update place s.fresh (.held i))
      ((s.allocated scope).moved i (.claim scope s.fresh (claimNext slots 0)) s.table) := by
  have hfresh : place s.fresh = .unborn := (h.born _).mpr (Nat.le_refl _)
  have hkeep : ∀ b p, p ≠ .unborn → place b = p →
      Function.update place s.fresh (.held i) b = p ∧
        (s.allocated scope).claimedFor b = s.claimedFor b := by
    intro b p hp hb
    have hne : b ≠ s.fresh := by
      rintro rfl
      exact hp (hb.symm.trans hfresh)
    exact ⟨(Function.update_of_ne hne _ _).trans hb, Function.update_of_ne hne _ _⟩
  refine ⟨?_, ?_, ?_, ?_, ?_, h.once, ?_⟩
  · refine forall_update_at (P := ThreadOk _ _) ⟨fun b hb => ?_, fun slot hb => ?_, ?_, nofun⟩
      fun j _ => (h.threads j).frame (fun b hb => hkeep b _ (by simp) hb) (fun _ _ => ⟨rfl, rfl⟩)
        fun _ hs => hs
    · rw [claimNext_block] at hb
      cases hb
      refine ⟨Function.update_self _ _ _, ?_⟩
      show some scope = some (Function.update s.claimedFor s.fresh scope s.fresh)
      rw [Function.update_self]
    · rw [claimNext_busy] at hb
      exact nomatch hb
    · rintro c hc
      cases hc
      exact hscope
  · exact fun j k slot hj hk => h.alone_of_free hj hk claimNext_busy
  · intro slot b hb
    obtain ⟨hp, hc, hne⟩ := h.slots slot b hb
    obtain ⟨hp', hc'⟩ := hkeep b _ (by simp) hp
    exact ⟨hp', hc'.trans hc, hne⟩
  · intro b sc hb
    obtain ⟨hp, hc, hr⟩ := h.freed b sc hb
    obtain ⟨hp', hc'⟩ := hkeep b _ (by simp) hp
    exact ⟨hp', hc'.trans hc, hr⟩
  · exact fun b hb => (hkeep b _ (by simp) (h.discarded b hb)).1
  · intro b
    show Function.update place s.fresh (.held i) b = .unborn ↔ s.fresh + 1 ≤ b
    rw [Function.update_apply]
    split
    · next heq =>
        subst heq
        exact ⟨nofun, fun hle => absurd hle (by omega)⟩
    · next hne =>
        rw [h.born]
        omega

theorem release (h : AutobufInv place s) :
    AutobufInv place ({ s with released := scope :: s.released }.moved i
      (.release scope (unclaimNext slots 0)) s.table) where
  threads := by
    refine forall_update_at (P := ThreadOk _ _) ⟨fun b hb => ?_, fun slot hb => ?_, nofun, ?_⟩
      fun j _ => (h.threads j).frame (fun _ hb => ⟨hb, rfl⟩) (fun _ _ => ⟨rfl, rfl⟩)
        fun _ hs => List.mem_cons_of_mem _ hs
    · rw [unclaimNext_block] at hb
      exact nomatch hb
    · rw [unclaimNext_busy] at hb
      exact nomatch hb
    · rintro c hc
      cases hc
      exact List.mem_cons_self
  alone j k slot hj hk := h.alone_of_free hj hk unclaimNext_busy
  slots := h.slots
  freed b sc hb := by
    obtain ⟨hp, hc, hr⟩ := h.freed b sc hb
    exact ⟨hp, hc, List.mem_cons_of_mem _ hr⟩
  discarded := h.discarded
  once := h.once
  born := h.born

/-! The steps that touch a slot or move a block. In each the block was at one
place, so whatever is recorded of another place is of another block. -/

theorem take (h : AutobufInv place s) (hpc : s.pc i = .claim scope b (.cas slot))
    (hvacant : s.table.scope slot = 0) :
    AutobufInv place (s.moved i (.claim scope b (.store slot)) (s.table.setScope slot scope)) := by
  have hi := h.threads i
  rw [hpc] at hi
  have hscope : scope ≠ 0 := hi.claim scope rfl
  have hempty : s.table.block slot = none := by
    cases hb : s.table.block slot with
    | none => rfl
    | some b' => exact absurd hvacant (h.slots slot b' hb).2.2
  have hother : ∀ j slot', (s.pc j).busy = some slot' → slot' ≠ slot := by
    rintro j slot' hb rfl
    exact ((h.threads j).busy slot' hb).2.1 hvacant
  refine ⟨?_, ?_, ?_, h.freed, h.discarded, h.once, h.born⟩
  · refine forall_update_at (P := ThreadOk _ _) ⟨fun b' hb => ?_, fun slot' hb => ?_, ?_, nofun⟩
      fun j _ => (h.threads j).frame (fun _ hb => ⟨hb, rfl⟩) (fun slot' hb => ⟨?_, rfl⟩)
        fun _ hs => hs
    · exact hi.hands b' hb
    · cases hb
      have hset : (s.table.setScope slot scope).scope slot = scope := Function.update_self _ _ _
      exact ⟨congrArg some hset.symm, fun h0 => hscope (hset.symm.trans h0), hempty⟩
    · exact hi.claim
    · exact Function.update_of_ne (hother j slot' hb) _ _
  · intro j k slot' hj hk
    refine h.alone_moved (fun slot' hb j _ hj => ?_) hj hk
    cases hb
    exact hother j slot hj rfl
  · intro slot' b' hb
    have hne : slot' ≠ slot := by
      rintro rfl
      exact nomatch hempty.symm.trans hb
    have hsame : (s.table.setScope slot scope).scope slot' = s.table.scope slot' :=
      Function.update_of_ne hne _ _
    show place b' = _ ∧ s.claimedFor b' = (s.table.setScope slot scope).scope slot' ∧
      (s.table.setScope slot scope).scope slot' ≠ 0
    rw [hsame]
    exact h.slots slot' b' hb

theorem elsewhere {q : Place} (hp : place b = q) {b' : Nat} {q' : Place} (hne : q' ≠ q)
    (hb : place b' = q') : Function.update place b p b' = q' :=
  (place_update_ne (by rw [hb, hp]; exact hne)).trans hb

theorem store (h : AutobufInv place s) (hpc : s.pc i = .claim scope b (.store slot)) :
    AutobufInv (Function.update place b (.stored slot))
      (s.moved i (.claim scope b (.ret true)) (s.table.setBlock slot (some b))) := by
  have hi := h.threads i
  rw [hpc] at hi
  obtain ⟨hheld, hclaimed⟩ := hi.hands b rfl
  obtain ⟨hscope, hne0, -⟩ := hi.busy slot rfl
  have hown : s.claimedFor b = s.table.scope slot := Option.some.inj (hclaimed.symm.trans hscope)
  refine ⟨?_, ?_, ?_, ?_, ?_, h.once, ?_⟩
  · refine forall_update_at (P := ThreadOk _ _) ⟨nofun, nofun, hi.claim, nofun⟩ fun j hji =>
      (h.threads j).frame (fun b' hb => ⟨elsewhere hheld (by simp [hji]) hb, rfl⟩)
        (fun slot' hb => ⟨rfl, Function.update_of_ne ?_ _ _⟩) fun _ hs => hs
    rintro rfl
    exact hji (h.alone j i slot' hb (by rw [hpc]; rfl))
  · exact fun j k slot' hj hk => h.alone_of_free hj hk rfl
  · intro slot' b' hb
    rcases update_cases (P := fun x => x = some b') hb with ⟨rfl, hb'⟩ | ⟨hne, hb'⟩
    · cases hb'
      exact ⟨Function.update_self _ _ _, hown, hne0⟩
    · obtain ⟨hp, hc, hs⟩ := h.slots slot' b' hb'
      exact ⟨elsewhere hheld (by simp) hp, hc, hs⟩
  · intro b' sc hb
    obtain ⟨hp, hc, hr⟩ := h.freed b' sc hb
    exact ⟨elsewhere hheld (by simp) hp, hc, hr⟩
  · exact fun b' hb => elsewhere hheld (by simp) (h.discarded b' hb)
  · exact h.born_update (by simp [hheld]) (by simp)

theorem swap (h : AutobufInv place s) (hpc : s.pc i = .release scope (.swap slot))
    (hblock : s.table.block slot = some b) (hkept : s.table.scope slot = scope) :
    AutobufInv (Function.update place b (.held i))
      (s.moved i (.release scope (.clear slot b)) (s.table.setBlock slot none)) := by
  have hi := h.threads i
  rw [hpc] at hi
  obtain ⟨hstored, hclaimed, hne0⟩ := h.slots slot b hblock
  have hother : ∀ j slot', (s.pc j).busy = some slot' → slot' ≠ slot := by
    rintro j slot' hb rfl
    exact nomatch ((h.threads j).busy slot' hb).2.2.symm.trans hblock
  refine ⟨?_, ?_, ?_, ?_, ?_, h.once, ?_⟩
  · refine forall_update_at (P := ThreadOk _ _) ⟨fun b' hb => ?_, fun slot' hb => ?_, nofun, ?_⟩
      fun j _ => (h.threads j).frame (fun b' hb => ⟨elsewhere hstored (by simp) hb, rfl⟩)
        (fun slot' hb => ⟨rfl, Function.update_of_ne (hother j slot' hb) _ _⟩) fun _ hs => hs
    · cases hb
      refine ⟨Function.update_self _ _ _, ?_⟩
      show some scope = some (s.claimedFor b)
      rw [hclaimed, hkept]
    · cases hb
      exact ⟨congrArg some hkept.symm, hne0, Function.update_self _ _ _⟩
    · exact hi.release
  · intro j k slot' hj hk
    refine h.alone_moved (fun slot' hb j _ hj => ?_) hj hk
    cases hb
    exact hother j slot hj rfl
  · intro slot' b' hb
    rcases update_cases (P := fun x => x = some b') hb with ⟨rfl, hb'⟩ | ⟨hne, hb'⟩
    · exact nomatch hb'
    · obtain ⟨hp, hc, hs⟩ := h.slots slot' b' hb'
      exact ⟨elsewhere hstored (by simp [hne]) hp, hc, hs⟩
  · intro b' sc hb
    obtain ⟨hp, hc, hr⟩ := h.freed b' sc hb
    exact ⟨elsewhere hstored (by simp) hp, hc, hr⟩
  · exact fun b' hb => elsewhere hstored (by simp) (h.discarded b' hb)
  · exact h.born_update (by simp [hstored]) (by simp)

theorem clear (h : AutobufInv place s) (hpc : s.pc i = .release scope (.clear slot b)) :
    AutobufInv place (s.moved i (.release scope (.free b)) (s.table.setScope slot 0)) := by
  have hi := h.threads i
  rw [hpc] at hi
  obtain ⟨-, -, hempty⟩ := hi.busy slot rfl
  refine ⟨?_, ?_, ?_, h.freed, h.discarded, h.once, h.born⟩
  · refine forall_update_at (P := ThreadOk _ _) ⟨hi.hands, nofun, nofun, hi.release⟩ fun j hji =>
      (h.threads j).frame (fun _ hb => ⟨hb, rfl⟩)
        (fun slot' hb => ⟨Function.update_of_ne ?_ _ _, rfl⟩) fun _ hs => hs
    rintro rfl
    exact hji (h.alone j i slot' hb (by rw [hpc]; rfl))
  · exact fun j k slot' hj hk => h.alone_of_free hj hk rfl
  · intro slot' b' hb
    have hne : slot' ≠ slot := by
      rintro rfl
      exact nomatch hempty.symm.trans hb
    have hsame : (s.table.setScope slot 0).scope slot' = s.table.scope slot' :=
      Function.update_of_ne hne _ _
    show place b' = _ ∧ s.claimedFor b' = (s.table.setScope slot 0).scope slot' ∧
      (s.table.setScope slot 0).scope slot' ≠ 0
    rw [hsame]
    exact h.slots slot' b' hb

/-- The blocks that are gone do not include one that is not. -/
theorem not_gone (h : AutobufInv place s) (hb : place b ≠ .gone) :
    b ∉ s.freed.map Prod.fst ++ s.discarded := by
  intro hm
  rcases List.mem_append.mp hm with hf | hd
  · obtain ⟨⟨b', sc⟩, hf', rfl⟩ := List.mem_map.mp hf
    exact hb (h.freed b' sc hf').1
  · exact hb (h.discarded b hd)

theorem discard (h : AutobufInv place s) (hpc : s.pc i = .claim scope b .discard) :
    AutobufInv (Function.update place b .gone)
      ({ s with discarded := s.discarded ++ [b] }.moved i (.claim scope b (.ret false))
        s.table) := by
  have hi := h.threads i
  rw [hpc] at hi
  obtain ⟨hheld, -⟩ := hi.hands b rfl
  refine ⟨?_, fun j k slot hj hk => h.alone_of_free hj hk rfl, ?_, ?_, ?_, ?_,
    h.born_update (by simp [hheld]) (by simp)⟩
  · exact forall_update_at (P := ThreadOk _ _) ⟨nofun, nofun, hi.claim, nofun⟩ fun j hji =>
      (h.threads j).frame (fun b' hb => ⟨elsewhere hheld (by simp [hji]) hb, rfl⟩)
        (fun _ _ => ⟨rfl, rfl⟩) fun _ hs => hs
  · intro slot b' hb
    obtain ⟨hp, hc, hs⟩ := h.slots slot b' hb
    exact ⟨elsewhere hheld (by simp) hp, hc, hs⟩
  · intro b' sc hb
    obtain ⟨hp, hc, hr⟩ := h.freed b' sc hb
    exact ⟨elsewhere hheld (by simp) hp, hc, hr⟩
  · intro b' hb
    rcases List.mem_append.mp hb with hb | hb
    · exact elsewhere hheld (by simp) (h.discarded b' hb)
    · obtain rfl := List.mem_singleton.mp hb
      exact Function.update_self _ _ _
  · show (s.freed.map Prod.fst ++ (s.discarded ++ [b])).Nodup
    rw [← List.append_assoc]
    exact List.nodup_append_comm.mp
      (List.nodup_cons.mpr ⟨h.not_gone (by simp [hheld]), h.once⟩)

theorem free (h : AutobufInv place s) (hpc : s.pc i = .release scope (.free b)) :
    AutobufInv (Function.update place b .gone)
      ({ s with freed := s.freed ++ [(b, scope)] }.moved i (.release scope (.ret true))
        s.table) := by
  have hi := h.threads i
  rw [hpc] at hi
  obtain ⟨hheld, hclaimed⟩ := hi.hands b rfl
  refine ⟨?_, fun j k slot hj hk => h.alone_of_free hj hk rfl, ?_, ?_, ?_, ?_,
    h.born_update (by simp [hheld]) (by simp)⟩
  · exact forall_update_at (P := ThreadOk _ _) ⟨nofun, nofun, nofun, hi.release⟩ fun j hji =>
      (h.threads j).frame (fun b' hb => ⟨elsewhere hheld (by simp [hji]) hb, rfl⟩)
        (fun _ _ => ⟨rfl, rfl⟩) fun _ hs => hs
  · intro slot b' hb
    obtain ⟨hp, hc, hs⟩ := h.slots slot b' hb
    exact ⟨elsewhere hheld (by simp) hp, hc, hs⟩
  · intro b' sc hb
    rcases List.mem_append.mp hb with hb | hb
    · obtain ⟨hp, hc, hr⟩ := h.freed b' sc hb
      exact ⟨elsewhere hheld (by simp) hp, hc, hr⟩
    · cases List.mem_singleton.mp hb
      exact ⟨Function.update_self _ _ _, (Option.some.inj hclaimed).symm, hi.release scope rfl⟩
  · exact fun b' hb => elsewhere hheld (by simp) (h.discarded b' hb)
  · show ((s.freed ++ [(b, scope)]).map Prod.fst ++ s.discarded).Nodup
    rw [List.map_append, List.append_assoc]
    refine List.nodup_middle.mpr (List.nodup_cons.mpr ⟨?_, h.once⟩)
    exact h.not_gone (by simp [hheld])

theorem step (h : AutobufInv place s) {a : AutobufAct} (hg : scopeKept s a)
    (hs : s.step slots a = some s') : ∃ place', AutobufInv place' s' := by
  cases autobuf_step_cases hs with
  | quiet hq => exact ⟨_, h.quiet hq⟩
  | claim hscope hrest => exact ⟨_, h.claim hscope⟩
  | release hrest => exact ⟨_, h.release⟩
  | take hpc hvacant => exact ⟨_, h.take hpc hvacant⟩
  | store hpc => exact ⟨_, h.store hpc⟩
  | discard hpc => exact ⟨_, h.discard hpc⟩
  | @swap i slot block scope hpc hblock =>
      have hkept : s.table.keeps (s.pc i) := hg
      rw [hpc] at hkept
      exact ⟨_, h.swap hpc hblock (hkept (by simp [hblock]))⟩
  | clear hpc => exact ⟨_, h.clear hpc⟩
  | free hpc => exact ⟨_, h.free hpc⟩

theorem run {run : List AutobufAct}
    (hm : Meets (AutobufState.step slots) scopeKept .init run)
    (he : exec (AutobufState.step slots) .init run = some s) : ∃ place, AutobufInv place s :=
  exec_invariant (I := fun s => ∃ place, AutobufInv place s)
    (fun _ _ _ ⟨_, h⟩ hg hs => h.step hg hs) ⟨_, init⟩ hm he

end AutobufInv

/-! ## Runs -/

/-- What the table promises of the blocks in every state of a run. -/
structure AutobufSafe (s : AutobufState) : Prop where
  /-- A release frees blocks of its own scope. -/
  own : ∀ b scope, (b, scope) ∈ s.freed → b < s.fresh ∧ s.claimedFor b = scope
  /-- No block is freed twice. -/
  once : (s.freed.map Prod.fst ++ s.discarded).Nodup
  /-- A block of a scope that has not been released is not freed. -/
  unreleased : ∀ b, s.claimedFor b ∉ s.released → b ∉ s.freed.map Prod.fst
  /-- A block that is recorded is not freed. -/
  recorded : ∀ slot b, s.table.block slot = some b → b ∉ s.freed.map Prod.fst ++ s.discarded

theorem AutobufInv.safe (h : AutobufInv place s) : AutobufSafe s where
  own b scope hb := by
    obtain ⟨hp, hc, -⟩ := h.freed b scope hb
    refine ⟨?_, hc⟩
    by_contra hle
    have hunborn := (h.born b).mpr (Nat.le_of_not_lt hle)
    rw [hp] at hunborn
    exact nomatch hunborn
  once := h.once
  unreleased b hno hb := by
    obtain ⟨⟨b', scope⟩, hb', rfl⟩ := List.mem_map.mp hb
    obtain ⟨-, hc, hr⟩ := h.freed b' scope hb'
    exact hno (hc ▸ hr)
  recorded slot b hb := h.not_gone (by simp [(h.slots slot b hb).1])

/-- In every run in which an exchange takes a block only out of a slot whose
scope is still the release's own. -/
theorem autobuf_frees_own {run : List AutobufAct}
    (hm : Meets (AutobufState.step slots) scopeKept .init run)
    (he : exec (AutobufState.step slots) .init run = some s) : AutobufSafe s := by
  obtain ⟨place, h⟩ := AutobufInv.run hm he
  exact h.safe

/-- A claim by thread 0, and two releases of its scope that both find its
slot. -/
def bothFind : List AutobufAct :=
  [.claim 0 1 true, .tick 0, .tick 0, .release 1 1, .tick 1, .release 2 1, .tick 2]

/-- The first of them frees the block, and the slot is claimed for scope 2. -/
def slotReused : List AutobufAct :=
  bothFind ++ [.tick 1, .tick 1, .tick 1, .claim 0 2 true, .tick 0, .tick 0]

/-- The second one then takes the new block out of the slot. -/
theorem autobuf_frees_foreign :
    ∃ s, exec (AutobufState.step autobufSlots) .init
        (slotReused ++ [.tick 2, .tick 2, .tick 2]) = some s ∧
      s.freed = [(0, 1), (1, 1)] ∧ s.claimedFor 1 = 2 ∧ (2 : UInt64) ∉ s.released := by
  refine ⟨_, rfl, by decide, by decide, by decide⟩

theorem autobuf_frees_own_reused :
    ∃ s, exec (AutobufState.step autobufSlots) .init slotReused = some s ∧
      s.freed = [(0, 1)] ∧ AutobufSafe s := by
  have hkept : Meets (AutobufState.step autobufSlots) scopeKept .init slotReused := by decide
  exact ⟨_, rfl, by decide, autobuf_frees_own hkept rfl⟩

end AbiWrapper.Ref
