import Mathlib.Data.List.Basic
import Mathlib.Logic.Function.Basic

/-!
# Runs of a labelled transition system

A system is a partial step function: a label either cannot be taken in a state
or leads to exactly one next state. Nondeterminism lives in the choice of the
labels, so a run is a list of labels, every interleaving of several parties is
one such list, and a run can be evaluated.

`exec_invariant` carries everything that is proved about runs. It is the
induction: what the initial state satisfies and every admitted step keeps,
every run keeps. `Meets` says which runs are admitted: each of their labels
satisfies a guard in the state it is taken in.
-/

namespace AbiWrapper.Lib

variable {σ α : Type}

/-- The state a list of labels leads to, if every one of them can be taken. -/
def exec (step : σ → α → Option σ) : σ → List α → Option σ
  | s, [] => some s
  | s, a :: rest => (step s a).bind fun s' => exec step s' rest

/-- Every label of the run satisfies the guard in the state it is taken in. -/
def Meets (step : σ → α → Option σ) (guard : σ → α → Prop) : σ → List α → Prop
  | _, [] => True
  | s, a :: rest => guard s a ∧
      match step s a with
      | some s' => Meets step guard s' rest
      | none => True

instance Meets.decidable (step : σ → α → Option σ) (guard : σ → α → Prop)
    [∀ s a, Decidable (guard s a)] :
    ∀ (s : σ) (run : List α), Decidable (Meets step guard s run)
  | _, [] => isTrue trivial
  | s, a :: rest =>
      match h : step s a with
      | some s' =>
          have := Meets.decidable step guard s' rest
          decidable_of_iff (guard s a ∧ Meets step guard s' rest)
            (by rw [Meets, h])
      | none => decidable_of_iff (guard s a) (by rw [Meets, h]; simp)

variable {step : σ → α → Option σ} {guard guard' : σ → α → Prop}

@[simp] theorem exec_nil {s : σ} : exec step s [] = some s := rfl

theorem exec_cons {s : σ} {a : α} {rest : List α} :
    exec step s (a :: rest) = (step s a).bind fun s' => exec step s' rest := rfl

theorem Meets.mono (hg : ∀ s a, guard s a → guard' s a) {s : σ} {run : List α}
    (h : Meets step guard s run) : Meets step guard' s run := by
  induction run generalizing s with
  | nil => trivial
  | cons a rest ih =>
      refine ⟨hg _ _ h.1, ?_⟩
      have h2 := h.2
      cases hs : step s a with
      | none => trivial
      | some s' => rw [hs] at h2; exact ih h2

theorem Meets.and {s : σ} {run : List α} (h : Meets step guard s run)
    (h' : Meets step guard' s run) :
    Meets step (fun s a => guard s a ∧ guard' s a) s run := by
  induction run generalizing s with
  | nil => trivial
  | cons a rest ih =>
      refine ⟨⟨h.1, h'.1⟩, ?_⟩
      have h2 := h.2
      have h2' := h'.2
      cases hs : step s a with
      | none => trivial
      | some s' => rw [hs] at h2 h2'; exact ih h2 h2'

/-- A guard that does not ask about the state. -/
theorem Meets.of_forall {s : σ} {run : List α} (h : ∀ a ∈ run, ∀ s, guard s a) :
    Meets step guard s run := by
  induction run generalizing s with
  | nil => trivial
  | cons a rest ih =>
      obtain ⟨ha, hrest⟩ := List.forall_mem_cons.mp h
      refine ⟨ha s, ?_⟩
      cases step s a with
      | none => trivial
      | some s' => exact ih hrest

theorem Meets.cons {s : σ} {a : α} {rest : List α} (hg : guard s a)
    (hr : ∀ s', step s a = some s' → Meets step guard s' rest) :
    Meets step guard s (a :: rest) := by
  refine ⟨hg, ?_⟩
  cases hs : step s a with
  | none => trivial
  | some s' => exact hr s' hs

theorem Meets.head {s s' : σ} {a : α} {rest : List α}
    (h : Meets step guard s (a :: rest)) (hs : step s a = some s') :
    guard s a ∧ Meets step guard s' rest := by
  obtain ⟨hg, hr⟩ := h
  rw [hs] at hr
  exact ⟨hg, hr⟩

/-- What the first state satisfies and every admitted step keeps holds at the
end of every admitted run. -/
theorem exec_invariant {I : σ → Prop}
    (hstep : ∀ s a s', I s → guard s a → step s a = some s' → I s')
    {s s' : σ} {run : List α} (hinv : I s) (hm : Meets step guard s run)
    (he : exec step s run = some s') : I s' := by
  induction run generalizing s with
  | nil =>
      cases he
      exact hinv
  | cons a rest ih =>
      rw [exec_cons, Option.bind_eq_some_iff] at he
      obtain ⟨s₁, hs, he⟩ := he
      obtain ⟨hg, hr⟩ := Meets.head hm hs
      exact ih (hstep _ _ _ hinv hg hs) hr he

/-- Of every run, where nothing is asked of the labels. -/
theorem exec_keeps {I : σ → Prop} (hstep : ∀ s a s', I s → step s a = some s' → I s')
    {s s' : σ} {run : List α} (hinv : I s) (he : exec step s run = some s') : I s' := by
  have hall : ∀ (run : List α) (s : σ), Meets step (fun _ _ => True) s run := by
    intro run
    induction run with
    | nil => exact fun _ => trivial
    | cons a rest ih => exact fun _ => .cons trivial fun s₁ _ => ih s₁
  exact exec_invariant (fun s a s' h _ hs => hstep s a s' h hs) hinv (hall run s) he

/-- A guard may be exchanged for one that it implies wherever it keeps an
invariant. -/
theorem Meets.of_invariant {I : σ → Prop}
    (hstep : ∀ s a s', I s → guard s a → step s a = some s' → I s')
    (hguard : ∀ s a, I s → guard s a → guard' s a) {s : σ} {run : List α} (hinv : I s)
    (hm : Meets step guard s run) : Meets step guard' s run := by
  induction run generalizing s with
  | nil => trivial
  | cons a rest ih =>
      refine Meets.cons (hguard _ _ hinv hm.1) fun s' hs => ?_
      obtain ⟨hg, hr⟩ := hm.head hs
      exact ih (hstep _ _ _ hinv hg hs) hr

/-! ## Families of processes -/

/-- What holds of a process after one of the family has moved: it is that one,
or it is where it was. -/
theorem update_cases {ι β : Type} [DecidableEq ι] {f : ι → β} {i j : ι} {b : β} {P : β → Prop}
    (h : P (Function.update f i b j)) : j = i ∧ P b ∨ j ≠ i ∧ P (f j) := by
  by_cases hj : j = i
  · subst hj
    rw [Function.update_self] at h
    exact .inl ⟨rfl, h⟩
  · rw [Function.update_of_ne hj] at h
    exact .inr ⟨hj, h⟩

/-- Every process satisfies what is asked of it after one has moved. -/
theorem forall_update_at {ι β : Type} [DecidableEq ι] {f : ι → β} {i : ι} {b : β}
    {P : ι → β → Prop} (hb : P i b) (hf : ∀ j, j ≠ i → P j (f j)) (j : ι) :
    P j (Function.update f i b j) := by
  by_cases hj : j = i
  · subst hj
    rw [Function.update_self]
    exact hb
  · rw [Function.update_of_ne hj]
    exact hf j hj

theorem forall_update {ι β : Type} [DecidableEq ι] {f : ι → β} {i : ι} {b : β} {P : β → Prop}
    (hb : P b) (hf : ∀ j, P (f j)) (j : ι) : P (Function.update f i b j) :=
  forall_update_at (P := fun _ => P) hb (fun j _ => hf j) j

end AbiWrapper.Lib
