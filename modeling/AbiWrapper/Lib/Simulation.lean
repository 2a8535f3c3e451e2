import AbiWrapper.Lib.Run

/-!
# Two systems that take the same labels

One system carries out what another one prescribes if some relation between
their states survives every label: whenever the second takes it, so does the
first, and the states they reach are related again. `simulates` chains that
over runs. What a run has to keep to may look at both states, so it is asked of
the two systems side by side.
-/

namespace AbiWrapper.Lib

variable {σ τ α : Type} {step : σ → α → Option σ} {step' : τ → α → Option τ}
  {guard : σ × τ → α → Prop} {R : σ → τ → Prop}

/-- Two systems side by side. -/
def both (step : σ → α → Option σ) (step' : τ → α → Option τ) (p : σ × τ) (a : α) :
    Option (σ × τ) :=
  (step p.1 a).bind fun s => (step' p.2 a).map fun t => (s, t)

theorem both_eq_some {s : σ} {t : τ} {a : α} {p : σ × τ} :
    both step step' (s, t) a = some p ↔ step s a = some p.1 ∧ step' t a = some p.2 := by
  constructor
  · intro h
    obtain ⟨s', hs, h⟩ := Option.bind_eq_some_iff.mp h
    obtain ⟨t', ht, rfl⟩ := Option.map_eq_some_iff.mp h
    exact ⟨hs, ht⟩
  · rintro ⟨hs, ht⟩
    simp only [both, hs, ht, Option.bind_some, Option.map_some]

/-- What one label has to do for `R`, in an admitted step of the first system. -/
def StepSimulates (step : σ → α → Option σ) (step' : τ → α → Option τ)
    (guard : σ × τ → α → Prop) (R : σ → τ → Prop) : Prop :=
  ∀ s t a s', R s t → guard (s, t) a → step s a = some s' → ∃ t', step' t a = some t' ∧ R s' t'

/-- Every admitted run of the first system is a run of the second. -/
theorem simulates (hstep : StepSimulates step step' guard R) {s s' : σ} {t : τ} {run : List α}
    (hR : R s t) (hm : Meets (both step step') guard (s, t) run)
    (he : exec step s run = some s') : ∃ t', exec step' t run = some t' ∧ R s' t' := by
  induction run generalizing s t with
  | nil =>
      cases he
      exact ⟨t, rfl, hR⟩
  | cons a rest ih =>
      rw [exec_cons, Option.bind_eq_some_iff] at he
      obtain ⟨s₁, hs, he⟩ := he
      obtain ⟨t₁, ht, hR₁⟩ := hstep s t a s₁ hR hm.1 hs
      have hboth : both step step' (s, t) a = some (s₁, t₁) := both_eq_some.mpr ⟨hs, ht⟩
      obtain ⟨t', ht', hR'⟩ := ih hR₁ (hm.head hboth).2 he
      refine ⟨t', ?_, hR'⟩
      rw [exec_cons, ht]
      exact ht'

end AbiWrapper.Lib
