import Mathlib.Data.List.Nodup

/-!
# Two views of one list

A list may be looked at through a key, which finds an element again if no other
has it, and through two partial functions, which give the same list exactly when
they agree at every element, provided that they are there for the same ones.
-/

namespace AbiWrapper.Lib

variable {α β : Type}

theorem find?_of_nodup [DecidableEq β] {key : α → β} {l : List α} {x : α}
    (hn : (l.map key).Nodup) (hx : x ∈ l) : l.find? (fun y => key y = key x) = some x := by
  have hsome : (l.find? fun y => key y = key x).isSome = true :=
    List.find?_isSome.mpr ⟨x, hx, by simp⟩
  obtain ⟨y, hy⟩ := Option.isSome_iff_exists.mp hsome
  have hkey : key y = key x := by simpa using List.find?_some hy
  rw [hy, List.inj_on_of_nodup_map hn (List.mem_of_find?_eq_some hy) hx hkey]

theorem filterMap_eq_iff {f g : α → Option β} {l : List α}
    (h : ∀ x, x ∈ l → (f x).isSome = (g x).isSome) :
    l.filterMap f = l.filterMap g ↔ ∀ x, x ∈ l → f x = g x := by
  induction l with
  | nil => simp
  | cons x rest ih =>
      have ih := ih fun y hy => h y (List.mem_cons_of_mem x hy)
      have hx := h x List.mem_cons_self
      cases hf : f x with
      | none =>
          have hg : g x = none := by simpa [hf] using hx
          simp [hf, hg, ih]
      | some v =>
          obtain ⟨w, hg⟩ : ∃ w, g x = some w := by
            rw [hf] at hx
            exact Option.isSome_iff_exists.mp hx.symm
          simp [hf, hg, ih]

end AbiWrapper.Lib
