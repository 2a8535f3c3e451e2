import Mathlib.Data.Int.Init

/-!
# Tickets from a counter that is put back

A fixed number of tickets is handed out by fetch-and-add on one counter of 32
bits. Whoever fetches a value past the last ticket goes away empty and stores
the number of tickets back into the counter, as a step of its own; between the
two steps others may fetch too.

`count` is the counter. `given` and `beyond` are what has happened to it: how
many tickets have been handed out, and how many that went away empty are still
to put it back. `Sound` says how the three go together. It is kept for as long
as the counter does not overflow, and what it says of a take is all that a user
needs: a ticket is a new one, and where one take got none, none will.
-/

namespace AbiWrapper.Lib

structure Tickets where
  count : Int32
  given : Nat
  beyond : Nat
deriving DecidableEq, Repr

namespace Tickets

def start : Tickets := ⟨0, 0, 0⟩

/-- The fetched value is a ticket. -/
def hasRoom (cap : Nat) (t : Tickets) : Bool := t.count < Int32.ofNat cap

/-- The fetch-and-add; what is fetched is `t.count`. -/
def take (cap : Nat) (t : Tickets) : Tickets :=
  if t.hasRoom cap then { t with count := t.count + 1, given := t.given + 1 }
  else { t with count := t.count + 1, beyond := t.beyond + 1 }

/-- The store of one that went away empty. -/
def putBack (cap : Nat) (t : Tickets) : Tickets :=
  { t with count := Int32.ofNat cap, beyond := t.beyond - 1 }

/-- One more take does not overflow the counter. -/
def calm (cap : Nat) (t : Tickets) : Prop := cap + t.beyond + 1 < 2147483648

instance (cap : Nat) (t : Tickets) : Decidable (t.calm cap) := inferInstanceAs (Decidable (_ < _))

structure Sound (cap : Nat) (t : Tickets) : Prop where
  given_le : t.given ≤ cap
  room : t.given < cap → t.count.toInt = t.given
  full : t.given = cap → (cap : Int) ≤ t.count.toInt ∧ t.count.toInt ≤ cap + t.beyond

variable {cap : Nat} {t : Tickets}

theorem Sound.start : Sound cap start where
  given_le := Nat.zero_le cap
  room _ := rfl
  full h := by
    have h0 : 0 = cap := h
    subst h0
    exact ⟨Int.le_refl _, Int.le_refl _⟩

theorem hasRoom_iff (hcap : cap < 2147483648) : t.hasRoom cap = true ↔ t.count.toInt < cap := by
  rw [hasRoom, decide_eq_true_iff, Int32.lt_iff_toInt_lt, Int32.toInt_ofNat_of_lt (by omega)]

theorem toInt_succ {n : Int32} (h : 0 ≤ n.toInt) (h' : n.toInt + 1 < 2147483648) :
    (n + 1).toInt = n.toInt + 1 := by
  have hone : (1 : Int32).toInt = 1 := by decide
  rw [Int32.toInt_add, hone]
  exact Int.bmod_eq_of_le (by omega) (by omega)

/-- There is room for as long as not all tickets are given. -/
theorem Sound.hasRoom_iff (h : Sound cap t) (hcap : cap < 2147483648) :
    t.hasRoom cap = true ↔ t.given < cap := by
  rw [Tickets.hasRoom_iff hcap]
  have hle := h.given_le
  constructor
  · intro hlt
    rcases Nat.lt_or_ge t.given cap with hg | hg
    · exact hg
    · have := (h.full (by omega)).1
      omega
  · intro hlt
    have := h.room hlt
    omega

/-- A fetched ticket is the number of those given before. -/
theorem Sound.ticket (h : Sound cap t) (hcap : cap < 2147483648) (hroom : t.hasRoom cap = true) :
    t.count = Int32.ofNat t.given ∧ t.given < cap := by
  have hlt := (h.hasRoom_iff hcap).mp hroom
  refine ⟨Int32.toInt_inj.mp ?_, hlt⟩
  rw [Int32.toInt_ofNat_of_lt (by omega)]
  exact h.room hlt

theorem Sound.take_room (h : Sound cap t) (hcap : cap < 2147483648)
    (hroom : t.hasRoom cap = true) :
    Sound cap (t.take cap) ∧ (t.take cap).given = t.given + 1 := by
  have hlt := (h.hasRoom_iff hcap).mp hroom
  have hcount := h.room hlt
  have hsucc : (t.count + 1).toInt = t.given + 1 := by
    rw [toInt_succ (by omega) (by omega), hcount]
  rw [take, if_pos hroom]
  refine ⟨⟨hlt, fun _ => hsucc, fun hf => ?_⟩, rfl⟩
  have hg : t.given + 1 = cap := hf
  show (cap : Int) ≤ (t.count + 1).toInt ∧ (t.count + 1).toInt ≤ cap + t.beyond
  omega

theorem Sound.take_empty (h : Sound cap t) (hcap : cap < 2147483648) (hcalm : t.calm cap)
    (hroom : t.hasRoom cap = false) :
    Sound cap (t.take cap) ∧ t.given = cap ∧ (t.take cap).given = t.given := by
  have hle := h.given_le
  have hno : ¬ t.given < cap := fun hlt => by
    simp [(h.hasRoom_iff hcap).mpr hlt] at hroom
  have hgiven : t.given = cap := by omega
  obtain ⟨hlow, hhigh⟩ := h.full hgiven
  rw [calm] at hcalm
  have hsucc := toInt_succ (n := t.count) (by omega) (by omega)
  rw [take, if_neg (by simp [hroom])]
  refine ⟨⟨hle, fun hlt => absurd hlt hno, fun _ => ?_⟩, hgiven, rfl⟩
  show (cap : Int) ≤ (t.count + 1).toInt ∧ (t.count + 1).toInt ≤ cap + ↑(t.beyond + 1)
  omega

theorem Sound.putBack (hcap : cap < 2147483648) (hgiven : t.given = cap) :
    Sound cap (t.putBack cap) where
  given_le := Nat.le_of_eq hgiven
  room hlt := absurd hgiven (Nat.ne_of_lt hlt)
  full _ := by
    have hcount : (t.putBack cap).count.toInt = cap := Int32.toInt_ofNat_of_lt hcap
    omega

/-- A given ticket is below the counter. -/
theorem Sound.lt_count (h : Sound cap t) {slot : Nat} (hs : slot < t.given) :
    (slot : Int) < t.count.toInt := by
  have hle := h.given_le
  rcases Nat.lt_or_ge t.given cap with hlt | hge
  · have := h.room hlt
    omega
  · have := (h.full (by omega)).1
    omega

end Tickets

end AbiWrapper.Lib
