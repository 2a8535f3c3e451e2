import AbiWrapper.Lib.Filling
import AbiWrapper.Ref.FortranBooleans

/-!
# Which literals a thread is answered with

A region is written by several threads or by one, but whoever writes it writes
the same: the one that has claimed the registration what it was given, and the
others what the build's compiler says. So a cell that holds the region's content
goes on holding it, and a thread that has once found the region complete reads
nothing else, however its loads lie between the stores of others.

A thread is sent to the registration by the word that is stored after it. A call
that begins when a set has returned finds that word, so what is derived is
answered only where no set had returned before.
-/

namespace AbiWrapper.Ref

open AbiWrapper.Lib

variable {build : FortranBuild} {m m' : FortranMemory} {r : Region} {x : Logical}
  {todo : List FortranField} {f : FortranFrame} {answer : LogicalAnswer}

/-! ## What a region holds -/

/-- Whose literals a region is for, once that is known. -/
def FortranMemory.source (m : FortranMemory) (build : FortranBuild) : Region → Option Logical
  | .registered => m.given
  | .derived => if m.agreed then some build.probed else none

/-- A region is for these literals, and all is stored but for what is left to do. -/
def FortranMemory.Holds (m : FortranMemory) (build : FortranBuild) (r : Region) (x : Logical)
    (todo : List FortranField) : Prop :=
  m.source build r = some x ∧ Filled (r.fields x) (build.content x) (m.regions r) todo

/-- What a region holds it goes on holding. -/
def Later (build : FortranBuild) (m m' : FortranMemory) : Prop :=
  (m.published = true → m'.published = true) ∧
    ∀ r x todo, m.Holds build r x todo → m'.Holds build r x todo

theorem Later.refl : Later build m m := ⟨id, fun _ _ _ h => h⟩

theorem Later.source (h : Later build m m') (hx : m.source build r = some x) :
    m'.source build r = some x := (h.2 r x (r.fields x) ⟨hx, .start⟩).1

/-- Nothing is stored in the regions. -/
theorem Later.flags (hregions : m'.regions = m.regions)
    (hpublished : m.published = true → m'.published = true)
    (hsource : ∀ r x, m.source build r = some x → m'.source build r = some x) :
    Later build m m' := by
  refine ⟨hpublished, fun r x todo h => ⟨hsource r x h.1, ?_⟩⟩
  rw [hregions]
  exact h.2

theorem store_regions {f : FortranField} {v : f.Value} :
    (m.store r f v).regions r = Function.update (m.regions r) f v := Function.update_self _ _ _

theorem Later.store {f : FortranField} (hx : m.source build r = some x) :
    Later build m (m.store r f (build.content x f)) := by
  refine ⟨id, fun r' x' todo h => ⟨h.1, ?_⟩⟩
  by_cases hr : r' = r
  · subst hr
    obtain rfl : x = x' := Option.some.inj (hx.symm.trans h.1)
    rw [store_regions]
    exact h.2.again
  · have hother : (m.store r f (build.content x f)).regions r' = m.regions r' :=
      Function.update_of_ne hr _ _
    rw [hother]
    exact h.2

/-- The flags say what the regions hold. -/
structure FortranMemory.Ok (m : FortranMemory) (build : FortranBuild) : Prop where
  claimed : m.claimed = m.given.isSome
  fits : ∀ r x, m.source build r = some x → x.fits = true
  published : m.published = true → ∃ x, m.Holds build .registered x []
  derived : m.derivedState = .usable → ∃ x, m.Holds build .derived x []

namespace FortranMemory.Ok

theorem init : FortranMemory.init.Ok build := by
  refine ⟨rfl, fun r x hx => ?_, nofun, nofun⟩
  cases r with
  | registered => cases hx
  | derived => cases hx

theorem store {f : FortranField} (h : m.Ok build) (hx : m.source build r = some x) :
    (m.store r f (build.content x f)).Ok build :=
  have hlater := Later.store (f := f) hx
  ⟨h.claimed, h.fits, fun hp => (h.published hp).imp fun _ => hlater.2 _ _ _,
    fun hd => (h.derived hd).imp fun _ => hlater.2 _ _ _⟩

end FortranMemory.Ok

/-! ## Where a call is, and what it has found -/

theorem enter_claim {c : FortranCall} (h : c.enter = some .claim) :
    (∃ size logical, c = .setBooleans size logical) ∧ c.given.fits = true := by
  cases c with
  | setBooleans size logical =>
      refine ⟨⟨size, logical, rfl⟩, ?_⟩
      rw [FortranCall.enter] at h
      split at h
      · cases h
      · next hok =>
          simp only [Bool.or_eq_true, decide_eq_true_eq, not_or, Bool.not_eq_false] at hok
          exact hok.1
  | getBooleans size logical =>
      rw [FortranCall.enter] at h
      split at h <;> cases h
  | getSizes => cases h

theorem enter_published {c : FortranCall} (h : c.enter = some .published) :
    ∃ size logical, c = .getBooleans size logical := by
  cases c with
  | setBooleans size logical =>
      rw [FortranCall.enter] at h
      split at h <;> cases h
  | getBooleans size logical => exact ⟨size, logical, rfl⟩
  | getSizes => cases h

/-- The buffers with as many bytes of the literals as `n` says. -/
def FortranCall.copied (c : FortranCall) (x : Logical) (n : Bool → Nat) (l : Bool) : Bytes :=
  (c.pointees l).copy 0 (x.literal l) 0 (n l)

/-- `.TRUE.` is copied first. -/
def Logical.reached (x : Logical) (l : Bool) (i : Nat) (l' : Bool) : Nat :=
  if l' = l then i else if l' then x.len else 0

def FortranBuild.sizes (build : FortranBuild) : List Int32 :=
  [build.compiler.size, build.integerSize, build.realSize]

def FortranBuild.kindSize (build : FortranBuild) (k : FortranKind) : Int32 :=
  build.content build.probed (.size k)

namespace FortranFrame

/-- The call may use what is derived, if it finds it. -/
def Derives (f : FortranFrame) : Prop :=
  f.call = .getSizes ∨
    f.call.enter = some .published ∧ f.buffers = f.call.pointees ∧ f.after = false

/-- The call may fill a region. -/
def Fills (f : FortranFrame) (x : Logical) : Region → Prop
  | .registered => f.call.enter = some .claim ∧ x = f.call.given
  | .derived => f.Derives

/-- The call reads a region that is complete. -/
def Reads (f : FortranFrame) (build : FortranBuild) (m : FortranMemory) (r : Region)
    (x : Logical) : Prop :=
  f.call.enter = some .published ∧ m.Holds build r x [] ∧ (r = .derived → f.after = false)

def At (f : FortranFrame) (build : FortranBuild) (m : FortranMemory) : FortranPc → Prop
  | .claim => f.call.enter = some .claim
  | .fill r x todo => m.Holds build r x todo ∧ f.Fills x r
  | .publish r => ∃ x, m.Holds build r x [] ∧ f.Fills x r
  | .published => f.call.enter = some .published ∧ f.buffers = f.call.pointees
  | .derived | .ask | .unusable => f.Derives
  | .compare r => f.buffers = f.call.pointees ∧ ∃ x, f.Reads build m r x
  | .length r l => ∃ x, f.Reads build m r x ∧ x.size = f.call.size ∧
      f.buffers = f.call.copied x (x.reached l 0)
  | .copy r l i left => ∃ x, f.Reads build m r x ∧ x.size = f.call.size ∧
      f.buffers = f.call.copied x (x.reached l i) ∧ i + left = x.len
  | .sizes todo read => f.call = .getSizes ∧ m.Holds build .derived build.probed [] ∧
      read ++ todo.map build.kindSize = build.sizes

end FortranFrame

theorem FortranFrame.At.mono {pc : FortranPc} (hl : Later build m m') (h : f.At build m pc) :
    f.At build m' pc := by
  have hreads : ∀ r x, f.Reads build m r x → f.Reads build m' r x := fun r x hr =>
    ⟨hr.1, hl.2 r x [] hr.2.1, hr.2.2⟩
  cases pc with
  | claim | published | derived | ask | unusable => exact h
  | fill r x todo => exact ⟨hl.2 r x todo h.1, h.2⟩
  | publish r => exact h.imp fun x hx => ⟨hl.2 r x [] hx.1, hx.2⟩
  | compare r => exact ⟨h.1, h.2.imp fun x hx => hreads r x hx⟩
  | length r l => exact h.imp fun x hx => ⟨hreads r x hx.1, hx.2⟩
  | copy r l i left => exact h.imp fun x hx => ⟨hreads r x hx.1, hx.2⟩
  | sizes todo read => exact ⟨h.1, hl.2 _ _ _ h.2.1, h.2.2⟩

/-! ## What a call has answered -/

/-- A get leaves the buffers alone, and where it was answered from the
registration that is for another size; or it puts the literals of its size in
them, and nothing behind. -/
def FortranReturn.GetOk (e : FortranReturn) (build : FortranBuild) (m : FortranMemory)
    (r : Region) : Prop :=
  (e.isSet = false ∧ e.buffers = e.call.pointees ∧
    (r = .registered → ∃ x, m.given = some x ∧ x.size ≠ e.call.size)) ∨
  (e.isSet = true ∧ ∃ x, m.source build r = some x ∧ x.size = e.call.size ∧
    e.buffers = e.call.copied x fun _ => x.len)

/-- A set is refused for its arguments, or it is the one whose literals are kept,
or another one is. A get is refused for its pointers, or answered from a region,
from the registration if a set had returned success when it began. -/
def FortranReturn.Ok (e : FortranReturn) (build : FortranBuild) (m : FortranMemory) : Prop :=
  match e.call with
  | .setBooleans _ _ =>
      if e.call.enter.isNone then e.code = abiErrArg
      else e.code = 0 ∧ m.given = some e.call.given ∨ e.code = abiErrAbi ∧ m.given.isSome
  | .getBooleans _ _ =>
      if e.call.enter.isNone then
        e.code = abiErrArg ∧ e.isSet = false ∧ e.buffers = e.call.pointees
      else e.code = 0 ∧ ∃ r, (r = .derived → e.after = false) ∧ e.GetOk build m r
  | .getSizes => e.code = 0 ∧ (e.sizes = [] ∨ m.agreed = true ∧ e.sizes = build.sizes)

theorem source_derived (h : m.source build .derived = some x) :
    m.agreed = true ∧ x = build.probed := by
  rw [FortranMemory.source] at h
  split at h
  · next ha => exact ⟨ha, (Option.some.inj h).symm⟩
  · cases h

theorem Later.agreed (h : Later build m m') (ha : m.agreed = true) : m'.agreed = true :=
  (source_derived (h.source (by rw [FortranMemory.source, if_pos ha]))).1

namespace FortranReturn.Ok

variable {e : FortranReturn}

theorem mono (hl : Later build m m') (h : e.Ok build m) : e.Ok build m' := by
  have hgiven : ∀ x, m.given = some x → m'.given = some x := fun x hx =>
    hl.source (r := .registered) hx
  have hsome : m.given.isSome → m'.given.isSome := fun hs => by
    obtain ⟨x, hx⟩ := Option.isSome_iff_exists.mp hs
    exact Option.isSome_iff_exists.mpr ⟨x, hgiven x hx⟩
  unfold FortranReturn.Ok at h ⊢
  split at h
  · split at h
    · next hnone => rwa [if_pos hnone]
    · next hnone =>
        rw [if_neg hnone]
        exact h.imp (fun h => ⟨h.1, hgiven _ h.2⟩) fun h => ⟨h.1, hsome h.2⟩
  · split at h
    · next hnone => rwa [if_pos hnone]
    · next hnone =>
        rw [if_neg hnone]
        obtain ⟨hcode, r, hafter, hget⟩ := h
        refine ⟨hcode, r, hafter, hget.imp ?_ ?_⟩
        · rintro ⟨hset, hbuf, hreg⟩
          exact ⟨hset, hbuf, fun hr => (hreg hr).imp fun x hx => ⟨hgiven x hx.1, hx.2⟩⟩
        · rintro ⟨hset, x, hx, hrest⟩
          exact ⟨hset, x, hl.source hx, hrest⟩
  · exact ⟨h.1, h.2.imp id fun h => ⟨hl.agreed h.1, h.2⟩⟩

/-- A set has come to its end. -/
theorem set (he : e.call.enter = some .claim)
    (h : e.code = 0 ∧ m.given = some e.call.given ∨ e.code = abiErrAbi ∧ m.given.isSome) :
    e.Ok build m := by
  obtain ⟨⟨size, logical, hc⟩, -⟩ := enter_claim he
  simpa only [FortranReturn.Ok, hc, hc ▸ he, Option.isNone_some, Bool.false_eq_true, if_false]
    using h

theorem get (he : e.call.enter = some .published) (hcode : e.code = 0)
    (hafter : r = .derived → e.after = false) (h : e.GetOk build m r) : e.Ok build m := by
  obtain ⟨size, logical, hc⟩ := enter_published he
  simp only [FortranReturn.Ok, hc, hc ▸ he, Option.isNone_some, Bool.false_eq_true, if_false]
  exact ⟨hcode, r, hafter, h⟩

end FortranReturn.Ok

/-! ## Reading a complete region -/

theorem size_mem : FortranField.size .logical ∈ r.fields x := by
  cases r with
  | registered => exact List.mem_append_right _ (List.mem_singleton.mpr rfl)
  | derived => exact List.mem_append_left _ (List.mem_append_left _ List.mem_cons_self)

theorem kind_mem {k : FortranKind} : FortranField.size k ∈ Region.derived.fields x := by
  refine List.mem_append_left _ (List.mem_append_left _ ?_)
  cases k <;> simp

theorem byte_mem {l : Bool} {i : Nat} (hi : i < x.len) : FortranField.byte l i ∈ r.fields x := by
  have hmem : FortranField.byte l i ∈ x.bytes l :=
    List.mem_map.mpr ⟨i, List.mem_range.mpr hi, rfl⟩
  have hboth : FortranField.byte l i ∈ x.bytes true ++ x.bytes false := by
    cases l with
    | true => exact List.mem_append_left _ hmem
    | false => exact List.mem_append_right _ hmem
  cases r with
  | registered => exact List.mem_append_left _ hboth
  | derived =>
      show _ ∈ _ ++ x.bytes true ++ x.bytes false
      rw [List.append_assoc]
      exact List.mem_append_right _ hboth

namespace FortranMemory.Holds

theorem size (h : m.Holds build r x []) : m.regions r (.size .logical) = x.size :=
  h.2.read size_mem

theorem byte {l : Bool} {i : Nat} (h : m.Holds build r x []) (hi : i < x.len) :
    m.regions r (.byte l i) = x.literal l i := h.2.read (byte_mem hi)

theorem kind {k : FortranKind} (h : m.Holds build .derived build.probed []) :
    m.regions .derived (.size k) = build.kindSize k := h.2.read kind_mem

end FortranMemory.Holds

theorem fits_len (h : x.fits = true) : x.len ≤ 16 := by
  simp only [Logical.fits, Bool.and_eq_true, decide_eq_true_eq] at h
  have hle : x.size.toInt ≤ (16 : Int) := Int32.le_iff_toInt_le.mp h.2
  rw [Logical.len]
  omega

theorem fields_length : (r.fields x).length ≤ 2 * x.len + 3 := by
  cases r <;> simp only [Region.fields, Logical.bytes, List.length_append, List.length_map,
    List.length_range, List.length_cons, List.length_nil] <;> omega

section
variable {c : FortranCall} {l : Bool} {i : Nat}

theorem copied_start : c.copied x (x.reached true 0) = c.pointees := by
  funext l a
  have hn : x.reached true 0 l = 0 := by
    cases l <;> rfl
  rw [FortranCall.copied, hn]
  exact Bytes.copy_outside (by omega)

theorem copied_next (hi : i < x.len) :
    Function.update (c.copied x (x.reached l i)) l
        (Function.update (c.copied x (x.reached l i) l) i (x.literal l i)) =
      c.copied x (x.reached l (i + 1)) := by
  funext l' a
  by_cases hl : l' = l
  · subst hl
    have hn : ∀ j, x.reached l' j l' = j := fun j => if_pos rfl
    rw [Function.update_self, FortranCall.copied, FortranCall.copied, hn, hn]
    by_cases ha : a = i
    · subst ha
      rw [Function.update_self]
      have hat : (c.pointees l').copy 0 (x.literal l') 0 (a + 1) (0 + a) = x.literal l' (0 + a) :=
        Bytes.copy_at (Nat.lt_succ_self a)
      simpa only [Nat.zero_add] using hat.symm
    · rw [Function.update_of_ne ha, Bytes.copy, Bytes.copy]
      have hiff : (0 ≤ a ∧ a < 0 + i) ↔ (0 ≤ a ∧ a < 0 + (i + 1)) := by omega
      simp only [hiff]
  · have hn : x.reached l i l' = x.reached l (i + 1) l' := by
      rw [Logical.reached, Logical.reached, if_neg hl, if_neg hl]
    rw [Function.update_of_ne hl, FortranCall.copied, FortranCall.copied, hn]

theorem reached_second : x.reached true x.len = x.reached false 0 := by
  funext l
  cases l <;> rfl

theorem reached_end : x.reached false x.len = fun _ => x.len := by
  funext l
  cases l <;> rfl

end

/-! ## One step of a call -/

/-- How many steps a call has left at most. -/
def FortranPc.rank : FortranPc → Nat
  | .claim => 37
  | .fill .registered _ todo => todo.length + 2
  | .fill .derived _ todo => todo.length + 39
  | .publish .registered => 1
  | .publish .derived => 38
  | .published => 77
  | .derived => 76
  | .ask => 75
  | .unusable => 1
  | .compare _ => 37
  | .length _ true => 36
  | .length _ false => 18
  | .copy _ true _ left => left + 19
  | .copy _ false _ left => left + 1
  | .sizes todo _ => todo.length + 1

theorem FortranPc.rank_pos (pc : FortranPc) : 0 < pc.rank := by
  cases pc with
  | fill r x todo => cases r <;> exact Nat.succ_pos _
  | publish r => cases r <;> exact Nat.succ_pos _
  | length r l => cases l <;> exact Nat.succ_pos _
  | copy r l i left => cases l <;> exact Nat.succ_pos _
  | _ => exact Nat.succ_pos _

def FortranMove.Ok (move : FortranMove) (build : FortranBuild) (m : FortranMemory)
    (f : FortranFrame) : Prop :=
  match move with
  | .goto pc buffers =>
      FortranFrame.At { f with pc, buffers, steps := f.steps + 1 } build m pc ∧ pc.rank < f.pc.rank
  | .ret code isSet sizes =>
      FortranReturn.Ok ⟨f.call, f.after, f.steps + 1, code, isSet, f.buffers, sizes⟩ build m

/-- What a step makes of the memory and of the call. -/
structure StepOk (build : FortranBuild) (m : FortranMemory) (f : FortranFrame)
    (p : FortranMove × FortranMemory) : Prop where
  memory : p.2.Ok build
  later : Later build m p.2
  move : p.1.Ok build p.2 f

/-- The step that `f` makes, at `pc`. -/
abbrev FortranFrame.next (f : FortranFrame) (build : FortranBuild) (answer : LogicalAnswer)
    (m : FortranMemory) : FortranMove × FortranMemory :=
  fortranStep build f.call answer f.buffers m f.pc

section
variable {pc : FortranPc}

theorem StepOk.same {move : FortranMove} (hm : m.Ok build) (h : move.Ok build m f) :
    StepOk build m f (move, m) := ⟨hm, .refl, h⟩

/-- A call that may use what is derived answers that there is nothing. -/
theorem FortranFrame.Derives.nothing (h : f.Derives) :
    (FortranMove.ret 0 false []).Ok build m f := by
  rcases h with h | ⟨henter, hbuf, hafter⟩
  · simp only [FortranMove.Ok, FortranReturn.Ok, h]
    exact ⟨trivial, .inl trivial⟩
  · exact .get (r := .derived) henter rfl (fun _ => hafter) (.inl ⟨rfl, hbuf, nofun⟩)

/-- It goes on to use what is complete. -/
theorem FortranFrame.Derives.use (h : f.Derives) (hholds : m.Holds build .derived x [])
    (hrank : 37 < f.pc.rank) : (FortranMove.goto f.call.use f.buffers).Ok build m f := by
  obtain ⟨hagreed, rfl⟩ := source_derived hholds.1
  rcases h with h | ⟨henter, hbuf, hafter⟩
  · rw [h]
    refine ⟨⟨h, hholds, ?_⟩, ?_⟩
    · rfl
    · exact Nat.lt_trans (by decide) hrank
  · obtain ⟨size, logical, hc⟩ := enter_published henter
    have huse : f.call.use = .compare .derived := by rw [hc]; rfl
    rw [huse]
    exact ⟨⟨hbuf, build.probed, henter, hholds, fun _ => hafter⟩, hrank⟩

/-- The claim that comes first. -/
theorem claim_memory (hm : m.Ok build) (hclaimed : m.claimed = false) {c : FortranCall}
    (hfits : c.given.fits = true) :
    FortranMemory.Ok { m with claimed := true, given := some c.given } build ∧
      Later build m { m with claimed := true, given := some c.given } := by
  have hnone : m.given = none := Option.not_isSome_iff_eq_none.mp (by
    rw [← hm.claimed, hclaimed]
    exact Bool.false_ne_true)
  have hlater : Later build m { m with claimed := true, given := some c.given } := by
    refine .flags rfl id fun r x hx => ?_
    cases r with
    | registered => exact nomatch hnone.symm.trans hx
    | derived => exact hx
  refine ⟨⟨rfl, fun r x hx => ?_, fun hp => ?_, fun hd => ?_⟩, hlater⟩
  · cases r with
    | registered =>
        obtain rfl := Option.some.inj hx
        exact hfits
    | derived => exact hm.fits .derived x hx
  · exact (hm.published hp).imp fun _ => hlater.2 _ _ _
  · exact (hm.derived hd).imp fun _ => hlater.2 _ _ _

theorem claim_ok (hm : m.Ok build) (hpc : f.pc = .claim) (hf : f.call.enter = some .claim) :
    StepOk build m f (f.next build answer m) := by
  have hfits := (enter_claim hf).2
  rw [FortranFrame.next, hpc, fortranStep]
  cases hclaimed : m.claimed with
  | true =>
      rw [if_pos rfl]
      have hgiven : m.given.isSome := hm.claimed ▸ hclaimed
      exact .same hm (.set hf (.inr ⟨rfl, hgiven⟩))
  | false =>
      rw [if_neg Bool.false_ne_true]
      obtain ⟨hok, hlater⟩ := claim_memory hm hclaimed hfits
      refine ⟨hok, hlater, ⟨⟨rfl, .start⟩, hf, rfl⟩, ?_⟩
      have hlen := fits_len hfits
      have hfields : (Region.registered.fields f.call.given).length = 2 * f.call.given.len + 1 := by
        simp only [Region.fields, Logical.bytes, List.length_append, List.length_map,
          List.length_range, List.length_cons, List.length_nil]
        omega
      rw [hpc, FortranPc.rank, FortranPc.rank, hfields]
      omega

theorem fill_ok (hm : m.Ok build) (hpc : f.pc = .fill r x todo) (hholds : m.Holds build r x todo)
    (hf : f.Fills x r) : StepOk build m f (f.next build answer m) := by
  rw [FortranFrame.next, hpc]
  cases todo with
  | nil =>
      rw [fortranStep]
      refine .same hm ⟨⟨x, hholds, hf⟩, ?_⟩
      rw [hpc]
      cases r <;> simp [FortranPc.rank]
  | cons k todo =>
      rw [fortranStep]
      refine ⟨hm.store hholds.1, .store hholds.1, ⟨⟨hholds.1, ?_⟩, hf⟩, ?_⟩
      · rw [store_regions]
        exact hholds.2.write
      · rw [hpc]
        cases r <;> simp [FortranPc.rank]

theorem publish_ok (hm : m.Ok build) (hpc : f.pc = .publish r) (hholds : m.Holds build r x [])
    (hf : f.Fills x r) : StepOk build m f (f.next build answer m) := by
  rw [FortranFrame.next, hpc]
  cases r with
  | registered =>
      rw [fortranStep]
      obtain ⟨henter, rfl⟩ := hf
      have hlater : Later build m (m.publish .registered) := .flags rfl (fun _ => rfl) fun _ _ => id
      refine ⟨⟨hm.claimed, hm.fits, fun _ => ⟨_, hlater.2 _ _ _ hholds⟩, fun hd => ?_⟩, hlater, ?_⟩
      · exact (hm.derived hd).imp fun _ => hlater.2 _ _ _
      · exact .set henter (.inl ⟨rfl, hholds.1⟩)
  | derived =>
      rw [fortranStep]
      have hlater : Later build m (m.publish .derived) := .flags rfl id fun _ _ => id
      refine ⟨⟨hm.claimed, hm.fits, fun hp => ?_, fun _ => ⟨_, hlater.2 _ _ _ hholds⟩⟩, hlater, ?_⟩
      · exact (hm.published hp).imp fun _ => hlater.2 _ _ _
      · exact FortranFrame.Derives.use hf (hlater.2 _ _ _ hholds) (by rw [hpc]; decide)

theorem published_ok (hm : m.Ok build) (hpc : f.pc = .published)
    (hafter : f.after = true → m.published = true) (henter : f.call.enter = some .published)
    (hbuf : f.buffers = f.call.pointees) : StepOk build m f (f.next build answer m) := by
  rw [FortranFrame.next, hpc, fortranStep]
  cases hp : m.published with
  | true =>
      obtain ⟨x, hholds⟩ := hm.published hp
      rw [if_pos rfl]
      exact .same hm ⟨⟨hbuf, x, henter, hholds, nofun⟩, by rw [hpc]; decide⟩
  | false =>
      have hbefore : f.after = false := by
        cases ha : f.after with
        | true => exact nomatch hp.symm.trans (hafter ha)
        | false => rfl
      rw [if_neg Bool.false_ne_true]
      exact .same hm ⟨.inr ⟨henter, hbuf, hbefore⟩, by rw [hpc]; decide⟩

theorem derived_ok (hm : m.Ok build) (hpc : f.pc = .derived) (hf : f.Derives) :
    StepOk build m f (f.next build answer m) := by
  rw [FortranFrame.next, hpc, fortranStep]
  split
  · exact .same hm hf.nothing
  · cases hd : m.derivedState with
    | unknown => exact .same hm ⟨hf, by rw [hpc]; decide⟩
    | usable =>
        obtain ⟨x, hholds⟩ := hm.derived hd
        exact .same hm (hf.use hholds (by rw [hpc]; decide))
    | unusable => exact .same hm hf.nothing

theorem verdict_fits (h : build.verdict answer = .usable) : build.probed.fits = true := by
  cases hf : build.probed.fits with
  | true => rfl
  | false =>
      simp only [FortranBuild.verdict, hf, true_or, if_true] at h
      repeat' split at h
      all_goals cases h

theorem ask_ok (hm : m.Ok build) (hpc : f.pc = .ask) (hf : f.Derives) :
    StepOk build m f (f.next build answer m) := by
  rw [FortranFrame.next, hpc, fortranStep]
  cases hv : build.verdict answer with
  | declined => exact .same hm hf.nothing
  | unusable => exact .same hm ⟨hf, by rw [hpc]; decide⟩
  | usable =>
      have hfits := verdict_fits hv
      have hlater : Later build m { m with agreed := true } := by
        refine .flags rfl id fun r x hx => ?_
        cases r with
        | registered => exact hx
        | derived =>
            rw [(source_derived hx).2]
            rfl
      refine ⟨⟨hm.claimed, fun r x hx => ?_, fun hp => ?_, fun hd => ?_⟩, hlater,
        ⟨⟨rfl, .start⟩, hf⟩, ?_⟩
      · cases r with
        | registered => exact hm.fits .registered x hx
        | derived =>
            obtain rfl := Option.some.inj hx
            exact hfits
      · exact (hm.published hp).imp fun _ => hlater.2 _ _ _
      · exact (hm.derived hd).imp fun _ => hlater.2 _ _ _
      · have hlen := fits_len hfits
        have hfields := fields_length (r := .derived) (x := build.probed)
        rw [hpc, FortranPc.rank, FortranPc.rank]
        omega

theorem unusable_ok (hm : m.Ok build) (hpc : f.pc = .unusable) (hf : f.Derives) :
    StepOk build m f (f.next build answer m) := by
  rw [FortranFrame.next, hpc, fortranStep]
  have hlater : Later build m { m with derivedState := .unusable } := .flags rfl id fun _ _ => id
  exact ⟨⟨hm.claimed, hm.fits, fun hp => (hm.published hp).imp fun _ => hlater.2 _ _ _, nofun⟩,
    hlater, hf.nothing⟩

theorem compare_ok (hm : m.Ok build) (hpc : f.pc = .compare r)
    (hbuf : f.buffers = f.call.pointees) (hf : f.Reads build m r x) :
    StepOk build m f (f.next build answer m) := by
  obtain ⟨henter, hholds, hafter⟩ := hf
  rw [FortranFrame.next, hpc, fortranStep, hholds.size]
  split
  · next hne =>
      refine .same hm (.get henter rfl hafter (.inl ⟨rfl, hbuf, ?_⟩))
      rintro rfl
      exact ⟨x, hholds.1, Ne.symm hne⟩
  · next heq =>
      refine .same hm ⟨⟨x, ⟨henter, hholds, hafter⟩, (not_not.mp heq).symm, ?_⟩, ?_⟩
      · exact hbuf.trans copied_start.symm
      · rw [hpc]
        exact Nat.lt_succ_self 36

theorem length_ok {l : Bool} (hm : m.Ok build) (hpc : f.pc = .length r l)
    (hf : f.Reads build m r x) (hsize : x.size = f.call.size)
    (hbuf : f.buffers = f.call.copied x (x.reached l 0)) :
    StepOk build m f (f.next build answer m) := by
  rw [FortranFrame.next, hpc, fortranStep, hf.2.1.size]
  refine .same hm ⟨⟨x, hf, hsize, hbuf, Nat.zero_add _⟩, ?_⟩
  have hlen : x.size.toInt.toNat ≤ 16 := fits_len (hm.fits r x hf.2.1.1)
  rw [hpc]
  cases l <;> simp only [FortranPc.rank] <;> omega

theorem copy_ok {l : Bool} {i left : Nat} (hm : m.Ok build) (hpc : f.pc = .copy r l i left)
    (hf : f.Reads build m r x) (hsize : x.size = f.call.size)
    (hbuf : f.buffers = f.call.copied x (x.reached l i)) (hleft : i + left = x.len) :
    StepOk build m f (f.next build answer m) := by
  rw [FortranFrame.next, hpc]
  cases left with
  | zero =>
      obtain rfl : i = x.len := hleft
      cases l with
      | true =>
          rw [fortranStep, if_pos rfl]
          refine .same hm ⟨⟨x, hf, hsize, hbuf.trans (by rw [reached_second])⟩, ?_⟩
          rw [hpc]
          exact Nat.lt_succ_self 18
      | false =>
          rw [fortranStep, if_neg Bool.false_ne_true]
          refine .same hm (.get hf.1 rfl hf.2.2 (.inr ⟨rfl, x, hf.2.1.1, hsize, ?_⟩))
          exact hbuf.trans (by rw [reached_end])
  | succ left =>
      have hi : i < x.len := by omega
      rw [fortranStep, hf.2.1.byte hi, hbuf]
      refine .same hm ⟨⟨x, hf, hsize, copied_next hi, by omega⟩, ?_⟩
      rw [hpc]
      cases l <;> simp [FortranPc.rank]

theorem sizes_ok {todo : List FortranKind} {read : List Int32} (hm : m.Ok build)
    (hpc : f.pc = .sizes todo read) (hcall : f.call = .getSizes)
    (hholds : m.Holds build .derived build.probed [])
    (hread : read ++ todo.map build.kindSize = build.sizes) :
    StepOk build m f (f.next build answer m) := by
  rw [FortranFrame.next, hpc]
  cases todo with
  | nil =>
      rw [List.map_nil, List.append_nil] at hread
      rw [fortranStep]
      refine .same hm ?_
      simp only [FortranMove.Ok, FortranReturn.Ok, hcall]
      exact ⟨trivial, .inr ⟨(source_derived hholds.1).1, hread⟩⟩
  | cons k todo =>
      rw [fortranStep, hholds.kind]
      refine .same hm ⟨⟨hcall, hholds, ?_⟩, ?_⟩
      · rw [List.append_assoc]
        exact hread
      · rw [hpc]
        simp [FortranPc.rank]

theorem next_ok (hm : m.Ok build) (hafter : f.after = true → m.published = true)
    (hf : f.At build m f.pc) : StepOk build m f (f.next build answer m) := by
  cases hpc : f.pc with
  | claim =>
      rw [hpc] at hf
      exact claim_ok hm hpc hf
  | fill r x todo =>
      rw [hpc] at hf
      exact fill_ok hm hpc hf.1 hf.2
  | publish r =>
      rw [hpc] at hf
      obtain ⟨x, hholds, hfills⟩ := hf
      exact publish_ok hm hpc hholds hfills
  | published =>
      rw [hpc] at hf
      exact published_ok hm hpc hafter hf.1 hf.2
  | derived =>
      rw [hpc] at hf
      exact derived_ok hm hpc hf
  | ask =>
      rw [hpc] at hf
      exact ask_ok hm hpc hf
  | unusable =>
      rw [hpc] at hf
      exact unusable_ok hm hpc hf
  | compare r =>
      rw [hpc] at hf
      obtain ⟨hbuf, x, hreads⟩ := hf
      exact compare_ok hm hpc hbuf hreads
  | length r l =>
      rw [hpc] at hf
      obtain ⟨x, hreads, hsize, hbuf⟩ := hf
      exact length_ok hm hpc hreads hsize hbuf
  | copy r l i left =>
      rw [hpc] at hf
      obtain ⟨x, hreads, hsize, hbuf, hleft⟩ := hf
      exact copy_ok hm hpc hreads hsize hbuf hleft
  | sizes todo read =>
      rw [hpc] at hf
      obtain ⟨hcall, hholds, hread⟩ := hf
      exact sizes_ok hm hpc hcall hholds hread

end

/-! ## Who claims and publishes -/

/-- The call has claimed the registration. -/
def FortranPc.setting : FortranPc → Bool
  | .fill .registered _ _ | .publish .registered => true
  | _ => false

/-- The step of a call that neither claims the registration nor publishes it. -/
def FortranMove.Quiet (f : FortranFrame) : FortranMove → Prop
  | .goto pc _ => pc.setting = true → f.pc.setting = true
  | .ret code _ _ => ∀ size logical, f.call = .setBooleans size logical → code ≠ 0

/-- What a step may do to the two flags of the registration. -/
inductive FlagStep (m : FortranMemory) (f : FortranFrame) :
    FortranMove × FortranMemory → Prop
  | claim {x : Logical} {todo : List FortranField} {buffers : Bool → Bytes} (m' : FortranMemory)
      (hpc : f.pc = .claim) (hfree : m.claimed = false) (hclaimed : m'.claimed = true)
      (hpublished : m'.published = m.published) :
      FlagStep m f (.goto (.fill .registered x todo) buffers, m')
  | publish (m' : FortranMemory) (hpc : f.pc = .publish .registered)
      (hpublished : m'.published = true)
      (hsets : ∃ size logical, f.call = .setBooleans size logical) :
      FlagStep m f (.ret 0 false [], m')
  | quiet {move : FortranMove} (m' : FortranMemory) (hquiet : move.Quiet f)
      (hclaimed : m'.claimed = m.claimed) (hpublished : m'.published = m.published) :
      FlagStep m f (move, m')

theorem quiet_getter {code : Int32} {isSet : Bool} {sizes : List Int32}
    (h : f.call.enter = some .published) : (FortranMove.ret code isSet sizes).Quiet f := by
  intro size logical hc
  obtain ⟨size', logical', hget⟩ := enter_published h
  cases hget.symm.trans hc

theorem FortranFrame.Derives.quiet {code : Int32} {isSet : Bool} {sizes : List Int32}
    (h : f.Derives) : (FortranMove.ret code isSet sizes).Quiet f := by
  rcases h with h | ⟨h, -, -⟩
  · intro size logical hc
    cases h.symm.trans hc
  · exact quiet_getter h

theorem use_setting {c : FortranCall} : c.use.setting = false := by
  cases c <;> rfl

/-- A step that leaves the memory alone. -/
theorem FlagStep.same {move : FortranMove} (h : move.Quiet f) : FlagStep m f (move, m) :=
  .quiet m h rfl rfl

theorem claim_flags (hpc : f.pc = .claim) : FlagStep m f (f.next build answer m) := by
  rw [FortranFrame.next, hpc, fortranStep]
  cases hclaimed : m.claimed with
  | true =>
      rw [if_pos rfl]
      exact .same fun _ _ _ => by decide
  | false =>
      rw [if_neg Bool.false_ne_true]
      exact .claim _ hpc hclaimed rfl rfl

theorem fill_flags {r : Region} {x : Logical} {todo : List FortranField}
    (hpc : f.pc = .fill r x todo) : FlagStep m f (f.next build answer m) := by
  have hfill : r = .registered → f.pc.setting = true := by
    rintro rfl
    rw [hpc]
    rfl
  rw [FortranFrame.next, hpc]
  cases todo with
  | nil =>
      rw [fortranStep]
      refine .same fun h => ?_
      cases r with
      | registered => exact hfill rfl
      | derived => cases h
  | cons k todo =>
      rw [fortranStep]
      refine .quiet _ (fun h => ?_) rfl rfl
      cases r with
      | registered => exact hfill rfl
      | derived => cases h

theorem publish_flags {r : Region} (hpc : f.pc = .publish r) (hf : f.At build m (.publish r)) :
    FlagStep m f (f.next build answer m) := by
  rw [FortranFrame.next, hpc]
  cases r with
  | registered =>
      rw [fortranStep]
      obtain ⟨x, -, henter, -⟩ := hf
      exact .publish _ hpc rfl (enter_claim henter).1
  | derived =>
      rw [fortranStep]
      refine .quiet _ (fun h => ?_) rfl rfl
      rw [use_setting] at h
      cases h

theorem published_flags (hpc : f.pc = .published) : FlagStep m f (f.next build answer m) := by
  rw [FortranFrame.next, hpc, fortranStep]
  refine .same fun h => ?_
  cases hp : m.published with
  | true => rw [hp, if_pos rfl] at h; cases h
  | false => rw [hp, if_neg Bool.false_ne_true] at h; cases h

theorem derived_flags (hpc : f.pc = .derived) (hf : f.Derives) :
    FlagStep m f (f.next build answer m) := by
  rw [FortranFrame.next, hpc, fortranStep]
  split
  · exact .same hf.quiet
  · cases m.derivedState with
    | unknown => exact .same nofun
    | usable =>
        refine .same fun h => ?_
        rw [use_setting] at h
        cases h
    | unusable => exact .same hf.quiet

theorem ask_flags (hpc : f.pc = .ask) (hf : f.Derives) :
    FlagStep m f (f.next build answer m) := by
  rw [FortranFrame.next, hpc, fortranStep]
  cases build.verdict answer with
  | declined => exact .same hf.quiet
  | unusable => exact .same nofun
  | usable => exact .quiet _ nofun rfl rfl

theorem compare_flags {r : Region} (hpc : f.pc = .compare r)
    (henter : f.call.enter = some .published) : FlagStep m f (f.next build answer m) := by
  rw [FortranFrame.next, hpc, fortranStep]
  split
  · exact .same (quiet_getter henter)
  · exact .same nofun

theorem copy_flags {r : Region} {l : Bool} {i left : Nat} (hpc : f.pc = .copy r l i left)
    (henter : f.call.enter = some .published) : FlagStep m f (f.next build answer m) := by
  rw [FortranFrame.next, hpc]
  cases left with
  | zero =>
      rw [fortranStep]
      cases l with
      | true => exact .same nofun
      | false => exact .same (quiet_getter henter)
  | succ left =>
      rw [fortranStep]
      exact .same nofun

theorem sizes_flags {todo : List FortranKind} {read : List Int32} (hpc : f.pc = .sizes todo read)
    (hcall : f.call = .getSizes) : FlagStep m f (f.next build answer m) := by
  rw [FortranFrame.next, hpc]
  cases todo with
  | nil =>
      rw [fortranStep]
      exact .same fun size logical hc => nomatch hcall.symm.trans hc
  | cons k todo =>
      rw [fortranStep]
      exact .same nofun

theorem next_flags (hf : f.At build m f.pc) : FlagStep m f (f.next build answer m) := by
  cases hpc : f.pc with
  | claim => exact claim_flags hpc
  | fill r x todo => exact fill_flags hpc
  | publish r => exact publish_flags hpc (hpc ▸ hf)
  | published => exact published_flags hpc
  | derived =>
      rw [hpc] at hf
      exact derived_flags hpc hf
  | ask =>
      rw [hpc] at hf
      exact ask_flags hpc hf
  | unusable =>
      rw [hpc] at hf
      rw [FortranFrame.next, hpc, fortranStep]
      exact .quiet _ hf.quiet rfl rfl
  | compare r =>
      rw [hpc] at hf
      obtain ⟨-, x, henter, -⟩ := hf
      exact compare_flags hpc henter
  | length r l =>
      rw [FortranFrame.next, hpc, fortranStep]
      exact .same nofun
  | copy r l i left =>
      rw [hpc] at hf
      obtain ⟨x, ⟨henter, -⟩, -⟩ := hf
      exact copy_flags hpc henter
  | sizes todo read =>
      rw [hpc] at hf
      exact sizes_flags hpc hf.1

/-! ## Any number of threads -/

/-- A call in progress. -/
structure FortranFrame.Ok (f : FortranFrame) (build : FortranBuild) (m : FortranMemory) : Prop where
  at_ : f.At build m f.pc
  after : f.after = true → m.published = true
  steps : f.steps + f.pc.rank ≤ 77

structure ThreadsInv (build : FortranBuild) (s : FortranThreads) : Prop where
  memory : s.memory.Ok build
  frames : ∀ i f, s.frames i = some f → f.Ok build s.memory
  log : ∀ e ∈ s.log, e.Ok build s.memory ∧ e.steps ≤ 77
  once : s.log.countP FortranReturn.succeeded = if s.memory.published then 1 else 0
  setting : ∀ i f, s.frames i = some f → f.pc.setting = true →
    s.memory.claimed = true ∧ s.memory.published = false
  alone : ∀ i j f g, s.frames i = some f → s.frames j = some g → f.pc.setting = true →
    g.pc.setting = true → i = j

theorem entered {c : FortranCall} {pc : FortranPc} {after : Bool} (h : c.enter = some pc)
    (hafter : after = true → m.published = true) :
    (⟨c, pc, c.pointees, after, 0⟩ : FortranFrame).Ok build m ∧ pc.setting = false := by
  cases c with
  | setBooleans size logical =>
      have henter := h
      rw [FortranCall.enter] at h
      split at h
      · cases h
      · cases h
        exact ⟨⟨henter, hafter, Nat.le_of_ble_eq_true rfl⟩, rfl⟩
  | getBooleans size logical =>
      have henter := h
      rw [FortranCall.enter] at h
      split at h
      · cases h
      · cases h
        exact ⟨⟨⟨henter, rfl⟩, hafter, Nat.le_of_ble_eq_true rfl⟩, rfl⟩
  | getSizes =>
      cases h
      exact ⟨⟨.inl rfl, hafter, Nat.le_of_ble_eq_true rfl⟩, rfl⟩

theorem refused {c : FortranCall} {after : Bool} (h : c.enter = none) :
    (⟨c, after, 0, abiErrArg, false, c.pointees, []⟩ : FortranReturn).Ok build m := by
  cases c with
  | setBooleans size logical => simp [FortranReturn.Ok, h]
  | getBooleans size logical => simp [FortranReturn.Ok, h]
  | getSizes => cases h

theorem refused_succeeded {c : FortranCall} {after : Bool} :
    (⟨c, after, 0, abiErrArg, false, c.pointees, []⟩ : FortranReturn).succeeded = false := by
  cases c <;> rfl

namespace ThreadsInv

variable {s s' : FortranThreads} {i : Nat}

theorem init : ThreadsInv build .init :=
  ⟨.init, fun _ _ h => (by cases h), fun _ h => (by cases h), rfl, fun _ _ h => (by cases h),
    fun _ _ _ _ h => (by cases h)⟩

theorem published_of_settled (h : ThreadsInv build s) (hs : s.settled = true) :
    s.memory.published = true := by
  obtain ⟨e, he, hsucc⟩ := List.any_eq_true.mp hs
  cases hp : s.memory.published with
  | true => rfl
  | false =>
      have honce := h.once
      rw [hp, if_neg Bool.false_ne_true] at honce
      exact absurd hsucc (List.countP_eq_zero.mp honce e he)

/-- A call is refused before its first access. -/
theorem refused (h : ThreadsInv build s) (hidle : s.frames i = none) {c : FortranCall}
    (hc : c.enter = none) :
    ThreadsInv build (s.returned i ⟨c, s.settled, 0, abiErrArg, false, c.pointees, []⟩) := by
  have hframes : Function.update s.frames i none = s.frames := by
    rw [← hidle, Function.update_eq_self]
  refine ⟨h.memory, ?_, fun e he => ?_, ?_, ?_, ?_⟩
  · rw [FortranThreads.returned_frames, hframes]
    exact h.frames
  · rcases List.mem_append.mp he with he | he
    · exact h.log e he
    · obtain rfl := List.mem_singleton.mp he
      exact ⟨Ref.refused hc, Nat.zero_le _⟩
  · rw [FortranThreads.returned_log, List.countP_append, List.countP_singleton,
      refused_succeeded, if_neg Bool.false_ne_true, Nat.add_zero]
    exact h.once
  · rw [FortranThreads.returned_frames, hframes]
    exact h.setting
  · rw [FortranThreads.returned_frames, hframes]
    exact h.alone

/-- What a call's frame becomes, in a memory that has become `m'`. -/
theorem moved (h : ThreadsInv build s) {f' : FortranFrame} (hm : m'.Ok build)
    (hl : Later build s.memory m') (hf : f'.Ok build m')
    (honce : s.log.countP FortranReturn.succeeded = if m'.published then 1 else 0)
    (hother : ∀ j g, j ≠ i → s.frames j = some g → g.pc.setting = true →
      m'.claimed = true ∧ m'.published = false ∧ f'.pc.setting = false)
    (hown : f'.pc.setting = true → m'.claimed = true ∧ m'.published = false) :
    ThreadsInv build ({ s with memory := m' }.setFrame i (some f')) := by
  have hcases : ∀ j g, Function.update s.frames i (some f') j = some g →
      j = i ∧ f' = g ∨ j ≠ i ∧ s.frames j = some g := fun j g hg =>
    (update_cases (P := fun o => o = some g) hg).imp (fun h => ⟨h.1, Option.some.inj h.2⟩) id
  refine ⟨hm, fun j g hg => ?_, fun e he => ⟨(h.log e he).1.mono hl, (h.log e he).2⟩, honce,
    fun j g hg hset => ?_, fun j k g g' hg hg' hset hset' => ?_⟩
  · rcases hcases j g hg with ⟨-, rfl⟩ | ⟨-, hg⟩
    · exact hf
    · have hok := h.frames j g hg
      exact ⟨hok.at_.mono hl, fun ha => hl.1 (hok.after ha), hok.steps⟩
  · rcases hcases j g hg with ⟨-, rfl⟩ | ⟨hj, hg⟩
    · exact hown hset
    · obtain ⟨hc, hp, -⟩ := hother j g hj hg hset
      exact ⟨hc, hp⟩
  · rcases hcases j g hg with ⟨rfl, rfl⟩ | ⟨hj, hgj⟩
    · rcases hcases k g' hg' with ⟨rfl, -⟩ | ⟨hk, hgk⟩
      · rfl
      · exact nomatch hset.symm.trans (hother k g' hk hgk hset').2.2
    · rcases hcases k g' hg' with ⟨rfl, rfl⟩ | ⟨hk, hgk⟩
      · exact nomatch hset'.symm.trans (hother j g hj hgj hset).2.2
      · exact h.alone j k g g' hgj hgk hset hset'

theorem begun (h : ThreadsInv build s) {c : FortranCall} {pc : FortranPc}
    (hc : c.enter = some pc) :
    ThreadsInv build (s.setFrame i (some ⟨c, pc, c.pointees, s.settled, 0⟩)) := by
  obtain ⟨hok, hset⟩ : FortranFrame.Ok _ build s.memory ∧ _ := entered hc h.published_of_settled
  refine h.moved h.memory .refl hok h.once (fun j g _ hg hs => ?_) fun hs => ?_
  · obtain ⟨hclaimed, hpublished⟩ := h.setting j g hg hs
    exact ⟨hclaimed, hpublished, hset⟩
  · exact nomatch hset.symm.trans hs

/-- A call has made a step and goes on. -/
theorem goto (h : ThreadsInv build s) (hf : s.frames i = some f) {pc : FortranPc}
    {buffers : Bool → Bytes} (hok : StepOk build s.memory f (.goto pc buffers, m'))
    (hflag : FlagStep s.memory f (.goto pc buffers, m')) :
    ThreadsInv build ({ s with memory := m' }.setFrame i
      (some { f with pc, buffers, steps := f.steps + 1 })) := by
  have hframe := h.frames i f hf
  obtain ⟨hat, hrank⟩ := hok.move
  have hsteps := hframe.steps
  have hafter : f.after = true → m'.published = true := fun ha => hok.later.1 (hframe.after ha)
  refine h.moved hok.memory hok.later ⟨hat, hafter, by simp only []; omega⟩ ?_ ?_ ?_
  · cases hflag with
    | claim _ _ _ _ hpublished => rw [hpublished]; exact h.once
    | quiet _ _ _ hpublished => rw [hpublished]; exact h.once
  · intro j g hj hg hset
    obtain ⟨hclaimed, hpublished⟩ := h.setting j g hg hset
    cases hflag with
    | claim _ _ hfree _ _ => exact nomatch hfree.symm.trans hclaimed
    | quiet _ hquiet hc hp =>
        refine ⟨hc.trans hclaimed, hp.trans hpublished, ?_⟩
        cases hs : pc.setting with
        | false => rfl
        | true => exact absurd (h.alone j i g f hg hf hset (hquiet hs)) hj
  · intro hs
    cases hflag with
    | claim _ hpc hfree hc hp =>
        refine ⟨hc, hp.trans ?_⟩
        cases hpub : s.memory.published with
        | false => rfl
        | true =>
            obtain ⟨x, hx, -⟩ := h.memory.published hpub
            have hsome : s.memory.claimed = true := by
              rw [h.memory.claimed]
              exact Option.isSome_iff_exists.mpr ⟨x, hx⟩
            exact nomatch hfree.symm.trans hsome
    | quiet _ hquiet hc hp =>
        obtain ⟨hclaimed, hpublished⟩ := h.setting i f hf (hquiet hs)
        exact ⟨hc.trans hclaimed, hp.trans hpublished⟩

theorem ret (h : ThreadsInv build s) (hf : s.frames i = some f) {code : Int32} {isSet : Bool}
    {sizes : List Int32} (hok : StepOk build s.memory f (.ret code isSet sizes, m'))
    (hflag : FlagStep s.memory f (.ret code isSet sizes, m')) :
    ThreadsInv build ({ s with memory := m' }.returned i
      ⟨f.call, f.after, f.steps + 1, code, isSet, f.buffers, sizes⟩) := by
  have hother : ∀ j g, Function.update s.frames i none j = some g →
      j ≠ i ∧ s.frames j = some g := by
    intro j g hg
    rcases update_cases (P := fun o => o = some g) hg with ⟨-, hg⟩ | ⟨hj, hg⟩
    · cases hg
    · exact ⟨hj, hg⟩
  refine ⟨hok.memory, fun j g hg => ?_, fun e he => ?_, ?_, fun j g hg hset => ?_,
    fun j k g g' hg hg' => h.alone j k g g' (hother j g hg).2 (hother k g' hg').2⟩
  · have hj := h.frames j g (hother j g hg).2
    exact ⟨hj.at_.mono hok.later, fun ha => hok.later.1 (hj.after ha), hj.steps⟩
  · rcases List.mem_append.mp he with he | he
    · exact ⟨(h.log e he).1.mono hok.later, (h.log e he).2⟩
    · obtain rfl := List.mem_singleton.mp he
      have hsteps := (h.frames i f hf).steps
      have hpos := f.pc.rank_pos
      exact ⟨hok.move, by simp only []; omega⟩
  · rw [FortranThreads.returned_log, FortranThreads.returned_memory, List.countP_append,
      List.countP_singleton, h.once]
    cases hflag with
    | publish _ hpc hpublished hsets =>
        obtain ⟨size, logical, hcall⟩ := hsets
        have hbefore := (h.setting i f hf (by rw [hpc]; rfl)).2
        have hsucc : FortranReturn.succeeded
            ⟨f.call, f.after, f.steps + 1, 0, false, f.buffers, []⟩ = true := by
          simp [FortranReturn.succeeded, hcall]
        rw [hbefore, hsucc, hpublished]
        rfl
    | quiet _ hquiet _ hpublished =>
        have hsucc : FortranReturn.succeeded
            ⟨f.call, f.after, f.steps + 1, code, isSet, f.buffers, sizes⟩ = false := by
          cases hcall : f.call with
          | setBooleans size logical =>
              simpa [FortranReturn.succeeded] using hquiet size logical hcall
          | _ => rfl
        rw [hsucc, hpublished]
        rfl
  · obtain ⟨hj, hgj⟩ := hother j g hg
    obtain ⟨hclaimed, hpublished⟩ := h.setting j g hgj hset
    cases hflag with
    | publish _ hpc _ _ => exact absurd (h.alone j i g f hgj hf hset (by rw [hpc]; rfl)) hj
    | quiet _ _ hc hp => exact ⟨hc.trans hclaimed, hp.trans hpublished⟩

theorem step (h : ThreadsInv build s) {a : FortranThreadAct} (hs : s.step build a = some s') :
    ThreadsInv build s' := by
  cases a with
  | call i c =>
      rw [FortranThreads.step] at hs
      cases hf : s.frames i with
      | some f =>
          rw [hf] at hs
          cases hs
      | none =>
          rw [hf] at hs
          cases hs
          cases hc : c.enter with
          | none => exact h.refused hf hc
          | some pc => exact h.begun hc
  | tick i answer =>
      rw [FortranThreads.step, Option.map_eq_some_iff] at hs
      obtain ⟨f, hf, rfl⟩ := hs
      have hframe := h.frames i f hf
      have hok : StepOk build s.memory f (f.next build answer s.memory) :=
        next_ok h.memory hframe.after hframe.at_
      have hflag : FlagStep s.memory f (f.next build answer s.memory) := next_flags hframe.at_
      rw [FortranFrame.next] at hok hflag
      generalize fortranStep build f.call answer f.buffers s.memory f.pc = p at hok hflag
      obtain ⟨move, m'⟩ := p
      cases move with
      | goto pc buffers => exact h.goto hf hok hflag
      | ret code isSet sizes => exact h.ret hf hok hflag

end ThreadsInv

/-- What every run comes to: one set at most is successful; what answers are taken
from fits; each call that has returned is answered as it should be; and no call
makes more than 77 steps, whatever others do between them. -/
structure FortranAgrees (build : FortranBuild) (s : FortranThreads) : Prop where
  once : s.log.countP FortranReturn.succeeded ≤ 1
  fits : ∀ r x, s.memory.source build r = some x → x.fits = true
  answers : ∀ e ∈ s.log, e.Ok build s.memory
  steps : ∀ e ∈ s.log, e.steps ≤ 77
  waiting : ∀ i f, s.frames i = some f → f.steps < 77

theorem booleans_agree {run : List FortranThreadAct} {s : FortranThreads}
    (hrun : exec (FortranThreads.step build) .init run = some s) : FortranAgrees build s := by
  have hinv : ThreadsInv build s :=
    exec_keeps (fun _ _ _ h hs => h.step hs) .init hrun
  refine ⟨?_, hinv.memory.fits, fun e he => (hinv.log e he).1, fun e he => (hinv.log e he).2,
    fun i f hf => ?_⟩
  · rw [hinv.once]
    split <;> omega
  · have hsteps := (hinv.frames i f hf).steps
    have hpos := f.pc.rank_pos
    omega

/-- A compiler whose `LOGICAL` is one byte, and whose `.TRUE.` is not C's 1. -/
def byteBuild : FortranBuild :=
  ⟨true, false, -32766, ⟨1, fun l _ => if l then 255 else 0⟩, 4, 4⟩

def oneByte (b : UInt8) : Option Bytes := some fun _ => b

/-- One thread asks before anything is set, and is half way through the derived
bytes when another one sets the literals. A third one sets too late and asks. -/
def lateSet : List FortranThreadAct :=
  let tick i := FortranThreadAct.tick i ⟨0, 1, 0, 1⟩
  [.call 0 (.getBooleans 1 fun _ => oneByte 7)] ++ List.replicate 11 (tick 0) ++
    [.call 1 (.setBooleans 1 fun l => if l then oneByte 1 else oneByte 2)] ++
    List.replicate 3 (tick 1) ++ [.call 2 (.setBooleans 4 fun _ => oneByte 3), tick 2] ++
    List.replicate 3 (tick 1) ++ [.call 2 (.getBooleans 1 fun _ => oneByte 7)] ++
    List.replicate 8 (tick 2) ++ List.replicate 6 (tick 0)

theorem lateSet_agrees : ∃ s, exec (FortranThreads.step byteBuild) .init lateSet = some s ∧
    FortranAgrees byteBuild s ∧
    s.log.map (fun e => (e.code, e.isSet, e.buffers true 0)) =
      [(abiErrAbi, false, 3), (0, false, 1), (0, true, 1), (0, true, 255)] := by
  have hlog : (exec (FortranThreads.step byteBuild) .init lateSet).map
      (fun s => s.log.map fun e => (e.code, e.isSet, e.buffers true 0)) =
      some [(abiErrAbi, false, 3), (0, false, 1), (0, true, 1), (0, true, 255)] := by decide
  obtain ⟨s, hs, hl⟩ := Option.map_eq_some_iff.mp hlog
  exact ⟨s, hs, booleans_agree hs, hl⟩

end AbiWrapper.Ref
