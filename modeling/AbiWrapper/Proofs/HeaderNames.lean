import AbiWrapper.Ref.HeaderNames
import Mathlib.Data.List.Basic

/-!
# The renaming touches names only

Whatever the order of the alternatives, what `substitute` replaces are whole
words, and those that are names. The new names are no names of the old header and
are as different as those, so nothing that was told apart is mixed up: as long as
the header has none of the new names as a word, the old text can be had back from
the new one.
-/

namespace AbiWrapper.Ref

open AbiWrapper.Lib

variable {alnum : Char → Bool} {text name : Text} {names : List Text}

theorem name_isWord {c : Char} (h : isNameChar c = true) : isWordChar alnum c = true := by
  rw [isWordChar, h]
  rfl

/-- A name that may be renamed: one of the two prefixes and word characters. -/
def RenamedName (alnum : Char → Bool) (name : Text) : Prop :=
  (mpiPrefix.isPrefixOf name = true ∨ mpixPrefix.isPrefixOf name = true) ∧
    ∀ c ∈ name, isWordChar alnum c = true

instance : Decidable (RenamedName alnum name) :=
  decidable_of_iff ((mpiPrefix.isPrefixOf name = true ∨ mpixPrefix.isPrefixOf name = true) ∧
    name.all (isWordChar alnum) = true) (by rw [RenamedName, List.all_eq_true])

theorem forall_of_all {P : Char → Prop} [DecidablePred P]
    (h : text.all (fun c => decide (P c)) = true) : ∀ c ∈ text, P c :=
  fun c hc => of_decide_eq_true (List.all_eq_true.mp h c hc)

/-- A word that looks like a new name. -/
def LooksNew (w : Text) : Prop :=
  mpiabiPrefix.isPrefixOf w = true ∨ mpiabixPrefix.isPrefixOf w = true

theorem rename_cases {new : Text} (h : rename name = some new) :
    ∃ tail, name = mpixPrefix ++ tail ∧ new = mpiabixPrefix ++ tail ∨
      name = mpiPrefix ++ tail ∧ new = mpiabiPrefix ++ tail := by
  rw [rename] at h
  split at h
  · next hx =>
      obtain ⟨tail, rfl⟩ := List.isPrefixOf_iff_prefix.mp hx
      rw [List.drop_left] at h
      exact ⟨tail, .inl ⟨rfl, (Option.some.inj h).symm⟩⟩
  · split at h
    · next hm =>
        obtain ⟨tail, rfl⟩ := List.isPrefixOf_iff_prefix.mp hm
        rw [List.drop_left] at h
        exact ⟨tail, .inr ⟨rfl, (Option.some.inj h).symm⟩⟩
    · cases h

theorem rename_inj {name' new : Text} (h : rename name = some new)
    (h' : rename name' = some new) : name = name' := by
  obtain ⟨tail, ⟨rfl, rfl⟩ | ⟨rfl, rfl⟩⟩ := rename_cases h
  · obtain ⟨tail', ⟨rfl, he⟩ | ⟨rfl, he⟩⟩ := rename_cases h'
    · rw [List.append_cancel_left he]
    · cases he
  · obtain ⟨tail', ⟨rfl, he⟩ | ⟨rfl, he⟩⟩ := rename_cases h'
    · cases he
    · rw [List.append_cancel_left he]

theorem rename_looksNew {new : Text} (h : rename name = some new) : LooksNew new := by
  obtain ⟨tail, ⟨-, rfl⟩ | ⟨-, rfl⟩⟩ := rename_cases h
  · exact .inr (List.isPrefixOf_iff_prefix.mpr (List.prefix_append _ _))
  · exact .inl (List.isPrefixOf_iff_prefix.mpr (List.prefix_append _ _))

/-- A new name is no old one. -/
theorem rename_looksNew_none (h : LooksNew name) : rename name = none := by
  rcases h with h | h
  · obtain ⟨tail, rfl⟩ := List.isPrefixOf_iff_prefix.mp h
    rfl
  · obtain ⟨tail, rfl⟩ := List.isPrefixOf_iff_prefix.mp h
    rfl

theorem rename_isSome (h : RenamedName alnum name) : ∃ new, rename name = some new := by
  rw [rename]
  split
  · exact ⟨_, rfl⟩
  · next hx =>
      rw [if_pos (h.1.resolve_right hx)]
      exact ⟨_, rfl⟩

theorem renamedName_ne_nil (h : RenamedName alnum name) : name ≠ [] := by
  rintro rfl
  rcases h.1 with h | h <;> cases h

/-- What the whole pass does to a word. -/
def renamed (names : List Text) (w : Text) : Text :=
  if w ∈ names then (rename w).getD w else w

/-- And the pass with the map the other way. -/
def renamedBack (names : List Text) (w : Text) : Text :=
  (names.find? fun n => rename n = some w).getD w

theorem rename_keeps {w new : Text} (h : rename w = some new)
    (hw : ∀ c ∈ w, isWordChar alnum c = true) :
    (∀ c ∈ new, isWordChar alnum c = true) ∧ new ≠ [] := by
  obtain ⟨tail, ⟨rfl, rfl⟩ | ⟨rfl, rfl⟩⟩ := rename_cases h
  · refine ⟨fun c hc => ?_, nofun⟩
    rcases List.mem_append.mp hc with hc | hc
    · exact name_isWord (List.all_eq_true.mp (by decide : mpiabixPrefix.all isNameChar = true) c hc)
    · exact hw c (List.mem_append_right _ hc)
  · refine ⟨fun c hc => ?_, nofun⟩
    rcases List.mem_append.mp hc with hc | hc
    · exact name_isWord (List.all_eq_true.mp (by decide : mpiabiPrefix.all isNameChar = true) c hc)
    · exact hw c (List.mem_append_right _ hc)

theorem renamed_keeps : KeepsWords (isWordChar alnum) (renamed names) := by
  intro w hw hne
  rw [renamed]
  split
  · cases h : rename w with
    | none => exact ⟨hw, hne⟩
    | some new => exact rename_keeps h hw
  · exact ⟨hw, hne⟩

/-! ## The pass over the header -/

theorem renameMap_eq (h : ∀ n ∈ names, ∃ new, rename n = some new) :
    ∃ map, renameMap names = some map ∧ map.map Prod.fst = names ∧
      ∀ n ∈ names, map.lookup n = rename n := by
  induction names with
  | nil => exact ⟨[], rfl, rfl, fun n hn => absurd hn List.not_mem_nil⟩
  | cons name names ih =>
      obtain ⟨new, hnew⟩ := h name List.mem_cons_self
      obtain ⟨map, hmap, hfst, hlookup⟩ := ih fun n hn => h n (List.mem_cons_of_mem _ hn)
      refine ⟨(name, new) :: map, ?_, ?_, fun n hn => ?_⟩
      · rw [renameMap, List.mapM_cons, hnew]
        rw [renameMap] at hmap
        rw [hmap]
        rfl
      · rw [List.map_cons, hfst]
      · rw [List.lookup_cons]
        split
        · next he =>
            rw [eq_of_beq he]
            exact hnew.symm
        · next hne =>
            refine hlookup n (List.mem_of_ne_of_mem (fun he => ?_) hn)
            rw [he] at hne
            simp at hne

theorem names_candidates (h : ∀ n ∈ names, RenamedName alnum n) :
    WordCandidates (isWordChar alnum)
      (fun rest => (byLength names).filter fun k => k.isPrefixOf rest)
      (fun w => decide (w ∈ names)) where
  begins {text k} hk := by
    obtain ⟨hmem, hpre⟩ := List.mem_filter.mp hk
    have hname := h k (List.mem_mergeSort.mp hmem)
    exact ⟨List.isPrefixOf_iff_prefix.mp hpre, renamedName_ne_nil hname, hname.2⟩
  whole {w text} _ _ _ := by
    rw [List.mem_filter, byLength, List.mem_mergeSort, decide_eq_true_eq, and_iff_left_iff_imp]
    exact fun _ => List.isPrefixOf_iff_prefix.mpr (List.prefix_append _ _)

theorem substitute_eq {map : List (Text × Text)} (h : ∀ n ∈ names, RenamedName alnum n)
    (hfst : map.map Prod.fst = names) (hlookup : ∀ n ∈ names, map.lookup n = rename n) :
    substitute alnum text map = mapWords (isWordChar alnum) (renamed names) text := by
  rw [substitute]
  split
  · next hempty =>
      have hnil : names = [] := by
        rw [← hfst, List.isEmpty_iff.mp hempty]
        rfl
      subst hnil
      exact mapWords_id.symm
  · rw [hfst]
    refine (names_candidates h).substituteWords_eq.trans (mapWords_congr fun w _ => ?_)
    rw [renamed]
    split
    · next hw =>
        have hw : w ∈ names := of_decide_eq_true hw
        rw [if_pos hw, hlookup w hw]
    · next hw => rw [if_neg fun hmem => hw (decide_eq_true hmem)]

/-- What the pass makes of a text: each word that is a name has become the new
name, nothing else is touched, no name is left, and if no word was one of the new
names the text can be had back. -/
structure Renaming (alnum : Char → Bool) (names : List Text) (text new : Text) : Prop where
  replaced : new = mapWords (isWordChar alnum) (renamed names) text
  wordwise : words (isWordChar alnum) new = (words (isWordChar alnum) text).map (renamed names)
  gone : ∀ w ∈ words (isWordChar alnum) new, w ∉ names
  back : (∀ w ∈ words (isWordChar alnum) text, ∀ n ∈ names, rename n ≠ some w) →
    mapWords (isWordChar alnum) (renamedBack names) new = text

theorem renamed_gone (h : ∀ n ∈ names, RenamedName alnum n) {w : Text} :
    renamed names w ∉ names := by
  rw [renamed]
  split
  · next hw =>
      obtain ⟨new, hnew⟩ := rename_isSome (h w hw)
      rw [hnew, Option.getD_some]
      intro hmem
      obtain ⟨new', hnew'⟩ := rename_isSome (h new hmem)
      exact nomatch (rename_looksNew_none (rename_looksNew hnew)).symm.trans hnew'
  · next hw => exact hw

theorem renamedBack_renamed {w : Text} (h : ∀ n ∈ names, rename n ≠ some w) :
    renamedBack names (renamed names w) = w := by
  have hstays : renamedBack names w = w := by
    rw [renamedBack, List.find?_eq_none.mpr fun n hn he => h n hn (of_decide_eq_true he)]
    rfl
  rw [renamed]
  split
  · next hw =>
      cases hr : rename w with
      | none => exact hstays
      | some new =>
          rw [Option.getD_some, renamedBack]
          cases hf : names.find? fun n => rename n = some new with
          | none => exact absurd (decide_eq_true hr) (List.find?_eq_none.mp hf w hw)
          | some n =>
              have hn := List.find?_some hf
              exact rename_inj (of_decide_eq_true hn) hr
  · exact hstays

theorem substitute_renames (h : ∀ n ∈ names, RenamedName alnum n) :
    ∃ map, renameMap names = some map ∧
      Renaming alnum names text (substitute alnum text map) := by
  obtain ⟨map, hmap, hfst, hlookup⟩ := renameMap_eq fun n hn => rename_isSome (h n hn)
  have htext : substitute alnum text map = mapWords (isWordChar alnum) (renamed names) text :=
    substitute_eq h hfst hlookup
  have hwords : words (isWordChar alnum) (substitute alnum text map) =
      (words (isWordChar alnum) text).map (renamed names) := by
    rw [htext]
    exact words_mapWords renamed_keeps
  refine ⟨map, hmap, htext, hwords, fun w hw => ?_, fun hold => ?_⟩
  · rw [hwords] at hw
    obtain ⟨v, -, rfl⟩ := List.mem_map.mp hw
    exact renamed_gone h
  · rw [htext, mapWords_mapWords renamed_keeps]
    exact (mapWords_congr fun w hw => renamedBack_renamed (hold w hw)).trans mapWords_id

/-- Names that begin alike, in a text with a word that only ends like one and one
that looks like a new name. -/
def overlapping : List Text :=
  ["MPI_Comm".toList, "MPI_Comm_c".toList, "MPIX_Comm".toList]

def overlappingText : Text := "MPI_Comm_c(MPI_Comm*, PMPI_Comm, MPIABI_Foo);".toList

theorem overlapping_renames :
    ∃ map, renameMap overlapping = some map ∧
      Renaming (fun _ => false) overlapping overlappingText
        (substitute (fun _ => false) overlappingText map) ∧
      mapWords (isWordChar fun _ => false) (renamedBack overlapping)
        "MPIABI_Comm_c(MPIABI_Comm*, PMPI_Comm, MPIABI_Foo);".toList = overlappingText := by
  have hnames : ∀ n ∈ overlapping, RenamedName (fun _ => false) n := by decide
  obtain ⟨map, hmap, h⟩ := @substitute_renames (fun _ => false) overlappingText _ hnames
  have hnew : mapWords (isWordChar fun _ => false) (renamed overlapping) overlappingText =
      "MPIABI_Comm_c(MPIABI_Comm*, PMPI_Comm, MPIABI_Foo);".toList := by decide
  refine ⟨map, hmap, h, ?_⟩
  rw [← hnew, ← h.replaced]
  exact h.back (by decide)

/-! ## The types of a prototype -/

/-- A word that looks like a name of the ABI. -/
def isMpiName (w : Text) : Bool :=
  match nameHead w with
  | none => false
  | some n => decide (n < w.length) && w.all isNameChar

/-- What may stand for `MPIX?_` in a text. -/
theorem nameHead_cases {n : Nat} (h : nameHead text = some n) :
    ∃ head tail, text = head ++ tail ∧ head.length = n ∧ head ≠ [] ∧
      (∀ c ∈ head, isNameChar c = true) ∧ ∀ tail', nameHead (head ++ tail') = some n := by
  rw [nameHead] at h
  split at h
  · next hx =>
      obtain ⟨tail, rfl⟩ := List.isPrefixOf_iff_prefix.mp hx
      obtain rfl := Option.some.inj h
      exact ⟨mpixPrefix, tail, rfl, rfl, nofun, forall_of_all (by decide), fun _ => rfl⟩
  · split at h
    · next hm =>
        obtain ⟨tail, rfl⟩ := List.isPrefixOf_iff_prefix.mp hm
        obtain rfl := Option.some.inj h
        exact ⟨mpiPrefix, tail, rfl, rfl, nofun, forall_of_all (by decide), fun _ => rfl⟩
    · cases h

theorem takeWhile_all {p : Char → Bool} {w rest : Text} (hw : ∀ c ∈ w, p c = true)
    (hrest : ∀ c tail, rest = c :: tail → p c = false) : (w ++ rest).takeWhile p = w := by
  rw [List.takeWhile_append_of_pos hw]
  cases rest with
  | nil => rw [List.takeWhile_nil, List.append_nil]
  | cons c tail =>
      rw [List.takeWhile_cons_of_neg (by rw [hrest c tail rfl]; exact Bool.false_ne_true),
        List.append_nil]

/-- Whatever is tried at the beginning of a text is such a word. -/
theorem candidate_isMpiName {k : Text} (hk : k ∈ nameCandidates text) :
    k <+: text ∧ isMpiName k = true := by
  rw [nameCandidates] at hk
  cases hn : nameHead text with
  | none =>
      rw [hn] at hk
      cases hk
  | some n =>
      rw [hn] at hk
      obtain ⟨i, hi, rfl⟩ := List.mem_map.mp hk
      obtain ⟨head, tail, rfl, rfl, -, hhead, hany⟩ := nameHead_cases hn
      rw [List.drop_left, List.mem_reverse, List.mem_range] at hi
      refine ⟨List.take_prefix _ _, ?_⟩
      rw [Nat.add_assoc, List.take_length_add_append]
      have hpre : tail.take (i + 1) <+: tail.takeWhile isNameChar :=
        List.prefix_of_prefix_length_le (List.take_prefix _ _) (List.takeWhile_prefix _)
          (by rw [List.length_take]; omega)
      have hlong : 0 < (tail.take (i + 1)).length := by
        have hle := (List.takeWhile_prefix isNameChar (l := tail)).length_le
        rw [List.length_take]
        omega
      rw [isMpiName, hany]
      simp only [Bool.and_eq_true, decide_eq_true_eq, List.all_eq_true]
      refine ⟨by rw [List.length_append]; omega, fun c hc => ?_⟩
      rcases List.mem_append.mp hc with hc | hc
      · exact hhead c hc
      · exact List.all_eq_true.mp List.all_takeWhile c (hpre.subset hc)

theorem isMpiName_chars {w : Text} (h : isMpiName w = true) :
    w ≠ [] ∧ ∀ c ∈ w, isNameChar c = true := by
  rw [isMpiName] at h
  cases hn : nameHead w with
  | none =>
      rw [hn] at h
      cases h
  | some n =>
      rw [hn] at h
      simp only [Bool.and_eq_true, decide_eq_true_eq, List.all_eq_true] at h
      exact ⟨List.ne_nil_of_length_pos (by omega), h.2⟩

/-- Such a word is tried where the text has no more of it. -/
theorem isMpiName_candidate {w rest : Text} (h : isMpiName w = true)
    (hstop : ∀ c tail, rest = c :: tail → isNameChar c = false) :
    w ∈ nameCandidates (w ++ rest) := by
  rw [isMpiName] at h
  cases hn : nameHead w with
  | none =>
      rw [hn] at h
      cases h
  | some n =>
      rw [hn] at h
      simp only [Bool.and_eq_true, decide_eq_true_eq, List.all_eq_true] at h
      obtain ⟨hlt, hall⟩ := h
      obtain ⟨head, tail, rfl, rfl, -, -, hany⟩ := nameHead_cases hn
      have hrun : (tail ++ rest).takeWhile isNameChar = tail :=
        takeWhile_all (fun c hc => hall c (List.mem_append_right _ hc)) hstop
      rw [List.length_append] at hlt
      rw [nameCandidates, List.append_assoc, hany]
      refine List.mem_map.mpr ⟨tail.length - 1, ?_, ?_⟩
      · rw [List.drop_left, hrun, List.mem_reverse, List.mem_range]
        omega
      · have hi : head.length + (tail.length - 1) + 1 = head.length + tail.length := by omega
        rw [hi, List.take_length_add_append, List.take_left]

theorem mpiName_candidates : WordCandidates (isWordChar alnum) nameCandidates isMpiName where
  begins hk := by
    obtain ⟨hpre, hname⟩ := candidate_isMpiName hk
    obtain ⟨hne, hchars⟩ := isMpiName_chars hname
    exact ⟨hpre, hne, fun c hc => name_isWord (hchars c hc)⟩
  whole {w text} _ _ hend := by
    refine ⟨fun hk => (candidate_isMpiName hk).2, fun hname => isMpiName_candidate hname ?_⟩
    intro c tail ht
    cases hc : isNameChar c with
    | false => rfl
    | true => exact nomatch (hend c tail ht).symm.trans (name_isWord hc)

theorem abiType_eq : abiType alnum text =
    mapWords (isWordChar alnum) (fun w => if isMpiName w then (rename w).getD w else w) text :=
  mpiName_candidates.substituteWords_eq

end AbiWrapper.Ref
