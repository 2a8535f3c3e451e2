import Mathlib.Data.List.Basic

/-!
# Words of a text

Some characters make words, and a word is a run of them that cannot be made
longer. `mapWords` puts every word through a function and leaves the rest of the
text alone.

A regular expression with a word boundary on either side finds its matches
otherwise: it tries every place of the text, and at each some candidates in an
order. `substituteWords` is that search. Where the candidates are made of word
characters only, neither the places in the middle of a word nor the order among
the candidates at its beginning matter: what is replaced is a word that is one
of its own candidates.
-/

namespace AbiWrapper.Lib

variable {α : Type} (isWord : α → Bool)

/-! ## Word by word -/

/-- What is put for the word that has been read so far. -/
def putWord (f : List α → List α) (word : List α) : List α := if word.isEmpty then [] else f word

/-- `word` is what has been read of the word that the text goes on with. -/
def mapWordsFrom (f : List α → List α) : List α → List α → List α
  | word, [] => putWord f word
  | word, c :: text =>
      if isWord c then mapWordsFrom f (word ++ [c]) text
      else putWord f word ++ c :: mapWordsFrom f [] text

def mapWords (f : List α → List α) (text : List α) : List α := mapWordsFrom isWord f [] text

variable {isWord} {f g : List α → List α} {word text rest : List α}

theorem mapWordsFrom_append (h : ∀ c ∈ word, isWord c = true) {pre : List α} :
    mapWordsFrom isWord f pre (word ++ text) = mapWordsFrom isWord f (pre ++ word) text := by
  induction word generalizing pre with
  | nil => rw [List.nil_append, List.append_nil]
  | cons c word ih =>
      rw [List.cons_append, mapWordsFrom, if_pos (h c List.mem_cons_self),
        ih fun d hd => h d (List.mem_cons_of_mem _ hd), List.append_assoc, List.singleton_append]

/-- A text that goes on with no word. -/
def Ended (isWord : α → Bool) (text : List α) : Prop :=
  ∀ c rest, text = c :: rest → isWord c = false

theorem Ended.nil : Ended isWord ([] : List α) := nofun

theorem ended_dropWhile : Ended isWord (text.dropWhile isWord) := by
  intro c rest h
  have hhead := List.head?_dropWhile_not isWord text
  rw [h] at hhead
  simpa using hhead

theorem mapWordsFrom_ended (h : Ended isWord text) {pre : List α} :
    mapWordsFrom isWord f pre text = putWord f pre ++ mapWords isWord f text := by
  cases text with
  | nil => simp [mapWords, mapWordsFrom, putWord]
  | cons c text =>
      have hc := h c text rfl
      simp [mapWords, mapWordsFrom, hc, putWord]

/-- The word a text begins with. -/
theorem mapWords_word (hw : ∀ c ∈ word, isWord c = true) (hne : word ≠ []) (h : Ended isWord text) :
    mapWords isWord f (word ++ text) = f word ++ mapWords isWord f text := by
  rw [mapWords, mapWordsFrom_append hw, List.nil_append, mapWordsFrom_ended h, putWord,
    List.isEmpty_eq_false_iff.mpr hne, if_neg Bool.false_ne_true]

theorem mapWords_other {c : α} (hc : isWord c = false) :
    mapWords isWord f (c :: text) = c :: mapWords isWord f text := by
  rw [mapWords, mapWordsFrom, if_neg (by rw [hc]; exact Bool.false_ne_true), putWord,
    List.isEmpty_nil, if_pos rfl, List.nil_append, mapWords]

variable (isWord) in
theorem words_induction {P : List α → Prop} (nil : P [])
    (other : ∀ c text, isWord c = false → P text → P (c :: text))
    (word : ∀ w text, (∀ c ∈ w, isWord c = true) → w ≠ [] → Ended isWord text → P text →
      P (w ++ text)) (text : List α) : P text := by
  induction hn : text.length using Nat.strongRecOn generalizing text with
  | _ n ih =>
      cases text with
      | nil => exact nil
      | cons c text =>
          by_cases hc : isWord c = true
          · have hsplit := List.takeWhile_append_dropWhile (p := isWord) (l := c :: text)
            rw [← hsplit]
            have hne : (c :: text).takeWhile isWord ≠ [] := by
              rw [List.takeWhile_cons_of_pos hc]
              exact List.cons_ne_nil _ _
            refine word _ _ (List.all_eq_true.mp List.all_takeWhile) hne ended_dropWhile
              (ih _ ?_ _ rfl)
            have hlen := congrArg List.length hsplit
            rw [List.length_append] at hlen
            have hpos := List.length_pos_iff.mpr hne
            omega
          · have hc : isWord c = false := by simpa using hc
            exact other c text hc (ih text.length (by rw [← hn]; exact Nat.lt_succ_self _) text rfl)

/-- The word that has been read so far, if it is one. -/
def asWord (word : List α) : List (List α) := if word.isEmpty then [] else [word]

def wordsFrom (isWord : α → Bool) : List α → List α → List (List α)
  | word, [] => asWord word
  | word, c :: text =>
      if isWord c then wordsFrom isWord (word ++ [c]) text
      else asWord word ++ wordsFrom isWord [] text

/-- The words of a text, from its beginning to its end. -/
def words (isWord : α → Bool) (text : List α) : List (List α) := wordsFrom isWord [] text

theorem wordsFrom_append (h : ∀ c ∈ word, isWord c = true) {pre : List α} :
    wordsFrom isWord pre (word ++ text) = wordsFrom isWord (pre ++ word) text := by
  induction word generalizing pre with
  | nil => rw [List.nil_append, List.append_nil]
  | cons c word ih =>
      rw [List.cons_append, wordsFrom, if_pos (h c List.mem_cons_self),
        ih fun d hd => h d (List.mem_cons_of_mem _ hd), List.append_assoc, List.singleton_append]

theorem words_word (hw : ∀ c ∈ word, isWord c = true) (hne : word ≠ []) (h : Ended isWord text) :
    words isWord (word ++ text) = word :: words isWord text := by
  have hword : asWord word = [word] := if_neg (by simpa using hne)
  rw [words, wordsFrom_append hw, List.nil_append]
  cases text with
  | nil => rw [wordsFrom, hword, words, wordsFrom, asWord, List.isEmpty_nil, if_pos rfl]
  | cons c text =>
      have hc : ¬isWord c = true := by rw [h c text rfl]; exact Bool.false_ne_true
      rw [wordsFrom, if_neg hc, hword, words, wordsFrom, if_neg hc, asWord, List.isEmpty_nil,
        if_pos rfl]
      rfl

theorem words_other {c : α} (hc : isWord c = false) :
    words isWord (c :: text) = words isWord text := by
  rw [words, wordsFrom, if_neg (by rw [hc]; exact Bool.false_ne_true), asWord, List.isEmpty_nil,
    if_pos rfl]
  rfl

theorem mapWords_congr (h : ∀ w ∈ words isWord text, f w = g w) :
    mapWords isWord f text = mapWords isWord g text := by
  induction text using words_induction isWord with
  | nil => rfl
  | other c text hc ih =>
      rw [words_other hc] at h
      rw [mapWords_other hc, mapWords_other hc, ih h]
  | word w text hw hne hend ih =>
      rw [words_word hw hne hend] at h
      rw [mapWords_word hw hne hend, mapWords_word hw hne hend, h w List.mem_cons_self,
        ih fun v hv => h v (List.mem_cons_of_mem _ hv)]

/-- `f` makes words of words. -/
def KeepsWords (isWord : α → Bool) (f : List α → List α) : Prop :=
  ∀ w, (∀ c ∈ w, isWord c = true) → w ≠ [] → (∀ c ∈ f w, isWord c = true) ∧ f w ≠ []

theorem Ended.mapWords (h : Ended isWord text) : Ended isWord (mapWords isWord f text) := by
  cases text with
  | nil => exact .nil
  | cons c text =>
      have hc := h c text rfl
      rw [mapWords_other hc]
      rintro d rest ⟨⟩
      exact hc

theorem words_mapWords (hf : KeepsWords isWord f) :
    words isWord (mapWords isWord f text) = (words isWord text).map f := by
  induction text using words_induction isWord with
  | nil => rfl
  | other c text hc ih => rw [mapWords_other hc, words_other hc, words_other hc, ih]
  | word w text hw hne hend ih =>
      obtain ⟨hfw, hfne⟩ := hf w hw hne
      rw [mapWords_word hw hne hend, words_word hfw hfne hend.mapWords,
        words_word hw hne hend, ih, List.map_cons]

theorem mapWords_mapWords (hf : KeepsWords isWord f) :
    mapWords isWord g (mapWords isWord f text) = mapWords isWord (fun w => g (f w)) text := by
  induction text using words_induction isWord with
  | nil => rfl
  | other c text hc ih => rw [mapWords_other hc, mapWords_other hc, mapWords_other hc, ih]
  | word w text hw hne hend ih =>
      obtain ⟨hfw, hfne⟩ := hf w hw hne
      rw [mapWords_word hw hne hend, mapWords_word hfw hfne hend.mapWords,
        mapWords_word hw hne hend, ih]

theorem mapWords_id : mapWords isWord id text = text := by
  induction text using words_induction isWord with
  | nil => rfl
  | other c text hc ih => rw [mapWords_other hc, ih]
  | word w text hw hne hend ih => rw [mapWords_word hw hne hend, ih, id]

/-- What every character of the text has, and what `f` keeps. -/
theorem mapWords_forall {P : α → Prop} (hf : ∀ w, (∀ c ∈ w, P c) → ∀ c ∈ f w, P c)
    (h : ∀ c ∈ text, P c) : ∀ c ∈ mapWords isWord f text, P c := by
  induction text using words_induction isWord with
  | nil => exact h
  | other c text hc ih =>
      rw [mapWords_other hc]
      intro d hd
      rcases List.mem_cons.mp hd with rfl | hd
      · exact h d List.mem_cons_self
      · exact ih (fun e he => h e (List.mem_cons_of_mem _ he)) d hd
  | word w text hw hne hend ih =>
      rw [mapWords_word hw hne hend]
      intro d hd
      rcases List.mem_append.mp hd with hd | hd
      · exact hf w (fun e he => h e (List.mem_append_left _ he)) d hd
      · exact ih (fun e he => h e (List.mem_append_right _ he)) d hd

/-! ## The search of a regular expression -/

variable (isWord) in
/-- A word begins or ends between a character, which is one of a word or not, and
the text behind it. -/
def wordBoundary (before : Bool) (text : List α) : Bool := before != text.head?.any isWord

variable (isWord) in
/-- The candidate that is taken at the beginning of a text: the first one with a
boundary behind it. -/
def takenWord (candidates : List α → List (List α)) (text : List α) : Option (List α) :=
  (candidates text).find? fun k => wordBoundary isWord (k.getLast?.any isWord) (text.drop k.length)

variable (isWord) in
/-- `re.sub` of `\b(candidates)\b`, where `before` says whether the text stands
behind a character of a word. -/
def substituteFrom (candidates : List α → List (List α)) (f : List α → List α) :
    Nat → Bool → List α → List α
  | 0, _, text => text
  | _ + 1, _, [] => []
  | n + 1, before, c :: text =>
      match if wordBoundary isWord before (c :: text) then takenWord isWord candidates (c :: text)
        else none with
      | some k => f k ++ substituteFrom candidates f n (k.getLast?.any isWord)
          ((c :: text).drop k.length)
      | none => c :: substituteFrom candidates f n (isWord c) text

variable (isWord) in
def substituteWords (candidates : List α → List (List α)) (f : List α → List α) (text : List α) :
    List α := substituteFrom isWord candidates f text.length false text

/-- The candidates are beginnings of words, and where a word begins `whole` says
whether it is one itself. -/
structure WordCandidates (isWord : α → Bool) (candidates : List α → List (List α))
    (whole : List α → Bool) : Prop where
  begins : ∀ {text k}, k ∈ candidates text → k <+: text ∧ k ≠ [] ∧ ∀ c ∈ k, isWord c = true
  whole : ∀ {w text}, (∀ c ∈ w, isWord c = true) → w ≠ [] → Ended isWord text →
    (w ∈ candidates (w ++ text) ↔ whole w = true)

namespace WordCandidates

variable {candidates : List α → List (List α)} {whole : List α → Bool}

/-- No candidate begins where no word does. -/
theorem other (h : WordCandidates isWord candidates whole) {c : α} (hc : isWord c = false) :
    takenWord isWord candidates (c :: text) = none := by
  rw [takenWord, List.find?_eq_none]
  intro k hk
  obtain ⟨hpre, hne, hword⟩ := h.begins hk
  cases k with
  | nil => exact absurd rfl hne
  | cons d k =>
      obtain ⟨rfl, -⟩ := List.cons_prefix_cons.mp hpre
      exact nomatch hc.symm.trans (hword d List.mem_cons_self)

/-- Where a word begins, only the whole word has a boundary behind it. -/
theorem taken (h : WordCandidates isWord candidates whole) (hw : ∀ c ∈ word, isWord c = true)
    (hne : word ≠ []) (hend : Ended isWord text) :
    takenWord isWord candidates (word ++ text) = if whole word then some word else none := by
  have hlast : ∀ k : List α, k ≠ [] → (∀ c ∈ k, isWord c = true) →
      k.getLast?.any isWord = true := by
    intro k hk hword
    rw [List.getLast?_eq_some_getLast hk, Option.any_some]
    exact hword _ (List.getLast_mem hk)
  have hiff : ∀ k ∈ candidates (word ++ text),
      (wordBoundary isWord (k.getLast?.any isWord) ((word ++ text).drop k.length) = true ↔
        k = word) := by
    intro k hk
    obtain ⟨hpre, hkne, hkword⟩ := h.begins hk
    rw [wordBoundary, hlast k hkne hkword]
    constructor
    · intro hb
      have hnext : ((word ++ text).drop k.length).head?.any isWord = false := by simpa using hb
      rcases List.prefix_or_prefix_of_prefix hpre (List.prefix_append word text) with hp | hp
      · obtain ⟨post, rfl⟩ := hp
        cases post with
        | nil => rw [List.append_nil]
        | cons d post =>
            rw [List.append_assoc, List.drop_left, List.cons_append, List.head?_cons,
              Option.any_some] at hnext
            exact nomatch hnext.symm.trans
              (hw d (List.mem_append_right _ List.mem_cons_self))
      · obtain ⟨post, rfl⟩ := hp
        cases post with
        | nil => rw [List.append_nil]
        | cons d post =>
            obtain ⟨tail, htail⟩ := hpre
            rw [List.append_assoc] at htail
            have htext : text = d :: (post ++ tail) := (List.append_cancel_left htail).symm
            exact nomatch (hend d _ htext).symm.trans
              (hkword d (List.mem_append_right _ List.mem_cons_self))
    · rintro rfl
      rw [List.drop_left]
      cases text with
      | nil => rfl
      | cons d text =>
          rw [List.head?_cons, Option.any_some, hend d text rfl]
          rfl
  rw [takenWord]
  cases hwhole : whole word with
  | true =>
      rw [if_pos rfl]
      have hmem := (h.whole hw hne hend).mpr hwhole
      cases hfind : (candidates (word ++ text)).find? fun k =>
          wordBoundary isWord (k.getLast?.any isWord) ((word ++ text).drop k.length) with
      | none => exact absurd ((hiff word hmem).mpr rfl) (List.find?_eq_none.mp hfind word hmem)
      | some k =>
          have hk := List.mem_of_find?_eq_some hfind
          have hb := List.find?_some (p := fun k : List α =>
            wordBoundary isWord (k.getLast?.any isWord) ((word ++ text).drop k.length)) hfind
          rw [(hiff k hk).mp hb]
  | false =>
      rw [if_neg Bool.false_ne_true, List.find?_eq_none]
      intro k hk hb
      rw [(hiff k hk).mp hb] at hk
      exact nomatch hwhole.symm.trans ((h.whole hw hne hend).mp hk)

/-- In the middle of a word nothing is replaced. -/
theorem middle (hw : ∀ c ∈ word, isWord c = true) {n : Nat} :
    substituteFrom isWord candidates f (word.length + n) true (word ++ text) =
      word ++ substituteFrom isWord candidates f n true text := by
  induction word with
  | nil => rw [List.length_nil, Nat.zero_add, List.nil_append, List.nil_append]
  | cons c word ih =>
      have hc := hw c List.mem_cons_self
      have hb : wordBoundary isWord true (c :: (word ++ text)) = false := by
        rw [wordBoundary, List.head?_cons, Option.any_some, hc]
        rfl
      have hn : (c :: word).length + n = (word.length + n) + 1 := by
        rw [List.length_cons]
        omega
      rw [List.cons_append, hn, substituteFrom, hb, if_neg Bool.false_ne_true, hc,
        ih fun d hd => hw d (List.mem_cons_of_mem _ hd)]
      rfl

theorem substituteFrom_eq (h : WordCandidates isWord candidates whole) {n : Nat} {before : Bool}
    (hn : text.length ≤ n) (hb : before = true → Ended isWord text) :
    substituteFrom isWord candidates f n before text =
      mapWords isWord (fun w => if whole w then f w else w) text := by
  induction text using words_induction isWord generalizing n before with
  | nil => cases n <;> rfl
  | other c text hc ih =>
      obtain ⟨n, rfl⟩ : ∃ k, n = k + 1 := ⟨n - 1, by rw [List.length_cons] at hn; omega⟩
      have hlen : text.length ≤ n := by
        rw [List.length_cons] at hn
        omega
      have hrest : substituteFrom isWord candidates f n false text =
          mapWords isWord (fun w => if whole w then f w else w) text :=
        ih hlen fun hb => by cases hb
      rw [substituteFrom, h.other hc, ite_self, mapWords_other hc, hc, hrest]
  | word w text hw hne hend ih =>
      have hlen : w.length + text.length ≤ n := by rwa [List.length_append] at hn
      cases w with
      | nil => exact absurd rfl hne
      | cons c w =>
          have hc := hw c List.mem_cons_self
          have hbefore : before = false := by
            cases before with
            | false => rfl
            | true => exact nomatch (hb rfl c _ rfl).symm.trans hc
          subst hbefore
          obtain ⟨n, rfl⟩ : ∃ k, n = k + 1 := ⟨n - 1, by rw [List.length_cons] at hlen; omega⟩
          have hbound : wordBoundary isWord false ((c :: w) ++ text) = true := by
            rw [wordBoundary, List.cons_append, List.head?_cons, Option.any_some, hc]
            rfl
          have htaken := h.taken hw hne hend
          rw [mapWords_word hw hne hend, List.cons_append, substituteFrom, ← List.cons_append,
            hbound, if_pos rfl, htaken]
          rw [List.length_cons] at hlen
          cases whole (c :: w) with
          | true =>
              have hlast : (c :: w).getLast?.any isWord = true := by
                rw [List.getLast?_eq_some_getLast hne, Option.any_some]
                exact hw _ (List.getLast_mem hne)
              simp only [if_true]
              rw [hlast, List.drop_left, ih (by omega) fun _ => hend]
          | false =>
              obtain ⟨k, rfl⟩ : ∃ k, n = w.length + k := ⟨n - w.length, by omega⟩
              simp only [Bool.false_eq_true, if_false]
              rw [hc, middle fun d hd => hw d (List.mem_cons_of_mem _ hd),
                ih (by omega) fun _ => hend]
              rfl

theorem substituteWords_eq (h : WordCandidates isWord candidates whole) :
    substituteWords isWord candidates f text =
      mapWords isWord (fun w => if whole w then f w else w) text :=
  h.substituteFrom_eq (Nat.le_refl _) fun hb => by cases hb

end WordCandidates

end AbiWrapper.Lib
