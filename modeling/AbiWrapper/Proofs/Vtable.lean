import AbiWrapper.Ref.Vtable
import AbiWrapper.Proofs.HeaderNames

/-!
# What the layout hash is taken of

The declarations of the slots are wrapped at 79 columns, each in its own way, and
the hash sees nothing of that: what it is taken of is the text of one slot after
the other, without white space (`slotListText_vtable`). From this text the slots
can be read again, each with its name and its types (`readSlots_slotText`), so two
halves that agree about it agree about every slot at every place.

That leaves the hash, which is 32 bits of a long text. Of two different texts it
is not the same where all that differs are two bytes next to each other.
-/

namespace AbiWrapper.Ref

open AbiWrapper.Lib

variable {alnum : Char → Bool} {text text' : Text} {H : AbiHeader} {ep : AbiEntryPoint}

/-! ## White space -/

theorem nil_intercalate {texts : List Text} : ([] : Text).intercalate texts = texts.flatten := by
  induction texts with
  | nil => rfl
  | cons a texts ih =>
      cases texts with
      | nil => simp
      | cons b texts =>
          rw [List.intercalate_cons_cons, ih, List.append_nil]
          rfl

theorem squash_append : squash (text ++ text') = squash text ++ squash text' :=
  List.filter_append ..

theorem squash_spaces (h : ∀ c ∈ text, isSpace c = true) : squash text = [] := by
  rw [squash, List.filter_eq_nil_iff]
  intro c hc
  rw [h c hc]
  exact Bool.false_ne_true

theorem squash_pad {n : Nat} : squash (List.replicate n ' ') = [] :=
  squash_spaces fun c hc => by rw [List.eq_of_mem_replicate hc]; decide

theorem squash_rstrip : squash (rstrip text) = squash text := by
  have hsplit : text = text.rdropWhile isSpace ++ text.rtakeWhile isSpace :=
    (List.rdropWhile_append_rtakeWhile ..).symm
  have hspace : squash (text.rtakeWhile isSpace) = [] :=
    squash_spaces fun c hc => List.mem_rtakeWhile_imp hc
  conv_rhs => rw [hsplit, squash_append, hspace, List.append_nil]
  rfl

theorem squash_intercalate {sep : Text} {texts : List Text} :
    squash (sep.intercalate texts) = (squash sep).intercalate (texts.map squash) := by
  induction texts with
  | nil => rfl
  | cons a texts ih =>
      cases texts with
      | nil => simp
      | cons b texts =>
          rw [List.intercalate_cons_cons, squash_append, squash_append, ih]
          exact List.intercalate_cons_cons.symm

theorem squash_piece {tail a : Text} {last : Bool} :
    squash (wrapPiece tail a last) = squash a ++ if last then ')' :: squash tail else [','] := by
  rw [wrapPiece, squash_append]
  cases last with
  | false => rfl
  | true => rfl

theorem squash_gap {last : Bool} : squash (wrapGap last) = [] := by
  cases last <;> decide

/-- A line that is begun is a new one or goes on, and what it is filled with is the
same. -/
theorem wrapLines_squash {pad tail cur : Text} {args : List Text} (hpad : squash pad = [])
    (hne : args ≠ []) :
    (wrapLines pad tail cur args).flatMap squash =
      squash cur ++ ([','].intercalate (args.map squash) ++ ')' :: squash tail) := by
  induction args generalizing cur with
  | nil => exact absurd rfl hne
  | cons a args ih =>
      have hrest : ∀ line,
          (wrapLines pad tail (line ++ wrapPiece tail a args.isEmpty ++ wrapGap args.isEmpty)
            args).flatMap squash =
          squash line ++ ([','].intercalate ((a :: args).map squash) ++ ')' :: squash tail) := by
        intro line
        cases args with
        | nil =>
            rw [wrapLines, List.flatMap_singleton, squash_rstrip, squash_append, squash_append,
              squash_piece, squash_gap]
            simp
        | cons b args =>
            rw [ih (List.cons_ne_nil _ _), squash_append, squash_append, squash_piece, squash_gap]
            simp
      rw [wrapLines]
      split
      · rw [List.flatMap_cons, squash_rstrip, hrest, hpad, List.nil_append]
      · exact hrest cur

/-- Wherever the lines are broken, they have the same text. -/
theorem wrap_squash {before tail indent : Text} {args : List Text} {cont : Nat}
    (hindent : squash indent = []) (hne : args ≠ []) :
    (wrap before args tail indent cont).flatMap squash =
      squash before ++ '(' :: ([','].intercalate (args.map squash) ++ ')' :: squash tail) := by
  have hp : squash ['('] = ['('] := by decide
  have hq : squash [')'] = [')'] := by decide
  have hcomma : squash [',', ' '] = [','] := by decide
  rw [wrap]
  dsimp only
  split
  · rw [List.flatMap_singleton]
    simp only [squash_append, squash_intercalate, hcomma, hindent, hp, hq]
    simp
  · rw [wrapLines_squash squash_pad hne, squash_append, squash_append, hindent, hp]
    simp

/-! ## The characters of a declaration -/

theorem forall_append {P : Char → Prop} (h : ∀ c ∈ text, P c) (h' : ∀ c ∈ text', P c) :
    ∀ c ∈ text ++ text', P c :=
  fun c hc => (List.mem_append.mp hc).elim (h c) (h' c)

theorem rstrip_forall {P : Char → Prop} (h : ∀ c ∈ text, P c) : ∀ c ∈ rstrip text, P c :=
  fun c hc => h c ((List.rdropWhile_prefix isSpace text).subset hc)

theorem wrapLines_forall {P : Char → Prop} {pad tail cur : Text} {args : List Text}
    (hmarks : ∀ c ∈ [' ', '(', ')', ','], P c) (hpad : ∀ c ∈ pad, P c) (htail : ∀ c ∈ tail, P c)
    (hcur : ∀ c ∈ cur, P c) (hargs : ∀ a ∈ args, ∀ c ∈ a, P c) :
    ∀ l ∈ wrapLines pad tail cur args, ∀ c ∈ l, P c := by
  induction args generalizing cur with
  | nil =>
      intro l hl
      rw [wrapLines, List.mem_singleton] at hl
      rw [hl]
      exact rstrip_forall hcur
  | cons a args ih =>
      have hpiece : ∀ c ∈ wrapPiece tail a args.isEmpty, P c := by
        intro c hc
        rcases List.mem_append.mp hc with hc | hc
        · exact hargs a List.mem_cons_self c hc
        · split at hc
          · rcases List.mem_cons.mp hc with rfl | hc
            · exact hmarks _ (by decide)
            · exact htail c hc
          · rw [List.mem_singleton.mp hc]
            exact hmarks _ (by decide)
      have hgap : ∀ c ∈ wrapGap args.isEmpty, P c := by
        intro c hc
        rw [wrapGap] at hc
        split at hc
        · cases hc
        · rw [List.mem_singleton.mp hc]
          exact hmarks _ (by decide)
      have hline : ∀ line : Text, (∀ c ∈ line, P c) →
          ∀ c ∈ line ++ wrapPiece tail a args.isEmpty ++ wrapGap args.isEmpty, P c :=
        fun line hline => forall_append (forall_append hline hpiece) hgap
      have hargs' : ∀ b ∈ args, ∀ c ∈ b, P c := fun b hb => hargs b (List.mem_cons_of_mem _ hb)
      rw [wrapLines]
      split
      · intro l hl
        rcases List.mem_cons.mp hl with rfl | hl
        · exact rstrip_forall hcur
        · exact ih (hline pad hpad) hargs' l hl
      · exact ih (hline cur hcur) hargs'

theorem intercalate_forall {P : Char → Prop} {sep : Text} {texts : List Text}
    (hsep : ∀ c ∈ sep, P c) (h : ∀ t ∈ texts, ∀ c ∈ t, P c) : ∀ c ∈ sep.intercalate texts, P c := by
  induction texts with
  | nil => exact fun _ hc => nomatch hc
  | cons t texts ih =>
      have ih := ih fun u hu => h u (List.mem_cons_of_mem _ hu)
      have ht := h t List.mem_cons_self
      cases texts with
      | nil => rwa [List.intercalate_singleton]
      | cons u texts =>
          rw [List.intercalate_cons_cons]
          exact forall_append (forall_append ht hsep) ih

theorem wrap_forall {P : Char → Prop} {before tail indent : Text} {args : List Text} {cont : Nat}
    (hmarks : ∀ c ∈ [' ', '(', ')', ','], P c) (hbefore : ∀ c ∈ before, P c)
    (htail : ∀ c ∈ tail, P c) (hindent : ∀ c ∈ indent, P c) (hargs : ∀ a ∈ args, ∀ c ∈ a, P c) :
    ∀ l ∈ wrap before args tail indent cont, ∀ c ∈ l, P c := by
  have hmark : ∀ m : Text, m ⊆ [' ', '(', ')', ','] → ∀ c ∈ m, P c :=
    fun m hm c hc => hmarks c (hm hc)
  have hhead := forall_append (forall_append hindent hbefore) (hmark ['('] (by decide))
  rw [wrap]
  dsimp only
  split
  · intro l hl
    rw [List.mem_singleton.mp hl]
    exact forall_append (forall_append (forall_append hhead
      (intercalate_forall (hmark [',', ' '] (by decide)) hargs)) (hmark [')'] (by decide))) htail
  · refine wrapLines_forall hmarks (fun c hc => ?_) htail hhead hargs
    rw [List.eq_of_mem_replicate hc]
    exact hmarks _ (by decide)

theorem rename_forall {P : Char → Prop} {name new : Text} (hname : ∀ c, isNameChar c = true → P c)
    (h : ∀ c ∈ name, P c) (hr : rename name = some new) : ∀ c ∈ new, P c := by
  have hpre : ∀ p tail : Text, p.all isNameChar = true → (∀ c ∈ tail, P c) →
      ∀ c ∈ p ++ tail, P c :=
    fun p tail hp htail => forall_append (fun c hc => hname c (List.all_eq_true.mp hp c hc)) htail
  obtain ⟨tail, ⟨rfl, rfl⟩ | ⟨rfl, rfl⟩⟩ := rename_cases hr
  · exact hpre _ _ (by decide) fun c hc => h c (List.mem_append_right _ hc)
  · exact hpre _ _ (by decide) fun c hc => h c (List.mem_append_right _ hc)

/-- A type has the characters it had, and some of names. -/
theorem abiType_forall {P : Char → Prop} (hname : ∀ c, isNameChar c = true → P c)
    (h : ∀ c ∈ text, P c) : ∀ c ∈ abiType alnum text, P c := by
  rw [abiType_eq]
  refine mapWords_forall (fun w hw => ?_) h
  split
  · cases hr : rename w with
    | none => exact hw
    | some new => exact rename_forall hname hw hr
  · exact hw

/-- No character of a name is a mark or white space. -/
theorem name_not_mark {c : Char} (h : isNameChar c = true) :
    c ∉ [';', ',', '}', '/', '(', ')', '*'] := by
  intro hc
  simp only [List.mem_cons, List.not_mem_nil, or_false] at hc
  rcases hc with rfl | rfl | rfl | rfl | rfl | rfl | rfl <;> exact absurd h (by decide)

theorem name_not_space {c : Char} (h : isNameChar c = true) : isSpace c = false := by
  have hrange : 48 ≤ c.toNat ∧ c.toNat ≤ 122 := by
    unfold isNameChar Char.isAlphanum Char.isAlpha Char.isUpper Char.isLower Char.isDigit at h
    simp only [ge_iff_le, UInt32.le_iff_toNat_le, Bool.or_eq_true, decide_eq_true_eq,
      Bool.and_eq_true, beq_iff_eq] at h
    have hval : c.val.toNat = c.toNat := rfl
    have hupper : 'A'.val.toNat = 65 ∧ 'Z'.val.toNat = 90 := ⟨rfl, rfl⟩
    have hlower : 'a'.val.toNat = 97 ∧ 'z'.val.toNat = 122 := ⟨rfl, rfl⟩
    have hdigit : '0'.val.toNat = 48 ∧ '9'.val.toNat = 57 := ⟨rfl, rfl⟩
    rcases h with ((h | h) | h) | rfl
    · omega
    · omega
    · omega
    · decide
  simp only [isSpace, Bool.or_eq_false_iff, Bool.and_eq_false_iff, decide_eq_false_iff_not,
    beq_eq_false_iff_ne]
  omega

theorem cut_of_not_mem {a b : Char} {sub rest : Text} (hab : a ≠ b) (h : b ∉ text) :
    cut (a :: b :: sub) (text ++ a :: b :: (sub ++ rest)) = some (text, rest) := by
  induction text with
  | nil =>
      have hpre : (a :: b :: sub).isPrefixOf (a :: b :: (sub ++ rest)) = true :=
        List.isPrefixOf_iff_prefix.mpr (List.prefix_append (a :: b :: sub) rest)
      rw [List.nil_append, cut, if_pos hpre]
      have hdrop : ((a :: b :: sub) ++ rest).drop (a :: b :: sub).length = rest := List.drop_left
      exact congrArg (fun t => some ([], t)) hdrop
  | cons c text ih =>
      have hnot : ¬(a :: b :: sub).isPrefixOf (c :: (text ++ a :: b :: (sub ++ rest))) = true := by
        rw [List.isPrefixOf_iff_prefix, List.cons_prefix_cons]
        rintro ⟨-, hpre⟩
        cases text with
        | nil => exact hab (List.cons_prefix_cons.mp hpre).1.symm
        | cons d text =>
            exact h (List.mem_cons_of_mem _ (by
              rw [(List.cons_prefix_cons.mp hpre).1]
              exact List.mem_cons_self))
      rw [List.cons_append, cut, if_neg hnot, ih fun hb => h (List.mem_cons_of_mem _ hb)]
      rfl

theorem dropBlockComments_eq {n : Nat} (h : '/' ∉ text) : dropBlockComments n text = text := by
  induction text generalizing n with
  | nil => cases n <;> rfl
  | cons c text ih =>
      cases n with
      | zero => rfl
      | succ n =>
          have hc : ¬['/', '*'].isPrefixOf (c :: text) = true := by
            rw [List.isPrefixOf_iff_prefix, List.cons_prefix_cons]
            rintro ⟨rfl, -⟩
            exact h List.mem_cons_self
          rw [dropBlockComments, if_neg hc, ih fun hm => h (List.mem_cons_of_mem _ hm)]

theorem dropLineComments_eq (h : '/' ∉ text) : dropLineComments false text = text := by
  induction text with
  | nil => rfl
  | cons c text ih =>
      have hc : ¬['/', '/'].isPrefixOf (c :: text) = true := by
        rw [List.isPrefixOf_iff_prefix, List.cons_prefix_cons]
        rintro ⟨rfl, -⟩
        exact h List.mem_cons_self
      rw [dropLineComments, if_neg hc, ih fun hm => h (List.mem_cons_of_mem _ hm)]

/-! ## The text of the slots -/

variable (alnum) in
/-- A slot without white space. -/
def slotText (ep : AbiEntryPoint) : Text :=
  squash (abiType alnum ep.ret) ++ '(' :: '*' :: (ep.name ++ ')' :: '(' ::
    ([','].intercalate ((slotArgs alnum ep).map squash) ++ [')', ';']))

theorem slotArgs_ne_nil : slotArgs alnum ep ≠ [] := by
  rw [slotArgs]
  split
  · exact List.cons_ne_nil _ _
  · next h => rwa [ne_eq, List.map_eq_nil_iff, ← List.isEmpty_iff]

theorem slots_subset (hep : ep ∈ H.slots) : ep ∈ H.entries := (List.mem_filter.mp hep).1

theorem ret_not_mark {c : Char} (h : (isWordChar alnum c || isSpace c || c == '*') = true) :
    c ∉ [';', ',', '}', '/', '(', ')'] := by
  intro hc
  have hascii : isWordChar alnum c = true → isNameChar c = true := by
    intro hw
    rw [isWordChar, Bool.or_eq_true, Bool.and_eq_true, decide_eq_true_eq] at hw
    refine hw.resolve_right fun hbig => ?_
    simp only [List.mem_cons, List.not_mem_nil, or_false] at hc
    rcases hc with rfl | rfl | rfl | rfl | rfl | rfl <;> exact absurd hbig.1 (by decide)
  simp only [Bool.or_eq_true, beq_iff_eq] at h
  rcases h with (h | h) | rfl
  · exact name_not_mark (hascii h)
      ((by decide : [';', ',', '}', '/', '(', ')'] ⊆ [';', ',', '}', '/', '(', ')', '*']) hc)
  · simp only [List.mem_cons, List.not_mem_nil, or_false] at hc
    rcases hc with rfl | rfl | rfl | rfl | rfl | rfl <;> exact absurd h (by decide)
  · exact absurd hc (by decide)

namespace AbiHeader.Checked

theorem slotArgs_forall (h : H.Checked alnum) (hep : ep ∈ H.entries) :
    ∀ a ∈ slotArgs alnum ep, ∀ c ∈ a, c ∉ [';', ',', '}', '/'] := by
  have hname : ∀ c, isNameChar c = true → c ∉ [';', ',', '}', '/'] := fun c hc hm =>
    name_not_mark hc ((by decide : [';', ',', '}', '/'] ⊆ [';', ',', '}', '/', '(', ')', '*']) hm)
  rw [slotArgs]
  split
  · intro a ha
    rw [List.mem_singleton.mp ha]
    exact forall_of_all (by decide)
  · intro a ha
    obtain ⟨p, hp, rfl⟩ := List.mem_map.mp ha
    have hchars := h.params ep hep p hp
    exact forall_append (abiType_forall hname fun c hc => hchars c (List.mem_append_left _ hc))
      fun c hc => hchars c (List.mem_append_right _ hc)

theorem name_chars (h : H.Checked alnum) (hep : ep ∈ H.entries) :
    ∀ c ∈ ep.name, isNameChar c = true := by
  have hname := h.name _ (List.mem_map_of_mem hep)
  rw [isEntryName, Bool.and_eq_true] at hname
  exact List.all_eq_true.mp hname.2

theorem name_squash (h : H.Checked alnum) (hep : ep ∈ H.entries) : squash ep.name = ep.name := by
  rw [squash, List.filter_eq_self]
  intro c hc
  rw [name_not_space (h.name_chars hep c hc)]
  rfl

theorem slotDeclaration_squash (h : H.Checked alnum) (hep : ep ∈ H.entries) :
    (slotDeclaration alnum ep).flatMap squash = slotText alnum ep := by
  have hopen : squash [' ', '(', '*'] = ['(', '*'] := by decide
  have hclose : squash [')'] = [')'] := by decide
  have htail : squash [';'] = [';'] := by decide
  rw [slotDeclaration, wrap_squash (by decide) slotArgs_ne_nil, squash_append, squash_append,
    squash_append, hopen, hclose, htail, h.name_squash hep, slotText]
  simp

/-- The declarations have neither a slash nor a brace. -/
theorem slotDeclaration_forall (h : H.Checked alnum) (hep : ep ∈ H.entries) :
    ∀ l ∈ slotDeclaration alnum ep, ∀ c ∈ l, c ∉ ['}', '/'] := by
  have hname : ∀ c, isNameChar c = true → c ∉ ['}', '/'] := fun c hc hm =>
    name_not_mark hc ((by decide : ['}', '/'] ⊆ [';', ',', '}', '/', '(', ')', '*']) hm)
  have hret : ∀ c ∈ abiType alnum ep.ret, c ∉ ['}', '/'] :=
    abiType_forall hname fun c hc hm => ret_not_mark (h.ret ep hep c hc)
      ((by decide : ['}', '/'] ⊆ [';', ',', '}', '/', '(', ')']) hm)
  refine wrap_forall (forall_of_all (by decide)) (forall_append (forall_append (forall_append hret
    (forall_of_all (by decide)))
    fun c hc => hname c (h.name_chars hep c hc)) (forall_of_all (by decide)))
    (forall_of_all (by decide)) (forall_of_all (by decide)) ?_
  intro a ha
  exact fun c hc hm => (h.slotArgs_forall hep a ha c hc)
    ((by decide : ['}', '/'] ⊆ [';', ',', '}', '/']) hm)

theorem slotListText_eq (h : H.Checked alnum) :
    slotListText (vtableText alnum H) = some (H.slots.flatMap (slotText alnum)) := by
  have hchars : ∀ c ∈ '\n' :: ['\n'].intercalate (H.slots.flatMap (slotDeclaration alnum)),
      c ∉ ['}', '/'] := by
    refine forall_append (show ∀ c ∈ ['\n'], c ∉ ['}', '/'] from forall_of_all (by decide))
      (intercalate_forall (forall_of_all (by decide)) ?_)
    intro l hl
    obtain ⟨ep, hep, hl⟩ := List.mem_flatMap.mp hl
    exact h.slotDeclaration_forall (slots_subset hep) l hl
  have hcut := @cut_of_not_mem _ '\n' '}' [';'] [] (by decide) fun hm => hchars _ hm (by decide)
  have hslash : '/' ∉ '\n' :: ['\n'].intercalate (H.slots.flatMap (slotDeclaration alnum)) :=
    fun hm => hchars _ hm (by decide)
  rw [slotListText, vtableText, List.singleton_append]
  refine (congrArg _ hcut).trans ?_
  rw [Option.map_some, dropBlockComments_eq hslash, dropLineComments_eq hslash]
  have hn : squash ['\n'] = [] := by decide
  rw [← List.singleton_append, squash_append, hn, List.nil_append, squash_intercalate, hn,
    nil_intercalate, ← List.flatMap_def, List.flatMap_assoc]
  exact congrArg some (List.flatMap_congr fun ep hep =>
    h.slotDeclaration_squash (slots_subset hep))

end AbiHeader.Checked

/-! ## Reading the slots -/

/-- What the text says of a slot: its name, and its types without white space. -/
structure SlotKey where
  ret : Text
  name : Text
  args : List Text
deriving DecidableEq, Repr

variable (alnum) in
def slotKey (ep : AbiEntryPoint) : SlotKey :=
  ⟨squash (abiType alnum ep.ret), ep.name, (slotArgs alnum ep).map squash⟩

/-- `ret(*name)(args)`. -/
def readSlot (text : Text) : SlotKey :=
  let ret := text.takeWhile (· != '(')
  let behind := text.drop (ret.length + 2)
  let name := behind.takeWhile (· != ')')
  ⟨ret, name, (behind.drop (name.length + 2)).dropLast.splitOn ','⟩

def readSlots (text : Text) : List SlotKey := (text.splitOn ';').dropLast.map readSlot

variable (alnum) in
/-- A slot's text without the semicolon. -/
def slotBody (ep : AbiEntryPoint) : Text :=
  squash (abiType alnum ep.ret) ++ '(' :: '*' :: (ep.name ++ ')' :: '(' ::
    ([','].intercalate ((slotArgs alnum ep).map squash) ++ [')']))

theorem slotText_eq : slotText alnum ep = slotBody alnum ep ++ [';'] := by
  simp [slotText, slotBody]

theorem squash_forall {P : Char → Prop} (h : ∀ c ∈ text, P c) : ∀ c ∈ squash text, P c :=
  fun c hc => h c (List.mem_filter.mp hc).1

theorem flatMap_terminated {α : Type} {f : α → Text} {s : Char} {l : List α} :
    l.flatMap (fun x => f x ++ [s]) = [s].intercalate (l.map f ++ [[]]) := by
  induction l with
  | nil => rfl
  | cons x l ih =>
      rw [List.flatMap_cons, ih, List.map_cons, List.cons_append, List.append_assoc,
        List.intercalate_cons_of_ne_nil (by simp), List.append_assoc]

namespace AbiHeader.Checked

theorem squashed_ret (h : H.Checked alnum) (hep : ep ∈ H.entries) :
    ∀ c ∈ squash (abiType alnum ep.ret), c ∉ [';', '('] := by
  refine squash_forall (abiType_forall (fun c hc hm => ?_) fun c hc hm => ?_)
  · exact name_not_mark hc ((by decide : [';', '('] ⊆ [';', ',', '}', '/', '(', ')', '*']) hm)
  · exact ret_not_mark (h.ret ep hep c hc)
      ((by decide : [';', '('] ⊆ [';', ',', '}', '/', '(', ')']) hm)

theorem squashed_args (h : H.Checked alnum) (hep : ep ∈ H.entries) :
    ∀ a ∈ (slotArgs alnum ep).map squash, ∀ c ∈ a, c ∉ [';', ','] := by
  intro a ha
  obtain ⟨arg, harg, rfl⟩ := List.mem_map.mp ha
  exact squash_forall fun c hc hm => h.slotArgs_forall hep arg harg c hc
    ((by decide : [';', ','] ⊆ [';', ',', '}', '/']) hm)

theorem slotBody_semicolon (h : H.Checked alnum) (hep : ep ∈ H.entries) :
    ';' ∉ slotBody alnum ep := by
  have hargs : ∀ c ∈ [','].intercalate ((slotArgs alnum ep).map squash), c ≠ ';' :=
    intercalate_forall (forall_of_all (by decide)) fun a ha c hc heq =>
      h.squashed_args hep a ha c hc (by rw [heq]; decide)
  have hret : ∀ c ∈ squash (abiType alnum ep.ret), c ≠ ';' := fun c hc heq =>
    h.squashed_ret hep c hc (by rw [heq]; decide)
  have hname : ∀ c ∈ ep.name, c ≠ ';' := fun c hc heq =>
    name_not_mark (h.name_chars hep c hc) (by rw [heq]; decide)
  have hopen : ∀ c ∈ ['(', '*'], c ≠ ';' := forall_of_all (by decide)
  have hclose : ∀ c ∈ [')', '('], c ≠ ';' := forall_of_all (by decide)
  have hall : ∀ c ∈ slotBody alnum ep, c ≠ ';' :=
    forall_append hret (forall_append hopen (forall_append hname (forall_append hclose
      (forall_append hargs (forall_of_all (by decide))))))
  exact fun hm => hall _ hm rfl

theorem readSlot_slotBody (h : H.Checked alnum) (hep : ep ∈ H.entries) :
    readSlot (slotBody alnum ep) = slotKey alnum ep := by
  have hret : (slotBody alnum ep).takeWhile (· != '(') = squash (abiType alnum ep.ret) := by
    refine takeWhile_all (fun c hc => ?_) fun c tail hc => ?_
    · rw [bne_iff_ne]
      exact fun heq => h.squashed_ret hep c hc (by rw [heq]; decide)
    · rw [← (List.cons.inj hc).1]
      rfl
  have hbehind : (slotBody alnum ep).drop ((squash (abiType alnum ep.ret)).length + 2) =
      ep.name ++ ')' :: '(' :: ([','].intercalate ((slotArgs alnum ep).map squash) ++ [')']) := by
    rw [slotBody, ← List.drop_drop, List.drop_left]
    rfl
  have hname : (ep.name ++ ')' :: '(' ::
      ([','].intercalate ((slotArgs alnum ep).map squash) ++ [')'])).takeWhile (· != ')') =
      ep.name := by
    refine takeWhile_all (fun c hc => ?_) fun c tail hc => ?_
    · rw [bne_iff_ne]
      exact fun heq => name_not_mark (h.name_chars hep c hc) (by rw [heq]; decide)
    · rw [← (List.cons.inj hc).1]
      rfl
  have hargs : (ep.name ++ ')' :: '(' ::
      ([','].intercalate ((slotArgs alnum ep).map squash) ++ [')'])).drop (ep.name.length + 2) =
      [','].intercalate ((slotArgs alnum ep).map squash) ++ [')'] := by
    rw [← List.drop_drop, List.drop_left]
    rfl
  have hne : (slotArgs alnum ep).map squash ≠ [] := by
    rw [ne_eq, List.map_eq_nil_iff]
    exact slotArgs_ne_nil
  rw [readSlot]
  rw [hret, hbehind, hname, hargs, List.dropLast_concat, List.splitOn_intercalate ','
    (fun a ha hm => h.squashed_args hep a ha ',' hm (by decide)) hne]
  rfl

theorem readSlots_slotText (h : H.Checked alnum) :
    readSlots (H.slots.flatMap (slotText alnum)) = H.slots.map (slotKey alnum) := by
  have htext : H.slots.flatMap (slotText alnum) =
      [';'].intercalate (H.slots.map (slotBody alnum) ++ [[]]) := by
    rw [← flatMap_terminated]
    exact List.flatMap_congr fun ep _ => slotText_eq
  rw [readSlots, htext, List.splitOn_intercalate ';' ?_ (by simp), List.dropLast_concat,
    List.map_map]
  · exact List.map_congr_left fun ep hep => h.readSlot_slotBody (slots_subset hep)
  · intro l hl
    rcases List.mem_append.mp hl with hl | hl
    · obtain ⟨ep, hep, rfl⟩ := List.mem_map.mp hl
      exact h.slotBody_semicolon (slots_subset hep)
    · rw [List.mem_singleton.mp hl]
      exact List.not_mem_nil

end AbiHeader.Checked

theorem slotText_of_key {ep' : AbiEntryPoint} (h : slotKey alnum ep = slotKey alnum ep') :
    slotText alnum ep = slotText alnum ep' := by
  obtain ⟨hret, hname, hargs⟩ := SlotKey.mk.injEq .. |>.mp h
  rw [slotText, slotText, hret, hname, hargs]

/-! ## The hash -/

theorem encode_inj (h : encode text = encode text') : text = text' := by
  have hutf : text.utf8Encode = text'.utf8Encode := congrArg List.toByteArray h
  have harray := congrArg ByteArray.utf8Decode? hutf
  rw [List.utf8Decode?_utf8Encode, List.utf8Decode?_utf8Encode] at harray
  exact congrArg Array.toList (Option.some.inj harray)

theorem fnvPrime_inverse : fnvPrime * 0x359C449B = 1 := by decide

/-- Two texts of one hash differ by more than two bytes that stand together. -/
def FarApart (text text' : Text) : Prop :=
  ∀ before behind b b' c c', encode text = before ++ b :: b' :: behind →
    encode text' ≠ before ++ c :: c' :: behind

theorem collision_apart (hne : text ≠ text')
    (hhash : fnv1a32 (encode text) = fnv1a32 (encode text')) : FarApart text text' := by
  intro before behind b b' c c' htext htext'
  rw [fnv1a32, fnv1a32, htext, htext'] at hhash
  obtain ⟨rfl, rfl⟩ := mulHash_two_bytes fnvPrime_inverse (k := 0x193) (by decide) (by decide) hhash
  exact hne (encode_inj (htext.trans htext'.symm))

variable (alnum) in
/-- `text` is what the hash of the vtable is taken of. -/
structure LayoutText (H : AbiHeader) (text : Text) : Prop where
  listed : slotListText (vtableText alnum H) = some text
  hash : layoutHash alnum H = some (fnv1a32 (encode text))
  read : readSlots text = H.slots.map (slotKey alnum)

variable (alnum) in
/-- What one text and one hash say of two headers. -/
structure LayoutsAgree (H H' : AbiHeader) (text text' : Text) : Prop where
  same : text = text' ↔ H.slots.map (slotKey alnum) = H'.slots.map (slotKey alnum)
  apart : layoutHash alnum H = layoutHash alnum H' → text ≠ text' → FarApart text text'

theorem AbiHeader.Checked.layoutText (h : H.Checked alnum) :
    LayoutText alnum H (H.slots.flatMap (slotText alnum)) where
  listed := h.slotListText_eq
  hash := by rw [layoutHash, h.slotListText_eq, Option.map_some]
  read := h.readSlots_slotText

theorem flatMap_of_keys {l l' : List AbiEntryPoint}
    (h : l.map (slotKey alnum) = l'.map (slotKey alnum)) :
    l.flatMap (slotText alnum) = l'.flatMap (slotText alnum) := by
  induction l generalizing l' with
  | nil =>
      rw [List.map_nil, eq_comm, List.map_eq_nil_iff] at h
      rw [h]
  | cons ep l ih =>
      cases l' with
      | nil => cases h
      | cons ep' l' =>
          obtain ⟨hkey, hkeys⟩ := List.cons.inj h
          rw [List.flatMap_cons, List.flatMap_cons, slotText_of_key hkey, ih hkeys]

theorem AbiHeader.Checked.layoutsAgree {H' : AbiHeader} (h : H.Checked alnum)
    (h' : H'.Checked alnum) :
    LayoutsAgree alnum H H' (H.slots.flatMap (slotText alnum))
      (H'.slots.flatMap (slotText alnum)) := by
  refine ⟨⟨fun htext => ?_, flatMap_of_keys⟩, ?_⟩
  · rw [← h.readSlots_slotText, htext, h'.readSlots_slotText]
  · intro hhash hne
    rw [h.layoutText.hash, h'.layoutText.hash] at hhash
    exact collision_apart hne (Option.some.inj hhash)

theorem layout_determined {H' : AbiHeader} (h : H.Checked alnum) (h' : H'.Checked alnum) :
    ∃ text text', LayoutText alnum H text ∧ LayoutText alnum H' text' ∧
      LayoutsAgree alnum H H' text text' :=
  ⟨_, _, h.layoutText, h'.layoutText, h.layoutsAgree h'⟩

/-- Three entry points and their shifted ones; one of them is an alias. -/
def attrNames : List Text :=
  ["MPI_Attr_delete".toList, "MPI_Comm_delete_attr".toList, "MPI_Get_version".toList]

def attrHeader (arg : Text) : AbiHeader where
  entries := (attrNames ++ attrNames.map shifted).map fun n =>
    ⟨n, "int".toList, [⟨"MPI_Comm".toList, "comm".toList, []⟩, ⟨arg, "keyval".toList, []⟩]⟩
  aliases := [("MPI_Attr_delete".toList, "MPI_Comm_delete_attr".toList)]

theorem attrHeader_names {arg : Text} :
    (attrHeader arg).names = attrNames ++ attrNames.map shifted := by
  rw [AbiHeader.names, attrHeader, List.map_map]
  exact List.map_id _

theorem attrHeader_checked {arg : Text} (harg : ∀ c ∈ arg, c ∉ [';', ',', '}', '/']) :
    (attrHeader arg).Checked alnum where
  nodup := by
    rw [attrHeader_names]
    decide
  name := by
    rw [attrHeader_names]
    decide
  ret ep hep c hc := by
    obtain ⟨n, -, rfl⟩ := List.mem_map.mp hep
    have hint : isNameChar c = true :=
      List.all_eq_true.mp (by decide : "int".toList.all isNameChar = true) c hc
    rw [name_isWord hint]
    rfl
  params ep hep p hp := by
    obtain ⟨n, -, rfl⟩ := List.mem_map.mp hep
    rcases List.mem_cons.mp hp with rfl | hp
    · exact forall_of_all (by decide)
    · rw [List.mem_singleton.mp hp, List.append_nil]
      exact harg
  symmetric n hn := by
    have hshift : shifted n ∈ attrNames.map shifted ↔ n ∈ attrNames :=
      List.mem_map_of_injective fun _ _ he => (List.cons.inj he).2
    rw [attrHeader_names, List.mem_append, List.mem_append, hshift]
    have hpmpi : ∀ m ∈ attrNames.map shifted, isPmpi m = true := by decide
    have hmpi : ∀ m ∈ attrNames, m.head? ≠ some 'P' := by decide
    constructor
    · rintro (hmem | hmem)
      · exact .inr hmem
      · exact nomatch hn.symm.trans (hpmpi n hmem)
    · rintro (hmem | hmem)
      · exact absurd rfl (hmpi _ hmem)
      · exact .inl hmem
  aliases n target hmem := by
    cases List.mem_singleton.mp hmem
    rw [attrHeader_names]
    exact ⟨by decide, by decide, by decide, rfl⟩

/-- A key that is an `int` on one side and a handle on the other. -/
theorem attrHeaders_determined :
    ∃ text text', LayoutText (fun _ => false) (attrHeader "int".toList) text ∧
      LayoutText (fun _ => false) (attrHeader "MPI_Win".toList) text' ∧
      LayoutsAgree (fun _ => false) (attrHeader "int".toList) (attrHeader "MPI_Win".toList)
        text text' :=
  layout_determined (attrHeader_checked (forall_of_all (by decide)))
    (attrHeader_checked (forall_of_all (by decide)))

/-! ## What fills the slots -/

theorem nameHead_not_pmpi {name : Text} (h : (nameHead name).isSome = true) :
    isPmpi name = false ∧ isPmpi (shifted name) = true := by
  rw [nameHead] at h
  split at h
  · next hx =>
      obtain ⟨tail, rfl⟩ := List.isPrefixOf_iff_prefix.mp hx
      exact ⟨rfl, rfl⟩
  · split at h
    · next hm =>
        obtain ⟨tail, rfl⟩ := List.isPrefixOf_iff_prefix.mp hm
        exact ⟨rfl, rfl⟩
    · cases h

theorem unshifted_shifted {name : Text} (h : (nameHead name).isSome = true) :
    unshifted (shifted name) = name := by
  rw [unshifted, if_pos (nameHead_not_pmpi h).2]
  rfl

theorem unshifted_of_not {name : Text} (h : isPmpi name = false) : unshifted name = name := by
  rw [unshifted, h, if_neg Bool.false_ne_true]

theorem entryName_cases {name : Text} (h : isEntryName name = true) :
    (isPmpi name = false ∧ unshifted name = name) ∨
      (isPmpi name = true ∧ name = shifted (unshifted name)) := by
  cases hp : isPmpi name with
  | false => exact .inl ⟨rfl, unshifted_of_not hp⟩
  | true =>
      refine .inr ⟨rfl, ?_⟩
      rw [unshifted, if_pos hp]
      obtain ⟨tail, rfl⟩ := List.isPrefixOf_iff_prefix.mp hp
      rfl

theorem entryName_head {name : Text} (h : isEntryName name = true) :
    (nameHead (unshifted name)).isSome = true := by
  rw [isEntryName, Bool.and_eq_true] at h
  exact h.1

namespace AbiHeader.Checked

/-- The function that an initializer names is that of its slot. -/
theorem initializers_value (h : H.Checked alnum) {handwritten : Text → Bool} {name body : Text}
    (hi : (name, body) ∈ H.initializers handwritten) :
    body = bodyPrefix handwritten (unshifted name) ++ name := by
  obtain ⟨ep, hep, hi⟩ := List.mem_flatMap.mp hi
  obtain ⟨hentry, hnot⟩ := List.mem_filter.mp hep
  have hnot : isPmpi ep.name = false := by simpa using hnot
  have hhead := entryName_head (h.name _ (List.mem_map_of_mem hentry))
  rw [unshifted_of_not hnot] at hhead
  split at hi
  · cases hi
  · rcases List.mem_cons.mp hi with hi | hi
    · cases hi
      rw [unshifted_of_not hnot]
    · cases List.mem_singleton.mp hi
      rw [unshifted_shifted hhead]

theorem initializers_key (h : H.Checked alnum) (handwritten : Text → Bool) (hep : ep ∈ H.slots) :
    ∃ body, (ep.name, body) ∈ H.initializers handwritten := by
  obtain ⟨hentry, hslot⟩ := List.mem_filter.mp hep
  have hmem : ep.name ∈ H.names := List.mem_map_of_mem hentry
  have hname := h.name _ hmem
  have hnot := (nameHead_not_pmpi (entryName_head hname)).1
  have hpair : ∃ ep₀ ∈ H.entries, ep₀.name = unshifted ep.name := by
    rcases entryName_cases hname with ⟨-, hsame⟩ | ⟨-, hshift⟩
    · exact ⟨ep, hentry, hsame.symm⟩
    · rw [hshift] at hmem
      exact List.mem_map.mp ((h.symmetric _ hnot).mpr hmem)
  obtain ⟨ep₀, hep₀, hname₀⟩ := hpair
  have halias : (H.aliasOf ep₀.name).isSome = false := by
    rw [AbiHeader.aliasOf, hname₀, unshifted_of_not hnot]
    simpa [AbiHeader.aliasOf] using hslot
  refine ⟨bodyPrefix handwritten ep₀.name ++ ep.name, List.mem_flatMap.mpr
    ⟨ep₀, List.mem_filter.mpr ⟨hep₀, ?_⟩, ?_⟩⟩
  · rw [hname₀, hnot]
    rfl
  · rw [if_neg (by rw [halias]; exact Bool.false_ne_true)]
    refine List.mem_map.mpr ⟨ep.name, ?_, rfl⟩
    rw [hname₀, List.mem_cons, List.mem_singleton]
    exact (entryName_cases hname).imp (fun hp => hp.2.symm) fun hp => hp.2

/-- Every slot is filled, with the function of its own name. -/
theorem vtableInstance_eq (h : H.Checked alnum) {handwritten : Text → Bool} :
    H.vtableInstance handwritten =
      H.slots.map fun ep => some (bodyPrefix handwritten (unshifted ep.name) ++ ep.name) := by
  refine List.map_congr_left fun ep hep => ?_
  obtain ⟨body, hbody⟩ := h.initializers_key handwritten hep
  have hsome : ((H.initializers handwritten).lookup ep.name).isSome = true :=
    List.lookup_isSome_iff.mpr ⟨_, hbody, beq_self_eq_true _⟩
  obtain ⟨found, hfound⟩ := Option.isSome_iff_exists.mp hsome
  obtain ⟨before, behind, hsplit, -⟩ := List.lookup_eq_some_iff.mp hfound
  have hmem : (ep.name, found) ∈ H.initializers handwritten := by
    rw [hsplit]
    exact List.mem_append_right _ List.mem_cons_self
  rw [hfound, h.initializers_value hmem]

/-- What a forwarder names is a slot, and a profiling layer that is gone round
once stays gone round. -/
theorem forwardedSlot_mem (h : H.Checked alnum) {name : Text} (hn : name ∈ H.names) :
    H.forwardedSlot name ∈ H.slots.map AbiEntryPoint.name ∧
      isPmpi (H.forwardedSlot name) = isPmpi name := by
  have hslot : ∀ n ∈ H.names, H.aliasOf n = none → n ∈ H.slots.map AbiEntryPoint.name := by
    intro n hmem hnone
    obtain ⟨ep, hep, rfl⟩ := List.mem_map.mp hmem
    exact List.mem_map_of_mem (List.mem_filter.mpr ⟨hep, by rw [hnone]; rfl⟩)
  rw [AbiHeader.forwardedSlot]
  cases halias : H.aliasOf name with
  | none => exact ⟨hslot name hn halias, rfl⟩
  | some target =>
      obtain ⟨before, behind, hsplit, -⟩ := List.lookup_eq_some_iff.mp halias
      obtain ⟨hmpi, hnot, htarget, hlook⟩ := h.aliases (unshifted name) target
        (hsplit ▸ List.mem_append_right _ List.mem_cons_self)
      have hhead := entryName_head (h.name _ htarget)
      rw [unshifted_of_not hnot] at hhead
      obtain ⟨tail, htail⟩ := List.isPrefixOf_iff_prefix.mp hmpi
      dsimp only
      rcases entryName_cases (h.name _ hn) with ⟨hp, hname⟩ | ⟨hp, hname⟩
      · have hpre : ['P', 'M', 'P', 'I', '_'].isPrefixOf name = false := by
          rw [← hname, ← htail]
          rfl
        rw [hpre, if_neg Bool.false_ne_true, List.nil_append, hp, hnot]
        refine ⟨hslot target htarget ?_, rfl⟩
        rw [AbiHeader.aliasOf, unshifted_of_not hnot, hlook]
      · have hpre : ['P', 'M', 'P', 'I', '_'].isPrefixOf name = true := by
          rw [hname, ← htail]
          rfl
        rw [if_pos hpre, hp]
        refine ⟨hslot (shifted target) ((h.symmetric _ hnot).mp htarget) ?_,
          (nameHead_not_pmpi hhead).2⟩
        rw [AbiHeader.aliasOf, unshifted_shifted hhead, hlook]

end AbiHeader.Checked

end AbiWrapper.Ref
