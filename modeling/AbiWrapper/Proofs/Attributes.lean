import AbiWrapper.Proofs.Status
import AbiWrapper.Proofs.HandleBijection
import AbiWrapper.Proofs.KeyvalHistory
import AbiWrapper.Ref.Attributes

/-!
# How long an attribute's pointer keeps its value

A slot has the value of the last answer given for its key: a query either
leaves the slots alone or writes the one of its key (`getAttr_cases`). So a
pointer that was given for a converted key keeps its value through whatever is
asked about other keys, and through every query that fails or finds nothing,
and from the next answer for the key on it has that answer's value, whose
object may be another.
-/

namespace AbiWrapper.Ref

open AbiWrapper.Lib

section Bodies

variable {impl : ImplAttributes} {s : AttrThread} {object : AttrObject} {abiKeyval : Int32}
  {target : UInt64 → Int32 → AttrReply}

/-- What a query does: it leaves the slots alone and gives no pointer into
them, or it gives the slot of its key, with the value of its object. -/
inductive Queries (impl : ImplAttributes) (s : AttrThread) (object : AttrObject)
    (abiKeyval : Int32) (target : UInt64 → Int32 → AttrReply) : AttrResult → Prop
  | kept {r : AttrResult} (hslots : r.slots = s.slots)
      (hnone : convertedKey object abiKeyval = none ∨ r.attributeVal = none ∨
        r.attributeVal = some (.impl 0)) : Queries impl s object abiKeyval target r
  | stored {r : AttrResult} {key : AttrSlot} {reply : AttrReply}
      (hreply : s.reply impl object abiKeyval target = some reply)
      (hkey : convertedKey object abiKeyval = some key) (hval : r.attributeVal = some (.slot key))
      (hslots : r.slots =
        Function.update s.slots key (key.convert impl s.errors reply.number)) :
      Queries impl s object abiKeyval target r

/-- The two bodies are one text. -/
theorem getAttrBody_queries {toabi : AttrReply → AttrSlots → AttrPointer × AttrSlots}
    {reply : AttrReply} (hreply : s.reply impl object abiKeyval target = some reply)
    (hnull : reply.value = 0 → toabi reply s.slots = (.impl 0, s.slots))
    (hkey : reply.value ≠ 0 → toabi reply s.slots =
      match convertedKey object abiKeyval with
      | some key => attrStore s.slots key (key.convert impl s.errors reply.number)
      | none => (.impl reply.value, s.slots)) :
    Queries impl s object abiKeyval target (getAttrBody impl toabi reply s.slots s.errors) := by
  rw [getAttrBody]
  dsimp only
  by_cases herr : reply.ierror = 0
  · by_cases hflag : reply.flag ≠ 0
    · rw [if_pos herr, if_pos hflag]
      by_cases hv : reply.value = 0
      · rw [hnull hv]
        exact .kept rfl (.inr (.inr rfl))
      · rw [hkey hv]
        cases hk : convertedKey object abiKeyval with
        | none => exact .kept rfl (.inl hk)
        | some key => exact .stored hreply hk rfl rfl
    · rw [if_pos herr, if_neg hflag]
      exact .kept rfl (.inr (.inl rfl))
  · rw [if_neg herr]
    exact .kept rfl (.inr (.inl rfl))

theorem getAttr_cases {r : AttrResult} (h : s.getAttr impl object abiKeyval target = some r) :
    Queries impl s object abiKeyval target r := by
  cases object with
  | comm abiComm =>
      rw [AttrThread.getAttr, commGetAttr] at h
      split at h
      · obtain ⟨keyval, hkeyval, rfl⟩ := Option.map_eq_some_iff.mp h
        refine getAttrBody_queries ?_ (fun hv => ?_) fun hv => ?_
        · rw [AttrThread.reply, hkeyval, Option.map_some]
        · rw [commAttrToabi, if_pos hv, hv]
        · rw [commAttrToabi, if_neg hv, convertedKey]
          split_ifs <;> rfl
      · cases h
        exact .kept rfl (.inr (.inl rfl))
  | win abiWin =>
      rw [AttrThread.getAttr, winGetAttr] at h
      split at h
      · obtain ⟨keyval, hkeyval, rfl⟩ := Option.map_eq_some_iff.mp h
        refine getAttrBody_queries ?_ (fun hv => ?_) fun hv => ?_
        · rw [AttrThread.reply, hkeyval, Option.map_some]
        · rw [winAttrToabi, if_pos hv, hv]
        · rw [winAttrToabi, if_neg hv, convertedKey]
          split_ifs <;> rfl
      · cases h
        exact .kept rfl (.inr (.inl rfl))

theorem answered_nil {reply : Option AttrReply} {r : AttrResult}
    (hnone : convertedKey object abiKeyval = none ∨ r.attributeVal = none ∨
      r.attributeVal = some (.impl 0)) : s.answered impl object abiKeyval reply r = [] := by
  unfold AttrThread.answered
  rcases hnone with hk | hv | hv
  · rw [hk]
    cases r.attributeVal <;> rfl
  · rw [hv]
  · rw [hv]
    cases convertedKey object abiKeyval <;> cases reply <;> rfl

theorem answered_one {reply : AttrReply} {r : AttrResult} {key : AttrSlot}
    (hkey : convertedKey object abiKeyval = some key) (hval : r.attributeVal = some (.slot key)) :
    s.answered impl object abiKeyval (some reply) r =
      [⟨object, key, .slot key, key.convert impl s.errors reply.number⟩] := by
  unfold AttrThread.answered
  rw [hkey, hval]
  rfl

end Bodies

/-! ## Histories -/

def lastAnswer (answers : List AttrAnswer) (key : AttrSlot) : Option AttrAnswer :=
  (answers.filter fun a => a.key = key).getLast?

theorem lastAnswer_append {answers : List AttrAnswer} {a : AttrAnswer} {key : AttrSlot} :
    lastAnswer (answers ++ [a]) key = if a.key = key then some a else lastAnswer answers key := by
  rw [lastAnswer, List.filter_append]
  split
  · next h => simp [h]
  · next h => simp [h, lastAnswer]

/-- The slots have the values of the last answers, and every answer is the slot
of its key. -/
structure SlotsAnswered (s : AttrThread) : Prop where
  last : ∀ key a, lastAnswer s.answers key = some a → s.slots key = a.value
  pointer : ∀ a, a ∈ s.answers → a.pointer = .slot a.key

namespace SlotsAnswered

variable {impl : ImplAttributes} {s s' : AttrThread}

theorem init : SlotsAnswered .init := ⟨nofun, nofun⟩

theorem keep (h : SlotsAnswered s) {errors : ErrorTable} {keyvals : KeyvalTable} :
    SlotsAnswered { s with errors, keyvals } := ⟨h.last, h.pointer⟩

theorem store (h : SlotsAnswered s) {object : AttrObject} {key : AttrSlot} {value : Int32}
    {errors : ErrorTable} : SlotsAnswered { s with
      slots := Function.update s.slots key value
      errors := errors
      answers := s.answers ++ [⟨object, key, .slot key, value⟩] } where
  last key' a ha := by
    rw [lastAnswer_append] at ha
    show Function.update s.slots key value key' = a.value
    split at ha
    · next heq =>
        cases ha
        rw [← heq, Function.update_self]
    · next hne =>
        rw [Function.update_of_ne (Ne.symm hne)]
        exact h.last key' a ha
  pointer a ha := by
    rcases List.mem_append.mp ha with ha | ha
    · exact h.pointer a ha
    · rw [List.mem_singleton.mp ha]

theorem getAttr (h : SlotsAnswered s) {object : AttrObject} {abiKeyval : Int32}
    {target : UInt64 → Int32 → AttrReply}
    (hs : s.step impl (.getAttr object abiKeyval target) = some s') : SlotsAnswered s' := by
  obtain ⟨r, hr, rfl⟩ := Option.map_eq_some_iff.mp hs
  cases getAttr_cases hr with
  | kept hslots hnone =>
      rw [answered_nil hnone, List.append_nil, hslots]
      exact h.keep
  | stored hreply hkey hval hslots =>
      rw [hreply, answered_one hkey hval, hslots]
      exact h.store

theorem step (h : SlotsAnswered s) {c : AttrCall} (hs : s.step impl c = some s') :
    SlotsAnswered s' := by
  cases c with
  | getAttr object abiKeyval target => exact h.getAttr hs
  | other errors keyvals =>
      cases hs
      exact h.keep

theorem run {calls : List AttrCall} (he : exec (AttrThread.step impl) .init calls = some s) :
    SlotsAnswered s := exec_keeps (fun _ _ _ h hs => h.step hs) init he

end SlotsAnswered

theorem lastAnswer_split {before after : List AttrAnswer} {a : AttrAnswer} :
    lastAnswer (before ++ a :: after) a.key = (lastAnswer after a.key).or (some a) := by
  rw [lastAnswer, lastAnswer, List.filter_append, List.filter_cons_of_pos (by simp)]
  cases hrest : after.filter fun b => b.key = a.key with
  | nil => simp
  | cons b rest => simp [List.getLast?_cons]

/-- What an answer's pointer yields when it is read now. -/
structure AnswerReads (s : AttrThread) (a : AttrAnswer) (after : List AttrAnswer) : Prop where
  /-- The value of the last answer for the key. -/
  latest : s.read a.pointer = some (((lastAnswer after a.key).getD a).value)
  /-- It is the value its object had as long as the key has not been answered
  since, whatever else has. -/
  kept : (∀ b, b ∈ after → b.key ≠ a.key) → s.read a.pointer = some a.value
  /-- It is the value its object had exactly when the last answer for the key is
  of the same value. -/
  same : s.read a.pointer = some a.value ↔
    ∀ b, lastAnswer after a.key = some b → b.value = a.value

theorem SlotsAnswered.reads {s : AttrThread} (h : SlotsAnswered s) {before after : List AttrAnswer}
    {a : AttrAnswer} (hsplit : s.answers = before ++ a :: after) : AnswerReads s a after := by
  have hmem : a ∈ s.answers := by
    rw [hsplit]
    exact List.mem_append_right _ List.mem_cons_self
  have hlatest : s.read a.pointer = some (((lastAnswer after a.key).getD a).value) := by
    rw [h.pointer a hmem, AttrThread.read, Option.some_inj]
    refine h.last a.key _ ?_
    rw [hsplit, lastAnswer_split]
    cases lastAnswer after a.key <;> rfl
  refine ⟨hlatest, fun hno => ?_, ?_⟩
  · have hnone : lastAnswer after a.key = none := by
      rw [lastAnswer, List.getLast?_eq_none_iff, List.filter_eq_nil_iff]
      exact fun b hb => by simpa using hno b hb
    rw [hlatest, hnone, Option.getD_none]
  · rw [hlatest, Option.some_inj]
    cases lastAnswer after a.key with
    | none => exact ⟨fun _ => nofun, fun _ => rfl⟩
    | some b =>
        refine ⟨fun heq c hc => ?_, fun hall => hall b rfl⟩
        cases hc
        exact heq

/-- After any calls of a thread, the pointer of every answer for a converted key
yields the value that its object had when it was queried until the key is
answered again, and what that answer has stored from then on. -/
theorem attribute_pointer_reads (impl : ImplAttributes) (calls : List AttrCall) (s : AttrThread)
    (he : exec (AttrThread.step impl) .init calls = some s) (before after : List AttrAnswer)
    (a : AttrAnswer) (h : s.answers = before ++ a :: after) : AnswerReads s a after :=
  (SlotsAnswered.run he).reads h

/-- An implementation whose values are the ABI's where that is possible. -/
def plainAttributes : ImplAttributes where
  comm := true
  win := true
  handles := integerHandles
  keyvals := ⟨fun abi => abi, fun _ _ _ _ h => h⟩
  status := ⟨-1, -3, -4, -32766, -2, by decide, by decide, withoutOptional⟩
  flavorCreate := 1
  flavorAllocate := 2
  flavorDynamic := 3
  flavorShared := 4
  unified := 0
  separate := 1
  flavors := by decide
  models := by decide

/-- The flavour of window `abiWin`, which is `number` in the implementation's
numbering, is asked for. -/
def askFlavor (abiWin : UInt64) (number : Int32) : AttrCall :=
  .getAttr (.win abiWin) abiWinCreateFlavor fun _ _ => ⟨0, 1, 4096, number⟩

def twoWindows : List AttrCall := [askFlavor 7 1, askFlavor 8 3]

/-- The first window's pointer yields the flavour of the second. -/
theorem flavor_overwritten : ∃ s,
    exec (AttrThread.step plainAttributes) .init twoWindows = some s ∧
      s.answers =
        [⟨.win 7, .winCreateFlavor, .slot .winCreateFlavor, 311⟩,
          ⟨.win 8, .winCreateFlavor, .slot .winCreateFlavor, 313⟩] ∧
      s.read (.slot .winCreateFlavor) = some 313 :=
  ⟨_, rfl, by decide +kernel, by decide +kernel⟩

/-- Between the two, it has yielded its own. -/
theorem oneWindow_reads : ∃ s,
    exec (AttrThread.step plainAttributes) .init [askFlavor 7 1] = some s ∧
      s.read (.slot .winCreateFlavor) = some 311 := by
  refine ⟨_, rfl, ?_⟩
  have hreads := attribute_pointer_reads plainAttributes [askFlavor 7 1] _ rfl [] []
    ⟨.win 7, .winCreateFlavor, .slot .winCreateFlavor, 311⟩ (by decide +kernel)
  exact hreads.latest

end AbiWrapper.Ref
