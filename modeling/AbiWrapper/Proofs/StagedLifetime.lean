import AbiWrapper.Lib.Run
import AbiWrapper.Proofs.Conversion
import AbiWrapper.Proofs.HandleBijection
import AbiWrapper.Proofs.StagedTable
import AbiWrapper.Ref.Completion

/-!
# Staged arrays live as long as they are read

A body that leaves its arrays to the implementation stores the block under the
request's handle, unless nothing can read it any more. A body that completes
requests releases the handles that were nulled. One invariant joins the two:
the table is the map of the blocks that may still be read, and these are the
ones that have not been freed.

`begin_spec` says what the first kind of body does to the table and
`emitReleases_spec` what the second kind does.
-/

namespace AbiWrapper.Ref

open AbiWrapper.Lib

variable {impl : Impl} {w : World} {slots : Nat} {t : StagedTable}

/-- The entry a lifetime has in the table while its block is read. -/
def Lifetime.entry (l : Lifetime) : UInt64 × Option Block := (l.handle, some l.block)

/-! ## Beginning -/

theorem requestPredef : impl.handles.predef .request = [(0x00000180, requestNull impl)] := rfl

theorem requestToabi_dynamic {request : UInt64} (hplain : ¬reservedKey request)
    (hrange : ¬inPredefRange request) (hnull : request ≠ requestNull impl)
    (hflag : w.handleError = false) :
    w.requestToabi impl request = (request, false, w) := by
  have hclass : HandleClass.request ∈ impl.handles.classes := by
    rw [ImplHandles.classes]
    split <;> decide
  have hempty : request ≠ rmapEmpty := fun h => hplain (.inr (.inl h))
  have hrows : ∀ p, p ∈ impl.handles.predef .request → p.2 ≠ request := by
    rw [requestPredef]
    intro p hp
    obtain rfl := List.mem_singleton.mp hp
    exact Ne.symm hnull
  have hto := (translates impl.built hclass hempty).dynamic hrows hrange w.handleError
  rw [World.requestToabi, hto.1, hflag]
  obtain ⟨errors, handleError, staged⟩ := w
  obtain rfl : handleError = false := hflag
  rfl

section Begin

variable {b : Body} {q : CommQueries} {heap : Heap} {args : Args} {target : Call → Reply}
  {r : BodyResult}

theorem prepare_call {log : List (Param × Nat)} {c : Call} {nstaged : Nat}
    (hform : b.form ≠ .blocking) (hp : b.prepare impl q heap args = (log, .call c nstaged)) :
    c.form = b.form ∧ (nstaged = 0 ∨ heap.block.isSome = true) := by
  cases hfit : b.scalarsFit args with
  | false => rw [prepare_unfit hfit] at hp; exact nomatch hp
  | true =>
  cases he : b.extents impl args q with
  | error ierror => rw [prepare_query hfit he] at hp; exact nomatch hp
  | ok len =>
  cases hm : b.memoryOk impl heap len with
  | false => rw [prepare_memory hfit he hm] at hp; exact nomatch hp
  | true =>
      have hcall : c.form = b.form ∧ nstaged = b.nstaged len := by
        rw [prepare_converted hfit he hm] at hp
        cases hs : (convertParams impl args (fun p => len (b.extentVar p)) b.params).2 with
        | ok vals =>
            simp only [hs, Body.converted, Prod.mk.injEq, Prepared.call.injEq] at hp
            obtain ⟨-, rfl, rfl⟩ := hp
            exact ⟨rfl, rfl⟩
        | _ => simp [hs, Body.converted] at hp
      refine ⟨hcall.1, ?_⟩
      cases hf : b.form with
      | blocking => exact absurd hf hform
      | _ => simpa [Body.memoryOk, hf, hcall.2] using hm

/-- What a body that stages arrays past its call does to the table: nothing, and
the block it made is freed; or, where the block may still be read, it attaches
it, and succeeds if the table takes it. -/
structure BeginSpec (impl : Impl) (w : World) (r : BodyResult) (made : Option Lifetime) :
    Prop where
  flag : r.world.handleError = false
  ended : (∀ l, made = some l → l.reading = false) →
    r.world.staged = w.staged ∧ r.freed = made.map (·.block)
  reading : ∀ l, made = some l → l.reading = true → ∀ t,
    stagedAttach impl.slots l.handle (some l.block) w.staged = (.stored, t) →
      r.world.staged = t ∧ r.freed = none ∧ r.code = 0

theorem stagedKeep_ended {request : UInt64} {block : Option Block} {nstaged : Nat}
    {kind : StagedKind} {reply : Reply} (hok : reply.ierror = 0)
    (h : reply.mayRead kind nstaged = false) :
    stagedKeep slots request block nstaged kind reply.complete t = ⟨true, t, block, false⟩ := by
  rw [stagedKeep]
  by_cases hn : nstaged = 0
  · rw [if_pos hn]
  · have hc : kind = .nonblocking ∧ reply.complete.ierror = 0 ∧ reply.complete.flag = true := by
      simpa [Reply.mayRead, hok, Nat.pos_iff_ne_zero, hn] using h
    rw [if_neg hn, if_pos]
    simpa [stagedIsComplete] using hc

theorem stagedKeep_reading {request : UInt64} {block : Option Block} {nstaged : Nat}
    {kind : StagedKind} {reply : Reply} {t' : StagedTable}
    (h : reply.mayRead kind nstaged = true)
    (ha : stagedAttach slots request block t = (.stored, t')) :
    stagedKeep slots request block nstaged kind reply.complete t = ⟨true, t', none, false⟩ := by
  simp only [Reply.mayRead, decide_eq_true_eq] at h
  obtain ⟨-, hn, hc⟩ := h
  rw [stagedKeep, if_neg (by omega), if_neg (by simpa [stagedIsComplete] using hc), ha]

theorem finishOutliving_spec {c : Call} {nstaged : Nat} {block : Option Block} {reply : Reply}
    (hflag : w.handleError = false) (hblock : nstaged = 0 ∨ block.isSome = true)
    (hhandle : reply.ierror = 0 → ¬reservedKey reply.request ∧ ¬inPredefRange reply.request ∧
      reply.request ≠ requestNull impl) :
    BeginSpec impl w (finishOutliving impl c nstaged block reply w)
      (block.map fun block => ⟨block, reply.request, c.form.stagedKind,
        reply.mayRead c.form.stagedKind nstaged⟩) := by
  by_cases hok : reply.ierror = 0
  · obtain ⟨hplain, hrange, hnull⟩ := hhandle hok
    rw [finishOutliving, if_neg (not_not.mpr hok)]
    simp only [requestToabi_dynamic hplain hrange hnull hflag, Bool.false_eq_true, if_false]
    cases hread : reply.mayRead c.form.stagedKind nstaged with
    | false =>
        rw [stagedKeep_ended hok hread]
        refine ⟨hflag, fun _ => ⟨rfl, ?_⟩, ?_⟩
        · cases block <;> rfl
        · intro l hl hr
          obtain ⟨_, -, rfl⟩ := Option.map_eq_some_iff.mp hl
          exact nomatch hr
    | true =>
        have hn : nstaged ≠ 0 := by
          simp only [Reply.mayRead, decide_eq_true_eq] at hread
          omega
        obtain ⟨blk, rfl⟩ := Option.isSome_iff_exists.mp (hblock.resolve_left hn)
        refine ⟨hflag, fun hl => absurd (hl _ rfl) (by simp), ?_⟩
        rintro l hl - t ha
        obtain rfl := Option.some.inj hl
        rw [stagedKeep_reading hread ha]
        exact ⟨rfl, rfl, rfl⟩
  · have hread : reply.mayRead c.form.stagedKind nstaged = false := by
      simp [Reply.mayRead, hok]
    rw [finishOutliving, if_pos hok, hread]
    refine ⟨hflag, fun _ => ⟨rfl, ?_⟩, ?_⟩
    · cases block <;> rfl
    · intro l hl hr
      obtain ⟨_, -, rfl⟩ := Option.map_eq_some_iff.mp hl
      exact nomatch hr

theorem finishRequest_spec {c : Call} {reply : Reply} (hflag : w.handleError = false)
    (hhandle : reply.ierror = 0 → ¬reservedKey reply.request ∧ ¬inPredefRange reply.request ∧
      reply.request ≠ requestNull impl) :
    (finishRequest impl c reply w).world.handleError = false ∧
      (finishRequest impl c reply w).world.staged = w.staged ∧
      (finishRequest impl c reply w).freed = none := by
  rw [finishRequest]
  by_cases hok : reply.ierror = 0
  · obtain ⟨hplain, hrange, hnull⟩ := hhandle hok
    simp [hok, requestToabi_dynamic hplain hrange hnull hflag, World.toabi, hflag]
  · simp [hok, hflag, takeHandleError, World.toabi]

/-- A block that was made and is not read has been freed, and that is all. -/
theorem BeginSpec.of_ended {made : Option Lifetime} (hflag : r.world.handleError = false)
    (hstaged : r.world.staged = w.staged) (hfreed : r.freed = made.map (·.block))
    (hmade : ∀ l, made = some l → l.reading = false) : BeginSpec impl w r made :=
  ⟨hflag, fun _ => ⟨hstaged, hfreed⟩, fun l hl hr => absurd (hmade l hl) (by simp [hr])⟩

/-- Every nonblocking or persistent body, whatever becomes of it. -/
theorem begin_spec (hform : b.form ≠ .blocking) (hflag : w.handleError = false)
    (hhandle : ∀ c nstaged, (b.prepare impl q heap args).2 = .call c nstaged →
      (target c).ierror = 0 → ¬reservedKey (target c).request ∧
        ¬inPredefRange (target c).request ∧ (target c).request ≠ requestNull impl)
    (hr : b.run impl q heap target args w = some r) :
    BeginSpec impl w r (b.lifetime impl q heap args target) := by
  rcases hp : b.prepare impl q heap args with ⟨log, prepared⟩
  simp only [Body.run, hp] at hr
  simp only [hp] at hhandle
  rw [Body.lifetime, hp]
  cases prepared with
  | fault => exact nomatch hr
  | tooLarge =>
      obtain rfl := Option.some.inj hr
      refine .of_ended hflag rfl ?_ ?_
      · simp only [stopped]
        split
        · cases b.madeBlock heap <;> rfl
        · rfl
      · intro l hl
        simp only [] at hl
        split at hl
        · obtain ⟨_, -, rfl⟩ := Option.map_eq_some_iff.mp hl
          rfl
        · exact nomatch hl
  | queryError ierror =>
      obtain rfl := Option.some.inj hr
      exact .of_ended hflag rfl rfl nofun
  | noMemory =>
      obtain rfl := Option.some.inj hr
      exact .of_ended hflag rfl rfl nofun
  | call c nstaged =>
      obtain rfl := Option.some.inj hr
      obtain ⟨hcform, hblock⟩ := prepare_call hform hp
      have hfinish : b.finish impl heap c nstaged (target c) w =
          if b.staged = [] then finishRequest impl c (target c) w
          else finishOutliving impl c nstaged heap.block (target c) w := by
        rw [Body.finish]
        cases hf : b.form with
        | blocking => exact absurd hf hform
        | _ => rfl
      rw [hfinish, ← hcform]
      by_cases hs : b.staged = []
      · rw [if_pos hs, Body.madeBlock, if_pos (.inr hs)]
        have hspec := finishRequest_spec (c := c) hflag (hhandle c nstaged rfl)
        exact .of_ended hspec.1 hspec.2.1 hspec.2.2 nofun
      · rw [if_neg hs, Body.madeBlock, if_neg (by simp [hform, hs])]
        exact finishOutliving_spec hflag hblock (hhandle c nstaged rfl)

end Begin

/-! ## Completing -/

section Releases

variable {live : List Lifetime} {requests : List (UInt64 × UInt64)} {key : UInt64}

theorem entries_filter {p : UInt64 → Bool} :
    (live.map Lifetime.entry).filter (fun e => p e.1) =
      (live.filter fun l => p l.handle).map Lifetime.entry := by
  rw [List.filter_map]
  rfl

theorem entries_keys : (live.map Lifetime.entry).map Prod.fst = live.map (·.handle) := by
  rw [List.map_map]
  rfl

theorem filter_handle {l : Lifetime} (hnodup : (live.map (·.handle)).Nodup) (hl : l ∈ live) :
    live.filter (fun l' => l'.handle = l.handle) = [l] := by
  induction live with
  | nil => simp at hl
  | cons l' rest ih =>
      rw [List.map_cons, List.nodup_cons] at hnodup
      rcases List.mem_cons.mp hl with rfl | hm
      · have hnone : rest.filter (fun l' => l'.handle = l.handle) = [] := by
          rw [List.filter_eq_nil_iff]
          intro l' hm
          simp only [decide_eq_true_eq]
          exact fun heq => hnodup.1 (heq ▸ List.mem_map_of_mem hm)
        rw [List.filter_cons_of_pos (by simp), hnone]
      · have hne : l'.handle ≠ l.handle := fun heq =>
          hnodup.1 (heq ▸ List.mem_map_of_mem hm)
        rw [List.filter_cons_of_neg (by simpa using hne), ih hnodup.2 hm]

theorem filter_not_mem_cons {keys : List UInt64} :
    (live.filter fun l => l.handle ≠ key).filter (fun l => l.handle ∉ keys) =
      live.filter fun l => l.handle ∉ key :: keys := by
  rw [List.filter_filter]
  refine List.filter_congr fun l _ => ?_
  simp [Bool.and_comm]

/-- The lifetime of a handle apart from the others. -/
theorem filter_mem_cons {l : Lifetime} (hnodup : (live.map (·.handle)).Nodup) (hl : l ∈ live)
    (keys : List UInt64) :
    (l :: (live.filter fun l' => l'.handle ≠ l.handle).filter fun l' => l'.handle ∈ keys).Perm
      (live.filter fun l' => l'.handle ∈ l.handle :: keys) := by
  have hsplit := List.filter_append_perm (fun l' : Lifetime => l'.handle = l.handle)
    (live.filter fun l' => l'.handle ∈ l.handle :: keys)
  have hself : (live.filter fun l' => l'.handle ∈ l.handle :: keys).filter
      (fun l' => l'.handle = l.handle) = [l] := by
    rw [← filter_handle hnodup hl, List.filter_filter]
    refine List.filter_congr fun l' _ => ?_
    by_cases h : l'.handle = l.handle <;> simp [h]
  have hrest : (live.filter fun l' => l'.handle ∈ l.handle :: keys).filter
      (fun l' => !decide (l'.handle = l.handle)) =
      (live.filter fun l' => l'.handle ≠ l.handle).filter fun l' => l'.handle ∈ keys := by
    rw [List.filter_filter, List.filter_filter]
    refine List.filter_congr fun l' _ => ?_
    by_cases h : l'.handle = l.handle <;> simp [h]
  rw [hself, hrest] at hsplit
  exact hsplit

/-- The loop releases the lifetimes whose handles were nulled, each once, and no
other. -/
theorem releaseNulled_spec (h : Entries slots t (live.map Lifetime.entry))
    (hplain : ∀ r, r ∈ requests → r.1 = requestNull impl ∨ ¬reservedKey r.1) :
    let nulled := nulledHandles impl requests
    let r := releaseNulled slots (requestNull impl) requests t
    Entries slots r.1 ((live.filter fun l => l.handle ∉ nulled).map Lifetime.entry) ∧
      r.2.Perm ((live.filter fun l => l.handle ∈ nulled).map (·.block)) := by
  induction requests generalizing t live with
  | nil => simpa [nulledHandles, releaseNulled] using h
  | cons request rest ih =>
      have hrest : ∀ r, r ∈ rest → r.1 = requestNull impl ∨ ¬reservedKey r.1 := fun r hr =>
        hplain r (List.mem_cons_of_mem _ hr)
      simp only [releaseNulled]
      by_cases hn : nulled (requestNull impl) request = true
      · have hcons : nulledHandles impl (request :: rest) =
            request.1 :: nulledHandles impl rest := by
          simp [nulledHandles, hn]
        rw [if_pos hn, hcons]
        by_cases hk : request.1 ∈ live.map (·.handle)
        · obtain ⟨l, hl, hlk⟩ := List.mem_map.mp hk
          have hentry : (request.1, some l.block) ∈ live.map Lifetime.entry :=
            List.mem_map.mpr ⟨l, hl, by rw [← hlk]; rfl⟩
          obtain ⟨t', hrel, ht'⟩ := h.release hentry
          rw [entries_filter (p := (· ≠ request.1))] at ht'
          obtain ⟨hent, hperm⟩ := ih ht' hrest
          rw [hrel]
          refine ⟨?_, ?_⟩
          · rw [← filter_not_mem_cons]
            exact hent
          · have hsplit := filter_mem_cons (entries_keys ▸ h.keys) hl (nulledHandles impl rest)
            rw [hlk] at hsplit
            exact (hperm.cons l.block).trans (hsplit.map _)
        · have hkey : ¬reservedKey request.1 :=
            (hplain request List.mem_cons_self).resolve_left (by simp_all [nulled])
          rw [h.release_missing hkey (entries_keys.symm ▸ hk)]
          have hmem : ∀ l, l ∈ live → (l.handle ∈ request.1 :: nulledHandles impl rest ↔
              l.handle ∈ nulledHandles impl rest) := by
            intro l hl
            rw [List.mem_cons, or_iff_right]
            exact fun heq => hk (heq ▸ List.mem_map_of_mem hl)
          have hih := ih h hrest
          refine ⟨?_, ?_⟩
          · rw [List.filter_congr fun l hl => decide_eq_decide.mpr (not_congr (hmem l hl))]
            exact hih.1
          · rw [List.filter_congr fun l hl => decide_eq_decide.mpr (hmem l hl)]
            exact hih.2
      · have hcons : nulledHandles impl (request :: rest) = nulledHandles impl rest := by
          simp [nulledHandles, hn]
        rw [if_neg hn, hcons]
        exact ih h hrest

theorem emitReleases_spec (h : Entries impl.slots t (live.map Lifetime.entry))
    (hplain : ∀ r, r ∈ requests → r.1 = requestNull impl ∨ ¬reservedKey r.1) :
    Entries impl.slots (emitReleases impl requests t).1
        ((live.filter fun l => l.handle ∉ nulledHandles impl requests).map Lifetime.entry) ∧
      (emitReleases impl requests t).2.Perm
        ((live.filter fun l => l.handle ∈ nulledHandles impl requests).map (·.block)) := by
  rw [emitReleases]
  cases hany : stagedAny t with
  | true => exact releaseNulled_spec h hplain
  | false =>
      -- A table that counts no entry has none.
      have hnone : live = [] := by
        have hne := mt h.stagedAny_iff.mpr (by simp [hany])
        simpa using hne
      subst hnone
      exact ⟨h, List.Perm.refl _⟩

end Releases

/-- What a completion body does to the table: it releases what its call nulled, or
returns before its call. -/
structure CompleteSpec (impl : Impl) (w : World) (r : CompletionResult)
    (requests : List (UInt64 × UInt64)) : Prop where
  flag : r.world.handleError = false
  staged : r.world.staged = (emitReleases impl requests w.staged).1
  freed : r.freed = (emitReleases impl requests w.staged).2

theorem emitReleases_nil : emitReleases impl [] t = (t, []) := by
  rw [emitReleases]
  split <;> rfl

theorem single_spec {c : SingleCompletion} {abiRequest : UInt64} {ignore : Bool}
    {target : UInt64 → CompletionReply} :
    CompleteSpec impl w (c.run impl abiRequest ignore target w)
      ((LifeCall.single c abiRequest ignore target).requests impl) := by
  rw [SingleCompletion.run]
  rcases handleToabi impl.maps .request ((target (requestFromabi impl abiRequest)).request 0)
    w.handleError with ⟨abi, raised⟩
  cases raised <;> exact ⟨rfl, rfl, rfl⟩

theorem multi_spec {c : MultiCompletion} {count : Int} {abiRequests : List UInt64}
    {ignore requestsStaged statusesStaged : Bool} {target : List UInt64 → CompletionReply}
    (hflag : w.handleError = false) :
    CompleteSpec impl w
      (c.run impl count abiRequests ignore requestsStaged statusesStaged target w)
      ((LifeCall.multi c count abiRequests ignore requestsStaged statusesStaged target).requests
        impl) := by
  have hstopped : ∀ code, CompleteSpec impl w (c.stopped code abiRequests w) [] := by
    intro code
    exact ⟨hflag, by rw [emitReleases_nil]; rfl, by rw [emitReleases_nil]; rfl⟩
  rw [MultiCompletion.run, LifeCall.requests]
  by_cases hcount : count < 0
  · rw [if_pos hcount, if_pos (.inl hcount)]
    exact hstopped _
  · rw [if_neg hcount]
    by_cases hmem : !requestsStaged ∨ (c.hasStatuses ∧ !ignore ∧ !statusesStaged)
    · rw [if_pos hmem, if_pos (.inr hmem)]
      exact hstopped _
    · rw [if_neg hmem, if_neg (not_or.mpr ⟨hcount, hmem⟩)]
      exact ⟨rfl, rfl, rfl⟩

/-! ## The invariant -/

namespace Lifetime

@[simp] theorem after_block {keys : List UInt64} (l : Lifetime) :
    (l.after keys).block = l.block := by
  rw [after]
  split <;> rfl

@[simp] theorem after_nil : after [] = id := rfl

theorem filter_after {keys : List UInt64} {l : List Lifetime} :
    (l.map (after keys)).filter (·.reading) =
      (l.filter (·.reading)).filter fun l => l.handle ∉ keys := by
  induction l with
  | nil => rfl
  | cons l rest ih =>
      rw [List.map_cons, List.filter_cons, List.filter_cons, ih, after]
      by_cases hk : l.handle ∈ keys <;> cases hr : l.reading <;> simp [hk, hr]

end Lifetime

/-- The table is the map of the blocks that may still be read, and these are the
ones that have not been freed. -/
structure LifeInv (impl : Impl) (s : LifeState) : Prop where
  flag : s.world.handleError = false
  entries : Entries impl.slots s.world.staged (s.live.map Lifetime.entry)
  blocks : (s.blocks.map (·.block)).Nodup
  freed : ∀ l, l ∈ s.blocks → s.freed.count l.block = if l.reading then 0 else 1
  known : ∀ block, block ∈ s.freed → ∃ l, l ∈ s.blocks ∧ l.block = block

namespace LifeInv

variable {s s' : LifeState}

theorem init : LifeInv impl .init where
  flag := rfl
  entries := Entries.init
  blocks := List.nodup_nil
  freed _ h := (List.not_mem_nil h).elim
  known _ h := (List.not_mem_nil h).elim

theorem count_new (h : LifeInv impl s) {block : Block}
    (hnew : ∀ l, l ∈ s.blocks → l.block ≠ block) : s.freed.count block = 0 := by
  rw [List.count_eq_zero]
  intro hm
  obtain ⟨l, hl, hb⟩ := h.known block hm
  exact hnew l hl hb

/-- A new block is counted: freed once at once, or not at all while it is read. -/
theorem push (h : LifeInv impl s) {l : Lifetime} {world : World}
    (hnew : ∀ l', l' ∈ s.blocks → l'.block ≠ l.block) (hflag : world.handleError = false)
    (hentries : Entries impl.slots world.staged
      (((l :: s.blocks).filter (·.reading)).map Lifetime.entry)) :
    LifeInv impl ⟨world, l :: s.blocks, (if l.reading then [] else [l.block]) ++ s.freed⟩ := by
  have hcount : ∀ block, (if l.reading then [] else [l.block] : List Block).count block =
      if l.reading = false ∧ block = l.block then 1 else 0 := by
    intro block
    cases l.reading
    · by_cases hb : block = l.block
      · simp [hb]
      · simp [hb, Ne.symm hb]
    · simp
  refine ⟨hflag, hentries, ?_, ?_, ?_⟩
  · refine List.nodup_cons.mpr ⟨fun hm => ?_, h.blocks⟩
    obtain ⟨l', hl', hb⟩ := List.mem_map.mp hm
    exact hnew l' hl' hb
  · intro l' hm
    rw [List.count_append, hcount]
    rcases List.mem_cons.mp hm with rfl | hm
    · rw [h.count_new hnew]
      cases l'.reading <;> simp
    · rw [if_neg fun hb => hnew l' hm hb.2, h.freed l' hm, Nat.zero_add]
  · intro block hm
    rcases List.mem_append.mp hm with hl | hold
    · refine ⟨l, List.mem_cons_self, ?_⟩
      split at hl
      · exact absurd hl List.not_mem_nil
      · exact (List.mem_singleton.mp hl).symm
    · obtain ⟨l', hl', hb⟩ := h.known block hold
      exact ⟨l', List.mem_cons_of_mem _ hl', hb⟩

theorem attach (h : LifeInv impl s) {l : Lifetime} (hkey : ¬reservedKey l.handle)
    (hother : ∀ l', l' ∈ s.live → l'.handle ≠ l.handle) (hroom : s.live.length < impl.slots) :
    ∃ t', stagedAttach impl.slots l.handle (some l.block) s.world.staged = (.stored, t') ∧
      Entries impl.slots t' ((l :: s.live).map Lifetime.entry) := by
  refine h.entries.attach hkey ?_ (by simpa using hroom)
  rw [entries_keys]
  intro hm
  obtain ⟨l', hl', heq⟩ := List.mem_map.mp hm
  exact hother l' hl' heq

theorem begun (h : LifeInv impl s) {r : BodyResult} {made : Option Lifetime}
    (hspec : BeginSpec impl s.world r made)
    (hnew : ∀ l, made = some l → ∀ l', l' ∈ s.blocks → l'.block ≠ l.block)
    (hread : ∀ l, made = some l → l.reading = true → ¬reservedKey l.handle ∧
      (∀ l', l' ∈ s.live → l'.handle ≠ l.handle) ∧ s.live.length < impl.slots) :
    LifeInv impl ⟨r.world, made.toList ++ s.blocks, r.freed.toList ++ s.freed⟩ := by
  cases made with
  | none =>
      obtain ⟨hstaged, hfreed⟩ := hspec.ended nofun
      rw [hfreed]
      exact ⟨hspec.flag, hstaged ▸ h.entries, h.blocks, h.freed, h.known⟩
  | some l =>
      cases hl : l.reading with
      | false =>
          obtain ⟨hstaged, hfreed⟩ := hspec.ended fun l' hl' => Option.some.inj hl' ▸ hl
          have hentries : Entries impl.slots r.world.staged
              (((l :: s.blocks).filter (·.reading)).map Lifetime.entry) := by
            rw [List.filter_cons_of_neg (by simp [hl]), hstaged]
            exact h.entries
          have hpush := h.push (hnew l rfl) hspec.flag hentries
          rw [hfreed]
          simpa [hl] using hpush
      | true =>
          obtain ⟨hkey, hother, hroom⟩ := hread l rfl hl
          obtain ⟨t', hattach, ht'⟩ := h.attach hkey hother hroom
          obtain ⟨hstaged, hfreed, -⟩ := hspec.reading l rfl hl t' hattach
          have hentries : Entries impl.slots r.world.staged
              (((l :: s.blocks).filter (·.reading)).map Lifetime.entry) := by
            rw [List.filter_cons_of_pos hl, hstaged]
            exact ht'
          have hpush := h.push (hnew l rfl) hspec.flag hentries
          rw [hfreed]
          simpa [hl] using hpush

theorem completed (h : LifeInv impl s) {world : World} {freed : List Block}
    {keys : List UInt64} (hflag : world.handleError = false)
    (hentries : Entries impl.slots world.staged
      ((s.live.filter fun l => l.handle ∉ keys).map Lifetime.entry))
    (hfreed : freed.Perm ((s.live.filter fun l => l.handle ∈ keys).map (·.block))) :
    LifeInv impl ⟨world, s.blocks.map (Lifetime.after keys), freed ++ s.freed⟩ := by
  have hblocks : (s.blocks.map (Lifetime.after keys)).map (·.block) = s.blocks.map (·.block) := by
    rw [List.map_map]
    exact List.map_congr_left fun l _ => l.after_block
  have hcount : ∀ l, l ∈ s.blocks →
      freed.count l.block = if l.reading ∧ l.handle ∈ keys then 1 else 0 := by
    intro l hl
    have hnodup : ((s.live.filter fun l => l.handle ∈ keys).map (·.block)).Nodup :=
      ((List.filter_sublist.trans List.filter_sublist).map _).nodup h.blocks
    rw [hfreed.count_eq, hnodup.count]
    refine if_congr ⟨fun hm => ?_, fun ⟨hr, hk⟩ => ?_⟩ rfl rfl
    · obtain ⟨l', hl', hb⟩ := List.mem_map.mp hm
      obtain ⟨hlive, hk⟩ := List.mem_filter.mp hl'
      obtain ⟨hmem, hr⟩ := List.mem_filter.mp hlive
      obtain rfl := List.inj_on_of_nodup_map h.blocks hmem hl hb
      exact ⟨hr, of_decide_eq_true hk⟩
    · exact List.mem_map_of_mem
        (List.mem_filter.mpr ⟨List.mem_filter.mpr ⟨hl, hr⟩, decide_eq_true hk⟩)
  refine ⟨hflag, ?_, ?_, ?_, ?_⟩
  · rw [LifeState.live, Lifetime.filter_after]
    exact hentries
  · rw [hblocks]
    exact h.blocks
  · intro l' hm
    obtain ⟨l, hl, rfl⟩ := List.mem_map.mp hm
    rw [l.after_block, List.count_append, hcount l hl, h.freed l hl, Lifetime.after]
    by_cases hk : l.handle ∈ keys <;> cases hr : l.reading <;> simp [hk, hr]
  · intro block hm
    suffices hold : ∃ l, l ∈ s.blocks ∧ l.block = block by
      obtain ⟨l, hl, rfl⟩ := hold
      exact ⟨l.after keys, List.mem_map_of_mem hl, l.after_block⟩
    rcases List.mem_append.mp hm with hnow | hold
    · obtain ⟨l, hl, hb⟩ := List.mem_map.mp (hfreed.mem_iff.mp hnow)
      exact ⟨l, List.mem_of_mem_filter (List.mem_of_mem_filter hl), hb⟩
    · exact h.known block hold

end LifeInv

/-! ## Steps and runs -/

section Steps

variable {s s' : LifeState} {b : Body} {q : CommQueries} {heap : Heap} {args : Args}
  {target : Call → Reply} {l : Lifetime} {o : LifeOutcome} {call : LifeCall}

theorem lifetime_block (h : b.lifetime impl q heap args target = some l) :
    heap.block = some l.block := by
  have hmade : b.madeBlock heap = some l.block := by
    rw [Body.lifetime] at h
    split at h
    · obtain ⟨block, hb, rfl⟩ := Option.map_eq_some_iff.mp h
      exact hb
    · split at h
      · obtain ⟨block, hb, rfl⟩ := Option.map_eq_some_iff.mp h
        exact hb
      · exact nomatch h
    · exact nomatch h
  rw [Body.madeBlock] at hmade
  split at hmade
  · exact nomatch hmade
  · exact hmade

theorem lifetime_reading (h : b.lifetime impl q heap args target = some l)
    (hr : l.reading = true) :
    ∃ c nstaged, (b.prepare impl q heap args).2 = .call c nstaged ∧
      (target c).request = l.handle ∧
      (target c).mayRead b.form.stagedKind nstaged = true := by
  rw [Body.lifetime] at h
  split at h
  · next c nstaged hp =>
      obtain ⟨block, -, rfl⟩ := Option.map_eq_some_iff.mp h
      exact ⟨c, nstaged, hp, rfl, hr⟩
  · split at h
    · obtain ⟨block, -, rfl⟩ := Option.map_eq_some_iff.mp h
      exact nomatch hr
    · exact nomatch h
  · exact nomatch h

theorem begin_outcome (hflag : s.world.handleError = false)
    (hg : s.implOk impl (.begin b q heap args target))
    (ho : (LifeCall.begin b q heap args target).outcome impl s.world = some o) :
    ∃ r, BeginSpec impl s.world r (b.lifetime impl q heap args target) ∧
      o = ⟨r.code, r.freed.toList, r.world, b.lifetime impl q heap args target, []⟩ := by
  rw [LifeCall.outcome] at ho
  split at ho
  · exact nomatch ho
  · next hform =>
      obtain ⟨r, hr, rfl⟩ := Option.map_eq_some_iff.mp ho
      refine ⟨r, begin_spec hform hflag (fun c n hp hok => ?_) hr, rfl⟩
      obtain ⟨hkey, hrange, hnull, -⟩ := hg.2 c n hp hok
      exact ⟨hkey, hrange, hnull⟩

/-- A completion body's outcome: it releases what its call nulled. -/
theorem complete_outcome (hinv : LifeInv impl s) (hcall : ∀ b q heap args target,
      call ≠ .begin b q heap args target)
    (hg : s.implOk impl call) (ho : call.outcome impl s.world = some o) :
    o.world.handleError = false ∧ o.made = none ∧
      Entries impl.slots o.world.staged
        ((s.live.filter fun l => l.handle ∉ o.nulled).map Lifetime.entry) ∧
      o.freed.Perm ((s.live.filter fun l => l.handle ∈ o.nulled).map (·.block)) := by
  cases call with
  | begin b q heap args target => exact absurd rfl (hcall b q heap args target)
  | single c abiRequest ignore target =>
      obtain rfl := Option.some.inj ho
      have hspec := @single_spec impl s.world c abiRequest ignore target
      have hrel := emitReleases_spec hinv.entries hg
      exact ⟨hspec.flag, rfl, hspec.staged ▸ hrel.1, hspec.freed ▸ hrel.2⟩
  | multi c count abiRequests ignore requestsStaged statusesStaged target =>
      obtain rfl := Option.some.inj ho
      have hspec := @multi_spec impl s.world c count abiRequests ignore requestsStaged
        statusesStaged target hinv.flag
      have hrel := emitReleases_spec hinv.entries hg
      exact ⟨hspec.flag, rfl, hspec.staged ▸ hrel.1, hspec.freed ▸ hrel.2⟩

/-- What a beginning body's block asks of the state, from what the heap and the
implementation promise. -/
theorem begin_new (hg : s.implOk impl (.begin b q heap args target))
    (hl : b.lifetime impl q heap args target = some l) :
    (∀ l', l' ∈ s.blocks → l'.block ≠ l.block) ∧
      (l.reading = true → ¬reservedKey l.handle ∧
        (∀ l', l' ∈ s.live → l'.handle ≠ l.handle) ∧ s.live.length < impl.slots) := by
  refine ⟨hg.1 l.block (lifetime_block hl), fun hr => ?_⟩
  obtain ⟨c, nstaged, hp, hhandle, hread⟩ := lifetime_reading hl hr
  have hok : (target c).ierror = 0 := by
    simp only [Reply.mayRead, decide_eq_true_eq] at hread
    exact hread.1
  obtain ⟨hkey, -, -, hother, hroom⟩ := hg.2 c nstaged hp hok
  rw [hhandle] at hkey hother
  exact ⟨hkey, hother, hroom hread⟩

theorem LifeInv.step (h : LifeInv impl s) (hg : s.implOk impl call)
    (hs : s.step impl call = some s') : LifeInv impl s' := by
  obtain ⟨o, ho, rfl⟩ := Option.map_eq_some_iff.mp hs
  cases call with
  | begin b q heap args target =>
      obtain ⟨r, hspec, rfl⟩ := begin_outcome h.flag hg ho
      simp only [Lifetime.after_nil, List.map_id]
      exact h.begun hspec (fun l hl => (begin_new hg hl).1) fun l hl => (begin_new hg hl).2
  | single c abiRequest ignore target =>
      obtain ⟨hflag, hmade, hent, hperm⟩ := complete_outcome h (by simp) hg ho
      rw [hmade]
      exact h.completed hflag hent hperm
  | multi c count abiRequests ignore requestsStaged statusesStaged target =>
      obtain ⟨hflag, hmade, hent, hperm⟩ := complete_outcome h (by simp) hg ho
      rw [hmade]
      exact h.completed hflag hent hperm

theorem LifeInv.run {run : List LifeCall}
    (hm : Meets (LifeState.step impl) (LifeState.implOk impl) .init run)
    (he : exec (LifeState.step impl) .init run = some s) : LifeInv impl s :=
  exec_invariant (fun _ _ _ h hg hs => LifeInv.step h hg hs) LifeInv.init hm he

/-- A beginning body whose block may be read has stored it, and succeeds. -/
theorem begin_stored (h : LifeInv impl s) (hg : s.implOk impl (.begin b q heap args target))
    (hl : b.lifetime impl q heap args target = some l) (hr : l.reading = true) {r : BodyResult}
    (hspec : BeginSpec impl s.world r (b.lifetime impl q heap args target)) :
    r.code = 0 ∧ r.freed = none := by
  obtain ⟨hkey, hother, hroom⟩ := (begin_new hg hl).2 hr
  obtain ⟨t', hattach, -⟩ := h.attach hkey hother hroom
  obtain ⟨-, hfreed, hcode⟩ := hspec.reading l hl hr t' hattach
  exact ⟨hcode, hfreed⟩

/-- A body frees a block that was read exactly if its call nulled the handle. -/
theorem freed_iff_nulled (h : LifeInv impl s) (hg : s.implOk impl call)
    (ho : call.outcome impl s.world = some o) (hl : l ∈ s.live) :
    l.block ∈ o.freed ↔ l.handle ∈ o.nulled := by
  have hmem : l ∈ s.blocks := List.mem_of_mem_filter hl
  have hcomplete : o.freed.Perm ((s.live.filter fun l => l.handle ∈ o.nulled).map (·.block)) →
      (l.block ∈ o.freed ↔ l.handle ∈ o.nulled) := by
    intro hperm
    rw [hperm.mem_iff]
    constructor
    · intro hm
      obtain ⟨l', hl', hb⟩ := List.mem_map.mp hm
      obtain ⟨hlive, hk⟩ := List.mem_filter.mp hl'
      obtain rfl := List.inj_on_of_nodup_map h.blocks (List.mem_of_mem_filter hlive) hmem hb
      exact of_decide_eq_true hk
    · exact fun hk => List.mem_map_of_mem (List.mem_filter.mpr ⟨hl, decide_eq_true hk⟩)
  cases call with
  | begin b q heap args target =>
      obtain ⟨r, hspec, rfl⟩ := begin_outcome h.flag hg ho
      refine iff_of_false (fun hm => ?_) List.not_mem_nil
      -- The only block such a body frees is the one it has made, which is new.
      cases hl' : b.lifetime impl q heap args target with
      | none =>
          have hfreed := (hspec.ended (by simp [hl'])).2
          simp [hfreed, hl'] at hm
      | some l' =>
          cases hr : l'.reading with
          | true => simp [(begin_stored h hg hl' hr hspec).2] at hm
          | false =>
              have hfreed := (hspec.ended (by simp [hl', hr])).2
              have hb : l.block = l'.block := by simpa [hfreed, hl'] using hm
              exact (begin_new hg hl').1 l hmem hb
  | single c abiRequest ignore target =>
      exact hcomplete (complete_outcome h (by simp) hg ho).2.2.2
  | multi c count abiRequests ignore requestsStaged statusesStaged target =>
      exact hcomplete (complete_outcome h (by simp) hg ho).2.2.2

end Steps

/-! ## The lifetimes -/

/-- What holds of the blocks in a state, and of each body called next in it. -/
structure LifetimesKept (impl : Impl) (s : LifeState) : Prop where
  /-- A block is not freed while it may be read, and has been freed once when not. -/
  freed : ∀ l, l ∈ s.blocks → s.freed.count l.block = if l.reading then 0 else 1
  /-- Nothing else is freed. -/
  known : ∀ block, block ∈ s.freed → ∃ l, l ∈ s.blocks ∧ l.block = block
  /-- The table has the blocks that may be read, under their handles, and no other. -/
  stored : Entries impl.slots s.world.staged (s.live.map Lifetime.entry)
  /-- A block is freed by the body in whose call its handle is nulled, and, nonblocking
  or persistent, by no other. -/
  nulled : ∀ call o, s.implOk impl call → call.outcome impl s.world = some o →
    ∀ l, l ∈ s.live → (l.block ∈ o.freed ↔ l.handle ∈ o.nulled)
  /-- A body that fails frees the block it has made and stores nothing. -/
  failed : ∀ b q heap args target o, s.implOk impl (.begin b q heap args target) →
    (LifeCall.begin b q heap args target).outcome impl s.world = some o → o.code ≠ 0 →
      o.freed = (o.made.map (·.block)).toList ∧ o.world.staged = s.world.staged
  /-- A body that has staged no element takes no slot. -/
  unstaged : ∀ b q heap args target o c, s.implOk impl (.begin b q heap args target) →
    (LifeCall.begin b q heap args target).outcome impl s.world = some o →
    (b.prepare impl q heap args).2 = .call c 0 → o.world.staged = s.world.staged

theorem staged_lifetimes {run : List LifeCall} {s : LifeState}
    (hm : Meets (LifeState.step impl) (LifeState.implOk impl) .init run)
    (he : exec (LifeState.step impl) .init run = some s) : LifetimesKept impl s := by
  have h := LifeInv.run hm he
  refine ⟨h.freed, h.known, h.entries, fun call o hg ho l hl => ?_,
    fun b q heap args target o hg ho => ?_, fun b q heap args target o c hg ho hp => ?_⟩
  · exact freed_iff_nulled h hg ho hl
  · obtain ⟨r, hspec, rfl⟩ := begin_outcome h.flag hg ho
    intro hcode
    obtain ⟨hstaged, hfreed⟩ := hspec.ended fun l hl => by
      -- A block that may be read was stored, and the body succeeded.
      rw [← Bool.not_eq_true]
      intro hr
      exact hcode (begin_stored h hg hl hr hspec).1
    exact ⟨congrArg Option.toList hfreed, hstaged⟩
  · obtain ⟨r, hspec, rfl⟩ := begin_outcome h.flag hg ho
    refine (hspec.ended fun l hl => ?_).1
    rw [← Bool.not_eq_true]
    intro hr
    obtain ⟨c', nstaged, hp', -, hread⟩ := lifetime_reading hl hr
    obtain ⟨-, rfl⟩ := Prepared.call.inj (hp'.symm.trans hp)
    simp [Reply.mayRead] at hread

/-- A completion call that succeeds and leaves `request`. -/
def leaves (request : UInt64) : CompletionReply := ⟨0, fun _ => request, 0, true, fun _ => 0, false⟩

/-- A persistent operation is made, started, completed and freed. That it is
complete while it is inactive does not count. -/
def persistentRun : List LifeCall :=
  [.begin (typesBody false .persistent) (Communicator.mk (.intra 2 1) .none).queries ample
      (plainArgs 0) fun _ => ⟨0, 0x84000001, ⟨0, true⟩⟩,
    .single .start 0x84000001 true leaves,
    .multi .waitall 1 [0x84000001] true true true fun _ => leaves 0x84000001,
    .single .requestFree 0x84000001 true fun _ => leaves (requestNull plainImpl)]

example : (exec (LifeState.step plainImpl) .init (persistentRun.take 3)).map (·.freed) =
    some [] := by decide +kernel

theorem persistentRun_ok :
    Meets (LifeState.step plainImpl) (LifeState.implOk plainImpl) .init persistentRun := by
  have hplain : ∀ (after : UInt64) (request : UInt64 × UInt64),
      request ∈ [(requestFromabi plainImpl 0x84000001, after)] →
      request.1 = requestNull plainImpl ∨ ¬reservedKey request.1 := by
    intro after request hm
    obtain rfl := List.mem_singleton.mp hm
    have hkey : ¬reservedKey (requestFromabi plainImpl 0x84000001) := by decide
    exact .inr hkey
  have hhandle : ¬reservedKey 0x84000001 ∧ ¬inPredefRange 0x84000001 ∧
      0x84000001 ≠ requestNull plainImpl := by decide
  refine Meets.cons ⟨fun _ _ _ hl => absurd hl List.not_mem_nil, fun c n _ _ => ?_⟩
    fun s _ => Meets.cons (hplain _) fun s _ => Meets.cons (hplain _) fun s _ =>
      Meets.cons (hplain _) fun s _ => trivial
  exact ⟨hhandle.1, hhandle.2.1, hhandle.2.2, fun _ hl => absurd hl List.not_mem_nil,
    fun _ => by decide⟩

theorem persistentRun_lifetimes :
    ∃ s, exec (LifeState.step plainImpl) .init persistentRun = some s ∧ s.freed = [0] ∧
      LifetimesKept plainImpl s := by
  have hfreed : (exec (LifeState.step plainImpl) .init persistentRun).map (·.freed) =
      some [0] := by decide +kernel
  obtain ⟨s, hs, hf⟩ := Option.map_eq_some_iff.mp hfreed
  exact ⟨s, hs, hf, staged_lifetimes persistentRun_ok hs⟩

end AbiWrapper.Ref
