import AbiWrapper.Proofs.Conversion

/-!
# Two runs of one body

Two runs whose arguments differ only in what is ignored can be told apart by
where they stop and by nothing else. An implementation that looks at the
significant arguments answers both alike, and from the call on a body depends
on its arguments through the call alone.
-/

namespace AbiWrapper.Ref

variable {b : Body} {impl : Impl} {q : CommQueries} {heap : Heap} {args args' : Args}
  {len : ExtentVar → Nat} {w : World} {target : Call → Reply} {ignored : Param → Bool}

/-! ## From the conversions on -/

/-- A body from the end of its conversions on. -/
def Body.conclude (b : Body) (impl : Impl) (heap : Heap) (target : Call → Reply) (w : World)
    (nstaged : Nat) : Scan (List (Param × ArgVal)) → Option BodyResult
  | .ok vals =>
      let c : Call := ⟨b.coll, b.form, vals⟩
      some (b.finish impl heap c nstaged (target c) w)
  | .tooLarge => some (stopped b.form abiErrValueTooLarge (b.madeBlock heap) w)
  | .fault => none

theorem run_unfit (h : b.scalarsFit args = false) :
    b.run impl q heap target args w = some (stopped b.form abiErrValueTooLarge none w) := by
  simp [Body.run, prepare_unfit h, h]

theorem run_query {ierror : Int32} (h : b.scalarsFit args = true)
    (he : b.extents impl args q = .error ierror) :
    b.run impl q heap target args w =
      some (stopped b.form (w.toabi impl ierror).1 none (w.toabi impl ierror).2) := by
  simp [Body.run, prepare_query h he]

theorem run_memory (h : b.scalarsFit args = true) (he : b.extents impl args q = .ok len)
    (hm : b.memoryOk impl heap len = false) :
    b.run impl q heap target args w = some (stopped b.form abiErrIntern none w) := by
  simp [Body.run, prepare_memory h he hm]

theorem run_converted (h : b.scalarsFit args = true) (he : b.extents impl args q = .ok len)
    (hm : b.memoryOk impl heap len = true) :
    b.run impl q heap target args w = b.conclude impl heap target w (b.nstaged len)
      (convertParams impl args (fun p => len (b.extentVar p)) b.params).2 := by
  rw [Body.run, prepare_converted h he hm]
  cases (convertParams impl args (fun p => len (b.extentVar p)) b.params).2 <;>
    simp [Body.converted, Body.conclude, h]

/-! ## The call -/

theorem finish_call {c : Call} {n : Nat} {reply : Reply} :
    (b.finish impl heap c n reply w).call = some c := by
  simp only [Body.finish, finishBlocking, finishRequest, finishOutliving]
  split
  · rfl
  · split <;> split <;> (try split) <;> rfl

/-- What is seen of a body's end depends on the significant part of its call. -/
theorem finish_observed {c c' : Call} {n : Nat} {reply : Reply}
    (h : c.significant ignored = c'.significant ignored) :
    (b.finish impl heap c n reply w).observed ignored =
      (b.finish impl heap c' n reply w).observed ignored := by
  have hform : (c.significant ignored).form = (c'.significant ignored).form := by rw [h]
  replace hform : c.form = c'.form := hform
  simp only [Body.finish, finishBlocking, finishRequest, finishOutliving, hform]
  split
  · simp [BodyResult.observed, h]
  · split <;> split <;> (try split) <;> simp [BodyResult.observed, h]

/-- The two runs look the same if and only if they stop in the same way. -/
theorem conclude_observed_iff {scan scan' : Scan (List (Param × ArgVal))} {n : Nat}
    (hsame : ∀ vals vals', scan = .ok vals → scan' = .ok vals' →
      vals.filter (fun a => !ignored a.1) = vals'.filter (fun a => !ignored a.1)) :
    (b.conclude impl heap (fun c => target (c.significant ignored)) w n scan).map
        (·.observed ignored) =
      (b.conclude impl heap (fun c => target (c.significant ignored)) w n scan').map
        (·.observed ignored) ↔
    scan.stop = scan'.stop := by
  cases scan with
  | ok vals =>
      cases scan' with
      | ok vals' =>
          have hcall : Call.significant ignored ⟨b.coll, b.form, vals⟩ =
              Call.significant ignored ⟨b.coll, b.form, vals'⟩ := by
            simp [Call.significant, hsame vals vals' rfl rfl]
          simp only [Body.conclude, Option.map_some, hcall, finish_observed hcall,
            Scan.stop_ok]
      | tooLarge =>
          simp [Body.conclude, BodyResult.observed, finish_call, stopped]
      | fault => simp [Body.conclude]
  | tooLarge =>
      cases scan' <;>
        simp [Body.conclude, BodyResult.observed, finish_call, stopped]
  | fault => cases scan' <;> simp [Body.conclude]

end AbiWrapper.Ref
