import HrxSystem.Libhrx.StreamRuns

namespace HrxSystem.Libhrx

open External Program Counting HrxStreamS

def quiet : Call → Bool
  | .commandBufferCreate .. | .commandBufferBegin _ | .commandBufferRecord ..
  | .commandBufferEnd _ | .commandBufferRelease _ | .queueExecute .. | .queueBarrier ..
  | .queueAlloca .. | .queueHostCall .. | .queueDispatch .. => false
  | _ => true

/-- The indivisible things a stream call can do to its stream, each with the
calls it makes from place `n` on. -/
inductive Small : ℕ → HrxStreamS → Trace → HrxStreamS → Prop
  | aside {n : ℕ} {st : HrxStreamS} {e : Happened} (hq : quiet e.call = true) : Small n st [e] st
  | notCreated {n : ℕ} {st : HrxStreamS} {d k f : ℕ} {x : Answer} (hx : x.status.isNone = false) :
      Small n st [⟨n, .commandBufferCreate d k f, x⟩] st
  | notBegun {n : ℕ} {st : HrxStreamS} {d k f : ℕ} {x y z : Answer}
      (hx : x.status.isNone = true) (hy : y.status.isNone = false) :
      Small n st [⟨n, .commandBufferCreate d k f, x⟩, ⟨n + 1, .commandBufferBegin (some n), y⟩,
        ⟨n + 2, .commandBufferRelease (some n), z⟩] st
  | opened {n : ℕ} {st : HrxStreamS} {d k f : ℕ} {x y : Answer} (hcb : st.pendingCb = none)
      (hx : x.status.isNone = true) (hy : y.status.isNone = true) :
      Small n st [⟨n, .commandBufferCreate d k f, x⟩, ⟨n + 1, .commandBufferBegin (some n), y⟩]
        { st with pendingCb := some n }
  | notRecorded {n : ℕ} {st : HrxStreamS} {cb : Obj} {c : Command} {x : Answer}
      (hcb : st.pendingCb = some cb) (hx : x.status.isNone = false) :
      Small n st [⟨n, .commandBufferRecord (some cb) c, x⟩] st
  | half {n : ℕ} {st : HrxStreamS} {cb : Obj} {c : Command} {x y : Answer}
      (hcb : st.pendingCb = some cb) (hx : x.status.isNone = true) (hy : y.status.isNone = false) :
      Small n st [⟨n, .commandBufferRecord (some cb) c, x⟩,
        ⟨n + 1, .commandBufferRecord (some cb) .executionBarrier, y⟩] st
  | recorded {n : ℕ} {st : HrxStreamS} {cb : Obj} {c : Command} {x y : Answer}
      (hcb : st.pendingCb = some cb) (hx : x.status.isNone = true) (hy : y.status.isNone = true) :
      Small n st [⟨n, .commandBufferRecord (some cb) c, x⟩,
        ⟨n + 1, .commandBufferRecord (some cb) .executionBarrier, y⟩]
        { st with hasPendingWork := true }
  | barriered {n : ℕ} {st : HrxStreamS} {cb : Obj} {x : Answer} (hcb : st.pendingCb = some cb)
      (hx : x.status.isNone = true) :
      Small n st [⟨n, .commandBufferRecord (some cb) .executionBarrier, x⟩]
        { st with hasPendingWork := true }
  | notEnded {n : ℕ} {st : HrxStreamS} {cb : Obj} {x : Answer} (hcb : st.pendingCb = some cb)
      (hw : st.hasPendingWork = true) (hx : x.status.isNone = false) :
      Small n st [⟨n, .commandBufferEnd (some cb), x⟩] st
  | rejected {n : ℕ} {st : HrxStreamS} {cb d f : ℕ} {x y : Answer} (hcb : st.pendingCb = some cb)
      (hw : st.hasPendingWork = true) (hx : x.status.isNone = true) (hy : y.status.isNone = false) :
      Small n st [⟨n, .commandBufferEnd (some cb), x⟩,
        ⟨n + 1, .queueExecute d f st.waitList st.signalList (some cb), y⟩] st
  | executed {n : ℕ} {st : HrxStreamS} {cb d f : ℕ} {x y z : Answer} (hcb : st.pendingCb = some cb)
      (hw : st.hasPendingWork = true) (hx : x.status.isNone = true) (hy : y.status.isNone = true) :
      Small n st [⟨n, .commandBufferEnd (some cb), x⟩,
        ⟨n + 1, .queueExecute d f st.waitList st.signalList (some cb), y⟩,
        ⟨n + 2, .commandBufferRelease (some cb), z⟩] (flushed st)
  | barred {n : ℕ} {st : HrxStreamS} {d f : ℕ} {w : List SemaphorePoint} {x : Answer}
      (hx : x.status.isNone = false) :
      Small n st [⟨n, .queueBarrier d f w st.signalList, x⟩] st
  | joined {n : ℕ} {st : HrxStreamS} {d f : ℕ} {p : SemaphorePoint} {x : Answer}
      (hx : x.status.isNone = true) :
      Small n st [⟨n, .queueBarrier d f [p] st.signalList, x⟩] (advanced st)
  | notAllocated {n : ℕ} {st : HrxStreamS} {d pool size : ℕ} {params : BufferParams} {x : Answer}
      (hx : x.status.isNone = false) :
      Small n st [⟨n, .queueAlloca d st.waitList st.signalList pool params size, x⟩] st
  | allocated {n : ℕ} {st : HrxStreamS} {d pool size : ℕ} {params : BufferParams} {x y : Answer}
      (hx : x.status.isNone = true) (hy : y.status.isNone = true) :
      Small n st [⟨n, .queueAlloca d st.waitList st.signalList pool params size, x⟩,
        ⟨n + 1, .semaphoreWait ⟨st.semaphore.hal, u64Add st.timepoint 1⟩ .infinite, y⟩]
        (advanced st)
  | lost {n : ℕ} {st : HrxStreamS} {d pool size : ℕ} {params : BufferParams} {x y : Answer}
      (hx : x.status.isNone = true) (hy : y.status.isNone = false) :
      Small n st [⟨n, .queueAlloca d st.waitList st.signalList pool params size, x⟩,
        ⟨n + 1, .semaphoreWait ⟨st.semaphore.hal, u64Add st.timepoint 1⟩ .infinite, y⟩] st

abbrev Steps := Chain Small

variable {α : Type} {o : Outside} {n : ℕ} {st st' : HrxStreamS} {es fs : Trace}

theorem steps_of_quiet (h : ∀ e ∈ es, quiet e.call = true) : Steps n st es st := by
  induction es generalizing n with
  | nil => exact .nil n st
  | cons e es ih =>
    have he : Small n st [e] st := .aside (h e List.mem_cons_self)
    exact (Chain.one he).trans (ih fun f hf ↦ h f (List.mem_cons_of_mem e hf))

theorem steps_of_one (h : es = [] ∧ st' = st ∨ Small n st es st') : Steps n st es st' := by
  obtain ⟨rfl, rfl⟩ | h := h
  · exact .nil n _
  · exact .one h

theorem steps_payload : Steps n st [payload o n] st := .one (.aside rfl)

theorem steps_reported (es : Trace) (h : Small n st es st') :
    Steps n st (es ++ [payload o (n + es.length)]) st' := .snoc (.one h) (.aside rfl)

theorem steps_of_aside {m : Hrx HrxStreamS α} (hm : Aside (fun c ↦ quiet c = true) m) {n' : ℕ} :
    Steps n' st (m.run o n st).events (m.run o n st).state := by
  obtain ⟨hs, he⟩ := hm o n st
  rw [show (m.run o n st).state = st from hs]
  exact steps_of_quiet he

/-- A program whose runs are made of small steps, whatever the outside answers. -/
def Walks (m : Hrx HrxStreamS α) : Prop :=
  ∀ o n st, Roomy o → Steps n st (m.run o n st).events (m.run o n st).state

theorem Walks.of_aside {m : Hrx HrxStreamS α} (hm : Aside (fun c ↦ quiet c = true) m) : Walks m :=
  fun _ _ _ _ ↦ steps_of_aside hm

theorem Walks.bind {β : Type} {m : Hrx HrxStreamS α} {f : α → Hrx HrxStreamS β} (hm : Walks m)
    (hf : ∀ a, Walks (f a)) : Walks (m >>= f) := by
  intro o n st ho
  exact (hm o n st ho).trans (hf _ o _ _ ho)

theorem Walks.ite {m m' : Hrx HrxStreamS α} {c : Prop} [Decidable c] (hm : Walks m)
    (hm' : Walks m') : Walks (if c then m else m') := by
  split
  · exact hm
  · exact hm'

theorem Walks.pure (a : α) : Walks (Pure.pure a : Hrx HrxStreamS α) := fun _ n st _ ↦ .nil n st

theorem hrxStatusFromIree_aside {σ : Type} (s : IreeStatus) :
    Aside (fun c ↦ quiet c = true) (hrxStatusFromIree s : Hrx σ HrxStatus) :=
  hrxStatusFromIree_calls (fun _ ↦ rfl) s

theorem hrxError_aside {σ : Type} (code : HrxStatusCode) (message : String) :
    Aside (fun c ↦ quiet c = true) (hrxError code message : Hrx σ HrxStatus) :=
  hrxError_calls (fun _ ↦ rfl) code message

theorem hrxSemaphoreWait_aside {σ : Type} (semaphore : HrxSemaphore) (value timeoutNs : ℕ) :
    Aside (fun c ↦ quiet c = true)
      (hrxSemaphoreWait semaphore value timeoutNs : Hrx σ HrxStatus) := by
  cases semaphore with
  | none => exact hrxError_aside _ _
  | some sem => exact .bind (.call rfl) fun _ ↦ hrxStatusFromIree_aside _

theorem hrxSemaphoreQuery_aside {σ : Type} (semaphore : HrxSemaphore) (valueOut : Bool) :
    Aside (fun c ↦ quiet c = true)
      (hrxSemaphoreQuery semaphore valueOut : Hrx σ (HrxStatus × Option ℕ)) := by
  unfold hrxSemaphoreQuery
  split
  · exact .bind (.call rfl) fun _ ↦ .bind (hrxStatusFromIree_aside _) fun _ ↦ .pure _
  · exact .bind (hrxError_aside _ _) fun _ ↦ .pure _

theorem wait_aside : Aside (fun c ↦ quiet c = true) wait :=
  .bind .state fun _ ↦ .ite (.pure _) (hrxSemaphoreWait_aside _ _ _)

theorem query_aside : Aside (fun c ↦ quiet c = true) query :=
  .bind .state fun _ ↦ .ite (.pure _) (.bind (hrxSemaphoreQuery_aside _ _) fun _ ↦
    .ite (.pure _) (.pure _))

theorem hrxIreeExactPoolCreate_aside {σ : Type} (shared : SharedState) (allocator : Obj)
    (params : BufferParams) :
    Aside (fun c ↦ quiet c = true)
      (hrxIreeExactPoolCreate shared allocator params : Hrx σ (IreeStatus × Option PoolPtr)) :=
  hrxIreeExactPoolCreate_calls (fun _ ↦ rfl) (fun _ ↦ rfl) (fun _ ↦ rfl) (fun _ ↦ rfl) (fun _ ↦ rfl)
    (fun _ ↦ rfl) shared allocator params

theorem halPoolRelease_aside {σ : Type} (pool : Option PoolPtr) :
    Aside (fun c ↦ quiet c = true) (halPoolRelease pool : Hrx σ Unit) :=
  halPoolRelease_calls (fun _ ↦ rfl) (fun _ ↦ rfl) (fun _ ↦ rfl) (fun _ ↦ rfl) pool

theorem beginCb_cases (ho : Roomy o) (n : ℕ) (st : HrxStreamS) :
    (∃ s, beginCb.run o n st = ⟨some s, st, (beginCb.run o n st).events⟩ ∧ st.pendingCb = none ∧
      Steps n st (beginCb.run o n st).events st ∧
      ∀ e ∈ (beginCb.run o n st).events, ∀ cb c, e.call ≠ .commandBufferRecord cb c) ∨
    (∃ cb, st.pendingCb = some cb ∧ beginCb.run o n st = ⟨none, st, []⟩) ∨
    (st.pendingCb = none ∧ ok (happens o n (createCall st)) = true ∧
      ok (happens o (n + 1) (.commandBufferBegin (some n))) = true ∧
      beginCb.run o n st = ⟨none, { st with pendingCb := some n },
        [happens o n (createCall st), happens o (n + 1) (.commandBufferBegin (some n))]⟩) := by
  cases hcb : st.pendingCb with
  | some cb => exact .inr (.inl ⟨cb, rfl, beginCb_installed hcb⟩)
  | none =>
    cases hx : ok (happens o n (createCall st)) with
    | false =>
      rw [beginCb_notCreated ho hcb hx]
      refine .inl ⟨_, rfl, rfl, steps_reported [_] (.notCreated hx), ?_⟩
      simp [createCall, payload]
    | true =>
      cases hy : ok (happens o (n + 1) (.commandBufferBegin (some n))) with
      | false =>
        rw [beginCb_notBegun ho hcb hx hy]
        refine .inl ⟨_, rfl, rfl, steps_reported [_, _, _] (.notBegun hx hy), ?_⟩
        simp [createCall, payload]
      | true => exact .inr (.inr ⟨rfl, rfl, rfl, beginCb_opened hcb hx hy⟩)

theorem beginCb_walks : Walks beginCb := by
  intro o n st ho
  obtain ⟨s, hr, _, hs, _⟩ | ⟨cb, _, hr⟩ | ⟨hcb, hx, hy, hr⟩ := beginCb_cases ho n st
  · rw [hr]
    exact hs
  · rw [hr]
    exact .nil n st
  · rw [hr]
    exact .one (.opened hcb hx hy)

theorem beginCb_begun (ho : Roomy o) (h : (beginCb.run o n st).val = none) :
    ∃ cb, (beginCb.run o n st).state.pendingCb = some cb := by
  obtain ⟨s, hr, _⟩ | ⟨cb, hcb, hr⟩ | ⟨_, _, _, hr⟩ := beginCb_cases ho n st
  · rw [hr] at h
    cases h
  · exact ⟨cb, by rw [hr]; exact hcb⟩
  · exact ⟨n, by rw [hr]⟩

/-- A flush is one small step, or none, and leaves nothing pending if all its calls succeed. -/
theorem flushInner_small (ho : Roomy o) (n : ℕ) (st : HrxStreamS) :
    ∃ es fs, (flushInner.run o n st).events = es ++ fs ∧ (∀ e ∈ fs, quiet e.call = true) ∧
      (es = [] ∧ (flushInner.run o n st).state = st ∨
        Small n st es (flushInner.run o n st).state) ∧
      ((∀ e ∈ es, ok e = true) → (flushInner.run o n st).state.hasPendingWork = false ∨
        (flushInner.run o n st).state.pendingCb = none) := by
  by_cases hi : st.hasPendingWork = false ∨ st.pendingCb = none
  · rw [flushInner_idle hi]
    exact ⟨[], [], rfl, by simp, .inl ⟨rfl, rfl⟩, fun _ ↦ hi⟩
  obtain ⟨hw, hne⟩ := not_or.mp hi
  obtain ⟨cb, hcb⟩ := Option.ne_none_iff_exists'.mp hne
  rw [Bool.not_eq_false] at hw
  cases hx : ok (happens o n (.commandBufferEnd (some cb))) with
  | false =>
    rw [flushInner_notEnded ho hw hcb hx]
    exact ⟨[_], [_], rfl, by simp [payload, quiet], .inr (.notEnded hcb hw hx), by simp [hx]⟩
  | true =>
    cases hy : ok (happens o (n + 1) (executeCall st cb)) with
    | false =>
      rw [flushInner_rejected ho hw hcb hx hy]
      exact ⟨[_, _], [_],
        rfl, by simp [payload, quiet], .inr (.rejected hcb hw hx hy), by simp [hy]⟩
    | true =>
      rw [flushInner_executed hw hcb hx hy]
      exact ⟨_, [],
        (List.append_nil _).symm, by simp, .inr (.executed hcb hw hx hy), fun _ ↦ .inl rfl⟩

theorem flushInner_walks : Walks flushInner := by
  intro o n st ho
  obtain ⟨es, fs, hes, hq, ⟨rfl, hst⟩ | hsmall, -⟩ := flushInner_small ho n st
  · rw [hes, hst]
    exact steps_of_quiet hq
  · rw [hes]
    exact .cons hsmall (steps_of_quiet hq)

theorem flushInner_flushed (ho : Roomy o) (h : (flushInner.run o n st).val = none) :
    (flushInner.run o n st).state.hasPendingWork = false ∨
      (flushInner.run o n st).state.pendingCb = none := by
  by_cases hi : st.hasPendingWork = false ∨ st.pendingCb = none
  · rw [flushInner_idle hi]
    exact hi
  · obtain ⟨hw, hne⟩ := not_or.mp hi
    obtain ⟨cb, hcb⟩ := Option.ne_none_iff_exists'.mp hne
    rw [Bool.not_eq_false] at hw
    cases hx : ok (happens o n (.commandBufferEnd (some cb))) with
    | false =>
      rw [flushInner_notEnded ho hw hcb hx] at h
      cases h
    | true =>
      cases hy : ok (happens o (n + 1) (executeCall st cb)) with
      | false =>
        rw [flushInner_rejected ho hw hcb hx hy] at h
        cases h
      | true =>
        rw [flushInner_executed hw hcb hx hy]
        exact .inl rfl

theorem Walks.afterBegin {m : Hrx HrxStreamS HrxStatus}
    (hm : ∀ o n st cb, Roomy o → st.pendingCb = some cb →
      Steps n st (m.run o n st).events (m.run o n st).state) :
    Walks (beginCb >>= fun s ↦ if (!hrxStatusIsOk s) = true then Pure.pure s else m) := by
  intro o n st ho
  have hw := beginCb_walks o n st ho
  cases hr : beginCb.run o n st with
  | mk s st' es =>
    rw [hr] at hw
    cases s with
    | some s =>
      rw [orReturn_failed hr]
      exact hw
    | none =>
      obtain ⟨cb, hcb⟩ := beginCb_begun ho (by rw [hr])
      rw [hr] at hcb
      rw [orReturn_ok hr]
      exact hw.trans (hm o _ st' cb ho hcb)

theorem recordCommand_steps {cb : Obj} (ho : Roomy o) (hcb : st.pendingCb = some cb)
    (command : Option Command) :
    Steps n st ((recordCommand command).run o n st).events
      ((recordCommand command).run o n st).state := by
  cases command with
  | none =>
    rw [recordCommand_null ho]
    exact steps_payload
  | some c =>
    cases hx : ok (happens o n (.commandBufferRecord (some cb) c)) with
    | false =>
      rw [recordCommand_notRecorded ho hcb hx]
      exact steps_reported [_] (.notRecorded hcb hx)
    | true =>
      cases hy : ok (happens o (n + 1) (.commandBufferRecord (some cb) .executionBarrier)) with
      | false =>
        rw [recordCommand_half ho hcb hx hy]
        exact steps_reported [_, _] (.half hcb hx hy)
      | true =>
        rw [recordCommand_recorded hcb hx hy]
        exact .one (.recorded hcb hx hy)

theorem record_walks (command : Option Command) : Walks (record command) :=
  .afterBegin fun _ _ _ _ ho hcb ↦ recordCommand_steps ho hcb command

theorem recordBarrier_steps {cb : Obj} (ho : Roomy o) (hcb : st.pendingCb = some cb) :
    Steps n st (recordBarrier.run o n st).events (recordBarrier.run o n st).state := by
  cases hx : ok (happens o n (.commandBufferRecord (some cb) .executionBarrier)) with
  | false =>
    rw [recordBarrier_notRecorded ho hcb hx]
    exact steps_reported [_] (.notRecorded hcb hx)
  | true =>
    rw [recordBarrier_recorded hcb hx]
    exact .one (.barriered hcb hx)

theorem executionBarrier_walks : Walks executionBarrier :=
  .afterBegin fun _ _ _ _ ho hcb ↦ recordBarrier_steps ho hcb

theorem queueBarrier_walks (sem : SemaphorePtr) (value : ℕ) : Walks (queueBarrier sem value) := by
  intro o n st ho
  cases hx : ok (happens o n (barrierCall st ⟨sem.hal, value⟩)) with
  | false =>
    rw [queueBarrier_rejected ho hx]
    exact steps_reported [_] (.barred hx)
  | true =>
    rw [queueBarrier_accepted hx]
    exact .one (.joined hx)

theorem waitOn_walks (sem : SemaphorePtr) (value : ℕ) : Walks (waitOn sem value) :=
  flushInner_walks.bind fun _ ↦ .ite (.pure _) (queueBarrier_walks sem value)

theorem synchronize_walks : Walks synchronize :=
  flushInner_walks.bind fun _ ↦ .ite (.pure _) (.of_aside wait_aside)

theorem abandonAlloca_aside (rawBuffer : Option Obj) (rawPool : Option PoolPtr)
    (status : IreeStatus) :
    Aside (fun c ↦ quiet c = true) (abandonAlloca rawBuffer rawPool status) :=
  .bind (.call rfl) fun _ ↦ .bind (halPoolRelease_aside rawPool) fun _ ↦
    .bind (hrxStatusFromIree_aside status) fun _ ↦ .pure _

theorem queueAlloca_walks (shared : SharedState) (params : BufferParams) (size : ℕ) :
    Walks (queueAlloca shared params size) := by
  intro o n st ho
  obtain ⟨hs, he⟩ := hrxIreeExactPoolCreate_aside shared st.device.halAllocator params o n st
  cases hp : (hrxIreeExactPoolCreate shared st.device.halAllocator params).run o n st with
  | mk r st' es =>
    rw [hp] at hs he
    obtain ⟨status, pool⟩ := r
    obtain rfl : st' = st := hs
    cases pool with
    | none =>
      rw [queueAlloca_noPool hp]
      exact (steps_of_quiet he).trans (steps_of_aside (abandonAlloca_aside _ _ _))
    | some pool =>
      cases hx : ok (happens o (n + es.length) (allocaCall st' pool.addr params size)) with
      | false =>
        have hsmall : Small (n + es.length) st'
            [happens o (n + es.length) (allocaCall st' pool.addr params size)] st' :=
            .notAllocated hx
        rw [queueAlloca_notAllocated hp hx, Outcome.after_events, Outcome.after_state]
        exact ((steps_of_quiet he).snoc hsmall).trans (steps_of_aside (abandonAlloca_aside _ _ _))
      | true =>
        cases hy : ok (happens o (n + es.length + 1) (allocaWait st')) with
        | false =>
          have hsmall : Small (n + es.length) st'
              [happens o (n + es.length) (allocaCall st' pool.addr params size),
                happens o (n + es.length + 1) (allocaWait st')] st' := .lost hx hy
          rw [queueAlloca_lost hp hx hy, Outcome.after_events, Outcome.after_state]
          exact ((steps_of_quiet he).snoc hsmall).trans (steps_of_aside (abandonAlloca_aside _ _ _))
        | true =>
          rw [queueAlloca_allocated hp hx hy]
          exact (steps_of_quiet he).snoc (.allocated hx hy)

theorem bufferAllocate_walks (shared : SharedState) (size memType usage : ℕ) :
    Walks (bufferAllocate shared size memType usage) := by
  have herr :
      Walks (hrxError .invalidArgument "buffer params are not allocatable on this device") :=
    .of_aside (hrxError_aside _ _)
  refine .bind (.of_aside .state) fun _ ↦ .bind (.of_aside (.call rfl)) fun _ ↦ .ite ?_ ?_
  · exact herr.bind fun _ ↦ .pure _
  · exact flushInner_walks.bind fun _ ↦ .ite (.pure _) (queueAlloca_walks shared _ size)

theorem awaitTimeline_aside : Aside (fun c ↦ quiet c = true) awaitTimeline :=
  .bind .state fun _ ↦ .ite (.bind (hrxSemaphoreWait_aside _ _ _) fun _ ↦ .pure _) (.pure _)

/-- Settling a stream is one small step, or none, and some calls aside. -/
theorem settle_small (ho : Roomy o) (n : ℕ) (st : HrxStreamS) :
    ∃ es fs, (settle.run o n st).events = es ++ fs ∧ (∀ e ∈ fs, quiet e.call = true) ∧
      (es = [] ∧ (settle.run o n st).state = st ∨ Small n st es (settle.run o n st).state) ∧
      ((∀ e ∈ es, ok e = true) → (settle.run o n st).state.hasPendingWork = false ∨
        (settle.run o n st).state.pendingCb = none) := by
  cases hw : st.hasPendingWork with
  | false =>
    have hr : settle.run o n st = awaitTimeline.run o n st := by simp [settle, hw]
    obtain ⟨hs, he⟩ := awaitTimeline_aside o n st
    rw [hr, show (awaitTimeline.run o n st).state = st from hs]
    exact ⟨[], _, rfl, he, .inl ⟨rfl, rfl⟩, fun _ ↦ .inl hw⟩
  | true =>
    have hr : settle.run o n st = (awaitTimeline.run o (n + (flushInner.run o n st).events.length)
        (flushInner.run o n st).state).after (flushInner.run o n st).events := by simp [settle, hw]
    obtain ⟨es, fs, hes, hq, hsmall, hdone⟩ := flushInner_small ho n st
    obtain ⟨hs, he⟩ := awaitTimeline_aside o (n + (flushInner.run o n st).events.length)
      (flushInner.run o n st).state
    rw [hr, Outcome.after_events, Outcome.after_state,
      show (awaitTimeline.run o _ (flushInner.run o n st).state).state = _ from hs]
    refine ⟨es, fs ++ (awaitTimeline.run o (n + (flushInner.run o n st).events.length)
      (flushInner.run o n st).state).events, ?_, ?_, hsmall, hdone⟩
    · rw [← List.append_assoc, ← hes]
    · intro e hmem
      exact (List.mem_append.mp hmem).elim (hq e) (he e)

def leftover (o : Outside) (n : ℕ) (st : HrxStreamS) : Trace :=
  match st.pendingCb with
  | none => []
  | some cb => [happens o n (.commandBufferRelease (some cb))]

end HrxSystem.Libhrx
