import HrxSystem.Libhrx.Stream

namespace HrxSystem.Libhrx

open External Program Counting HrxStreamS

variable {o : Outside} {n : ℕ} {st : HrxStreamS} {cb : Obj} {α : Type}

def advanced (st : HrxStreamS) : HrxStreamS := { st with timepoint := u64Add st.timepoint 1 }

def flushed (st : HrxStreamS) : HrxStreamS :=
  { advanced st with pendingCb := none, hasPendingWork := false }

def createCall (st : HrxStreamS) : Call := .commandBufferCreate st.device.halDevice 3 affinityAny

def executeCall (st : HrxStreamS) (cb : Obj) : Call :=
  .queueExecute st.device.halDevice affinityAny st.waitList st.signalList (some cb)

def barrierCall (st : HrxStreamS) (p : SemaphorePoint) : Call :=
  .queueBarrier st.device.halDevice affinityAny [p] st.signalList

def allocaCall (st : HrxStreamS) (pool : Obj) (params : BufferParams) (size : ℕ) : Call :=
  .queueAlloca st.device.halDevice st.waitList st.signalList pool params size

def allocaWait (st : HrxStreamS) : Call :=
  .semaphoreWait ⟨st.semaphore.hal, u64Add st.timepoint 1⟩ .infinite

section BeginCb

theorem beginCb_installed (hcb : st.pendingCb = some cb) : beginCb.run o n st = ⟨none, st, []⟩ := by
  simp [beginCb, hcb, hrxOkStatus]

theorem beginCb_notCreated (ho : Roomy o) (hcb : st.pendingCb = none)
    (hx : ok (happens o n (createCall st)) = false) :
    beginCb.run o n st = ⟨some (errorOf (happens o n (createCall st))), st,
      [happens o n (createCall st), payload o (n + 1)]⟩ := by
  unfold createCall at hx ⊢
  simp [beginCb, hcb, hx, run_hrxStatusFromIree ho hx]

theorem beginCb_notBegun (ho : Roomy o) (hcb : st.pendingCb = none)
    (hx : ok (happens o n (createCall st)) = true)
    (hy : ok (happens o (n + 1) (.commandBufferBegin (some n))) = false) :
    beginCb.run o n st = ⟨some (errorOf (happens o (n + 1) (.commandBufferBegin (some n)))), st,
      [happens o n (createCall st), happens o (n + 1) (.commandBufferBegin (some n)),
        happens o (n + 2) (.commandBufferRelease (some n)), payload o (n + 3)]⟩ := by
  have hst : { st with pendingCb := none } = st := by rw [← hcb]
  unfold createCall at hx ⊢
  simp [beginCb, hcb, hx, hy, run_hrxStatusFromIree ho hy, hst]

theorem beginCb_opened (hcb : st.pendingCb = none)
    (hx : ok (happens o n (createCall st)) = true)
    (hy : ok (happens o (n + 1) (.commandBufferBegin (some n))) = true) :
    beginCb.run o n st = ⟨none, { st with pendingCb := some n },
      [happens o n (createCall st), happens o (n + 1) (.commandBufferBegin (some n))]⟩ := by
  unfold createCall at hx ⊢
  simp [beginCb, hcb, hx, hy, hrxOkStatus]

end BeginCb

section FlushInner

theorem flushInner_idle (h : st.hasPendingWork = false ∨ st.pendingCb = none) :
    flushInner.run o n st = ⟨none, st, []⟩ := by
  rcases h with h | h <;> simp [flushInner, h, hrxOkStatus]

theorem flushInner_notEnded (ho : Roomy o) (hw : st.hasPendingWork = true)
    (hcb : st.pendingCb = some cb) (hx : ok (happens o n (.commandBufferEnd (some cb))) = false) :
    flushInner.run o n st = ⟨some (errorOf (happens o n (.commandBufferEnd (some cb)))), st,
      [happens o n (.commandBufferEnd (some cb)), payload o (n + 1)]⟩ := by
  simp [flushInner, hw, hcb, hx, run_hrxStatusFromIree ho hx]

theorem flushInner_rejected (ho : Roomy o) (hw : st.hasPendingWork = true)
    (hcb : st.pendingCb = some cb) (hx : ok (happens o n (.commandBufferEnd (some cb))) = true)
    (hy : ok (happens o (n + 1) (executeCall st cb)) = false) :
    flushInner.run o n st = ⟨some (errorOf (happens o (n + 1) (executeCall st cb))), st,
      [happens o n (.commandBufferEnd (some cb)), happens o (n + 1) (executeCall st cb),
        payload o (n + 2)]⟩ := by
  unfold executeCall at hy ⊢
  simp [flushInner, hw, hcb, hx, hy, run_hrxStatusFromIree ho hy]

theorem flushInner_executed (hw : st.hasPendingWork = true) (hcb : st.pendingCb = some cb)
    (hx : ok (happens o n (.commandBufferEnd (some cb))) = true)
    (hy : ok (happens o (n + 1) (executeCall st cb)) = true) :
    flushInner.run o n st = ⟨none, flushed st,
      [happens o n (.commandBufferEnd (some cb)), happens o (n + 1) (executeCall st cb),
        happens o (n + 2) (.commandBufferRelease (some cb))]⟩ := by
  unfold executeCall at hy ⊢
  simp [flushInner, hw, hcb, hx, hy, flushed, advanced, hrxOkStatus]

end FlushInner

section Recording

variable {c : Command}

theorem recordCommand_null (ho : Roomy o) :
    (recordCommand none).run o n st =
      ⟨some ⟨3, some "binding buffer is NULL"⟩, st, [payload o n]⟩ :=
  run_hrxError ho (by decide) _ n st

theorem recordCommand_notRecorded (ho : Roomy o) (hcb : st.pendingCb = some cb)
    (hx : ok (happens o n (.commandBufferRecord (some cb) c)) = false) :
    (recordCommand (some c)).run o n st =
      ⟨some (errorOf (happens o n (.commandBufferRecord (some cb) c))), st,
        [happens o n (.commandBufferRecord (some cb) c), payload o (n + 1)]⟩ := by
  simp [recordCommand, hcb, hx, run_hrxStatusFromIree ho hx]

theorem recordCommand_half (ho : Roomy o) (hcb : st.pendingCb = some cb)
    (hx : ok (happens o n (.commandBufferRecord (some cb) c)) = true)
    (hy : ok (happens o (n + 1) (.commandBufferRecord (some cb) .executionBarrier)) = false) :
    (recordCommand (some c)).run o n st =
      ⟨some (errorOf (happens o (n + 1) (.commandBufferRecord (some cb) .executionBarrier))), st,
        [happens o n (.commandBufferRecord (some cb) c),
          happens o (n + 1) (.commandBufferRecord (some cb) .executionBarrier),
          payload o (n + 2)]⟩ := by
  simp [recordCommand, recordOrderingBarrier, hcb, hx, hy, run_hrxStatusFromIree ho hy]

theorem recordCommand_recorded (hcb : st.pendingCb = some cb)
    (hx : ok (happens o n (.commandBufferRecord (some cb) c)) = true)
    (hy : ok (happens o (n + 1) (.commandBufferRecord (some cb) .executionBarrier)) = true) :
    (recordCommand (some c)).run o n st = ⟨none, { st with hasPendingWork := true },
        [happens o n (.commandBufferRecord (some cb) c),
          happens o (n + 1) (.commandBufferRecord (some cb) .executionBarrier)]⟩ := by
  simp [recordCommand, recordOrderingBarrier, hcb, hx, hy, hrxOkStatus]

theorem recordBarrier_notRecorded (ho : Roomy o) (hcb : st.pendingCb = some cb)
    (hx : ok (happens o n (.commandBufferRecord (some cb) .executionBarrier)) = false) :
    recordBarrier.run o n st =
      ⟨some (errorOf (happens o n (.commandBufferRecord (some cb) .executionBarrier))), st,
        [happens o n (.commandBufferRecord (some cb) .executionBarrier), payload o (n + 1)]⟩ := by
  simp [recordBarrier, hcb, hx, run_hrxStatusFromIree ho hx]

theorem recordBarrier_recorded (hcb : st.pendingCb = some cb)
    (hx : ok (happens o n (.commandBufferRecord (some cb) .executionBarrier)) = true) :
    recordBarrier.run o n st = ⟨none, { st with hasPendingWork := true },
        [happens o n (.commandBufferRecord (some cb) .executionBarrier)]⟩ := by
  simp [recordBarrier, hcb, hx, hrxOkStatus]

end Recording

section Joining

variable {sem : SemaphorePtr} {value : ℕ}

theorem queueBarrier_rejected (ho : Roomy o)
    (hx : ok (happens o n (barrierCall st ⟨sem.hal, value⟩)) = false) :
    (queueBarrier sem value).run o n st =
      ⟨some (errorOf (happens o n (barrierCall st ⟨sem.hal, value⟩))), st,
        [happens o n (barrierCall st ⟨sem.hal, value⟩), payload o (n + 1)]⟩ := by
  unfold barrierCall at hx ⊢
  simp [queueBarrier, hx, run_hrxStatusFromIree ho hx]

theorem queueBarrier_accepted
    (hx : ok (happens o n (barrierCall st ⟨sem.hal, value⟩)) = true) :
    (queueBarrier sem value).run o n st =
      ⟨none, advanced st, [happens o n (barrierCall st ⟨sem.hal, value⟩)]⟩ := by
  unfold barrierCall at hx ⊢
  simp [queueBarrier, hx, advanced, hrxOkStatus]

end Joining

section Allocating

variable {shared : SharedState} {params : BufferParams} {size : ℕ} {status : IreeStatus}
variable {pool : PoolPtr} {es : Trace}

theorem queueAlloca_noPool
    (hp : (hrxIreeExactPoolCreate shared st.device.halAllocator params).run o n st =
      ⟨(status, none), st, es⟩) :
    (queueAlloca shared params size).run o n st =
      ((abandonAlloca none none status).run o (n + es.length) st).after es := by
  simp [queueAlloca, hp]

theorem queueAlloca_notAllocated
    (hp : (hrxIreeExactPoolCreate shared st.device.halAllocator params).run o n st =
      ⟨(status, some pool), st, es⟩)
    (hx : ok (happens o (n + es.length) (allocaCall st pool.addr params size)) = false) :
    (queueAlloca shared params size).run o n st =
      ((abandonAlloca none (some pool)
        (happens o (n + es.length) (allocaCall st pool.addr params size)).answer.status).run o
        (n + es.length + 1) st).after
        (es ++ [happens o (n + es.length) (allocaCall st pool.addr params size)]) := by
  unfold allocaCall at hx ⊢
  simp [queueAlloca, hp, hx]

theorem queueAlloca_lost
    (hp : (hrxIreeExactPoolCreate shared st.device.halAllocator params).run o n st =
      ⟨(status, some pool), st, es⟩)
    (hx : ok (happens o (n + es.length) (allocaCall st pool.addr params size)) = true)
    (hy : ok (happens o (n + es.length + 1) (allocaWait st)) = false) :
    (queueAlloca shared params size).run o n st =
      ((abandonAlloca (some (n + es.length)) (some pool)
        (happens o (n + es.length + 1) (allocaWait st)).answer.status).run o
        (n + es.length + 2) st).after
        (es ++ [happens o (n + es.length) (allocaCall st pool.addr params size),
          happens o (n + es.length + 1) (allocaWait st)]) := by
  unfold allocaCall at hx ⊢
  unfold allocaWait at hy ⊢
  simp [queueAlloca, hp, hx, hy]

theorem queueAlloca_allocated
    (hp : (hrxIreeExactPoolCreate shared st.device.halAllocator params).run o n st =
      ⟨(status, some pool), st, es⟩)
    (hx : ok (happens o (n + es.length) (allocaCall st pool.addr params size)) = true)
    (hy : ok (happens o (n + es.length + 1) (allocaWait st)) = true) :
    (queueAlloca shared params size).run o n st =
      ⟨(none, some (n + es.length, pool)), advanced st,
        es ++ [happens o (n + es.length) (allocaCall st pool.addr params size),
          happens o (n + es.length + 1) (allocaWait st)]⟩ := by
  unfold allocaCall at hx ⊢
  unfold allocaWait at hy ⊢
  simp [queueAlloca, hp, hx, hy, advanced, hrxOkStatus]

end Allocating

section Sequencing

variable {m : Hrx HrxStreamS HrxStatus} {s : HrxStatusS} {st' : HrxStreamS} {es : Trace}

/-- `if !hrx_status_is_ok(s) { return s; }` after a program that failed. -/
theorem orReturn_failed {p : Hrx HrxStreamS HrxStatus} (h : p.run o n st = ⟨some s, st', es⟩) :
    (p >>= fun s ↦ if (!hrxStatusIsOk s) = true then pure s else m).run o n st =
      ⟨some s, st', es⟩ := by
  simp [h, hrxStatusIsOk]

theorem orReturn_ok {p : Hrx HrxStreamS HrxStatus} (h : p.run o n st = ⟨none, st', es⟩) :
    (p >>= fun s ↦ if (!hrxStatusIsOk s) = true then pure s else m).run o n st =
      (m.run o (n + es.length) st').after es := by
  simp [h, hrxStatusIsOk]

theorem record_eq (c : Option Command) : record c =
    (beginCb >>= fun s ↦ if (!hrxStatusIsOk s) = true then pure s else recordCommand c) := rfl

theorem executionBarrier_eq : executionBarrier =
    (beginCb >>= fun s ↦ if (!hrxStatusIsOk s) = true then pure s else recordBarrier) := rfl

theorem waitOn_eq (sem : SemaphorePtr) (value : ℕ) : waitOn sem value =
    (flushInner >>= fun s ↦ if (!hrxStatusIsOk s) = true then pure s else queueBarrier sem value) :=
  rfl

theorem synchronize_eq : synchronize =
    (flushInner >>= fun s ↦ if (!hrxStatusIsOk s) = true then pure s else wait) := rfl

end Sequencing

end HrxSystem.Libhrx
