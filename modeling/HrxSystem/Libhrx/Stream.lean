import HrxSystem.Libhrx.Pool
import HrxSystem.Libhrx.Semaphore

namespace HrxSystem.Libhrx

open External Program Counting

def affinityAny : ℕ := 2 ^ 64 - 1

namespace HrxStreamS

def beginCb : Hrx HrxStreamS HrxStatus := do
  let self ← state
  if self.pendingCb.isSome then return hrxOkStatus
  -- the categories are TRANSFER | DISPATCH
  let e ← call (.commandBufferCreate self.device.halDevice 3 affinityAny)
  if !ok e then return ← hrxStatusFromIree e.answer.status
  let b ← call (.commandBufferBegin (some e.pos))
  if !ok b then
    let _ ← call (.commandBufferRelease (some e.pos))
    update fun st ↦ { st with pendingCb := none }
    return ← hrxStatusFromIree b.answer.status
  update fun st ↦ { st with pendingCb := some e.pos }
  return hrxOkStatus

def recordOrderingBarrier : Hrx HrxStreamS Happened := do
  let self ← state
  call (.commandBufferRecord self.pendingCb .executionBarrier)

/-- `count: if tp > 0 { 1 } else { 0 }`: an untouched timeline has nothing to wait for. -/
def waitList (st : HrxStreamS) : List SemaphorePoint :=
  if st.timepoint > 0 then [⟨st.semaphore.hal, st.timepoint⟩] else []

def signalList (st : HrxStreamS) : List SemaphorePoint :=
  [⟨st.semaphore.hal, u64Add st.timepoint 1⟩]

def flushInner : Hrx HrxStreamS HrxStatus := do
  let self ← state
  if !self.hasPendingWork || self.pendingCb.isNone then return hrxOkStatus
  let cb := self.pendingCb
  let e ← call (.commandBufferEnd cb)
  if !ok e then return ← hrxStatusFromIree e.answer.status
  let x ← call (.queueExecute self.device.halDevice affinityAny self.waitList self.signalList cb)
  if !ok x then return ← hrxStatusFromIree x.answer.status
  update fun st ↦ { st with timepoint := u64Add st.timepoint 1 }
  let _ ← call (.commandBufferRelease cb)
  update fun st ↦ { st with pendingCb := none, hasPendingWork := false }
  return hrxOkStatus

def wait : Hrx HrxStreamS HrxStatus := do
  let st ← state
  if st.timepoint = 0 then return hrxOkStatus
  hrxSemaphoreWait (some st.semaphore) st.timepoint (2 ^ 64 - 1)

def synchronize : Hrx HrxStreamS HrxStatus := do
  let s ← flushInner
  if !hrxStatusIsOk s then return s
  wait

def awaitTimeline : Hrx HrxStreamS Unit := do
  let self ← state
  if self.timepoint > 0 then
    let _ ← hrxSemaphoreWait (some self.semaphore) self.timepoint (2 ^ 64 - 1)

/-- The first two steps of `Drop::drop`: flush pending work, wait on the timeline. -/
def settle : Hrx HrxStreamS Unit := do
  let self ← state
  if self.hasPendingWork then let _ ← flushInner
  awaitTimeline

def drop : Hrx HrxStreamS Unit := do
  settle
  let self ← state
  match self.pendingCb with
  | none => return ()
  | some cb => let _ ← call (.commandBufferRelease (some cb))

def query : Hrx HrxStreamS Returned := do
  let st ← state
  if st.timepoint = 0 then return ⟨hrxOkStatus, .flag true⟩
  let r ← hrxSemaphoreQuery (some st.semaphore) true
  if !hrxStatusIsOk r.1 then return ⟨r.1, .nothing⟩
  return ⟨hrxOkStatus, .flag (r.2.getD 0 ≥ st.timepoint)⟩

def advanceTimeline : Hrx HrxStreamS Returned := do
  update fun st ↦ { st with timepoint := u64Add st.timepoint 1 }
  let st ← state
  return ⟨hrxOkStatus, .number st.timepoint⟩

/-- `hrx_stream_wait_on` after its flush. -/
def queueBarrier (semaphore : SemaphorePtr) (value : ℕ) : Hrx HrxStreamS HrxStatus := do
  let st ← state
  let e ← call
      (.queueBarrier st.device.halDevice affinityAny [⟨semaphore.hal, value⟩] st.signalList)
  if !ok e then return ← hrxStatusFromIree e.answer.status
  update fun st ↦ { st with timepoint := u64Add st.timepoint 1 }
  return hrxOkStatus

def waitOn (semaphore : SemaphorePtr) (value : ℕ) : Hrx HrxStreamS HrxStatus := do
  let s ← flushInner
  if !hrxStatusIsOk s then return s
  queueBarrier semaphore value

/-- A recording op after `begin_cb`: the command, then its ordering barrier.
The command is `none` when a binding buffer of a dispatch is NULL. -/
def recordCommand (command : Option Command) : Hrx HrxStreamS HrxStatus :=
  match command with
  | none => hrxError .invalidArgument "binding buffer is NULL"
  | some c => do
    let self ← state
    let e ← call (.commandBufferRecord self.pendingCb c)
    if !ok e then return ← hrxStatusFromIree e.answer.status
    let b ← recordOrderingBarrier
    if !ok b then return ← hrxStatusFromIree b.answer.status
    update fun st ↦ { st with hasPendingWork := true }
    return hrxOkStatus

/-- The shared body of the recording ops that end with an ordering barrier. -/
def record (command : Option Command) : Hrx HrxStreamS HrxStatus := do
  let s ← beginCb
  if !hrxStatusIsOk s then return s
  recordCommand command

def recordBarrier : Hrx HrxStreamS HrxStatus := do
  let self ← state
  let e ← call (.commandBufferRecord self.pendingCb .executionBarrier)
  if !ok e then return ← hrxStatusFromIree e.answer.status
  update fun st ↦ { st with hasPendingWork := true }
  return hrxOkStatus

def executionBarrier : Hrx HrxStreamS HrxStatus := do
  let s ← beginCb
  if !hrxStatusIsOk s then return s
  recordBarrier

/-- The failure exit of `hrx_buffer_allocate` after the pool was asked for. -/
def abandonAlloca (rawBuffer : Option Obj) (rawPool : Option PoolPtr) (status : IreeStatus) :
    Hrx HrxStreamS (HrxStatus × Option (Obj × PoolPtr)) := do
  let _ ← call (.bufferRelease rawBuffer)
  halPoolRelease rawPool
  return (← hrxStatusFromIree status, none)

/-- `hrx_buffer_allocate` after its flush, up to the wrapping of the new buffer
and pool into a handle. -/
def queueAlloca (shared : SharedState) (params : BufferParams) (size : ℕ) :
    Hrx HrxStreamS (HrxStatus × Option (Obj × PoolPtr)) := do
  let st ← state
  let p ← hrxIreeExactPoolCreate shared st.device.halAllocator params
  match p.2 with
  | none => abandonAlloca none none p.1
  | some pool => do
    let a ← call (.queueAlloca st.device.halDevice st.waitList st.signalList pool.addr params size)
    if !ok a then return ← abandonAlloca none (some pool) a.answer.status
    let w ← call (.semaphoreWait ⟨st.semaphore.hal, u64Add st.timepoint 1⟩ .infinite)
    if !ok w then return ← abandonAlloca (some a.pos) (some pool) w.answer.status
    update fun st ↦ { st with timepoint := u64Add st.timepoint 1 }
    return (hrxOkStatus, some (a.pos, pool))

/-- `hrx_buffer_allocate` on its stream, after the argument checks.
`IREE_HAL_MEMORY_ACCESS_ALL` is 7, and the lowest bit of the compatibility
means allocatable. -/
def bufferAllocate (shared : SharedState) (size memType usage : ℕ) :
    Hrx HrxStreamS (HrxStatus × Option (Obj × PoolPtr)) := do
  let self ← state
  let params : BufferParams := ⟨usage, 7, memType, 0, 0⟩
  let q ← call (.allocatorQueryBufferCompatibility self.device.halAllocator params size)
  if q.answer.value % 2 = 0 then
    return (← hrxError .invalidArgument "buffer params are not allocatable on this device", none)
  let flushStatus ← flushInner
  if !hrxStatusIsOk flushStatus then return (flushStatus, none)
  queueAlloca shared (q.answer.params.getD params) size

end HrxStreamS

end HrxSystem.Libhrx
