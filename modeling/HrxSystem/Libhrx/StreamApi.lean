import HrxSystem.Libhrx.Stream

namespace HrxSystem.Libhrx

open External Program Counting HrxStreamS

variable {α : Type}

/-- `handle_ref`: run a program on the object behind a live stream handle. A
handle that is not live is outside the contract, and nothing happens. -/
def onStream (a : ℕ) (dead : α) (m : Hrx HrxStreamS α) : Hrx Memory α := do
  let mem ← state
  match mem.streams.cell a with
  | none => return dead
  | some arc =>
    focus arc.data (fun st mem ↦ { mem with streams := mem.streams.modify a fun _ ↦ st }) m

def hrxStreamFlush (stream : HrxStream) : Hrx Memory HrxStatus :=
  match stream with
  | some st => onStream st none flushInner
  | none => hrxError .invalidArgument "stream is NULL"

def hrxStreamSynchronize (stream : HrxStream) : Hrx Memory HrxStatus :=
  match stream with
  | some st => onStream st none synchronize
  | none => hrxError .invalidArgument "stream is NULL"

def hrxStreamWait (stream : HrxStream) : Hrx Memory HrxStatus :=
  match stream with
  | some st => onStream st none wait
  | none => hrxError .invalidArgument "stream is NULL"

def hrxStreamQuery (stream : HrxStream) (complete : Bool) : Hrx Memory Returned :=
  match stream, complete with
  | some st, true => onStream st ⟨none, .nothing⟩ query
  | _, _ => return ⟨← hrxError .invalidArgument "stream or complete is NULL", .nothing⟩

def hrxStreamGetSemaphore (stream : HrxStream) (semaphore : Bool) : Hrx Memory Returned :=
  match stream, semaphore with
  | some st, true =>
    onStream st ⟨none, .nothing⟩ do return ⟨hrxOkStatus, .semaphore (← state).semaphore⟩
  | _, _ => return ⟨← hrxError .invalidArgument "stream or semaphore is NULL", .nothing⟩

def hrxStreamGetDevice (stream : HrxStream) (device : Bool) : Hrx Memory Returned :=
  match stream, device with
  | some st, true => onStream st ⟨none, .nothing⟩ do return ⟨hrxOkStatus, .device (← state).device⟩
  | _, _ => return ⟨← hrxError .invalidArgument "stream or device is NULL", .nothing⟩

def hrxStreamGetTimelinePosition (stream : HrxStream) (position : Bool) : Hrx Memory Returned :=
  match stream, position with
  | some st, true => onStream st ⟨none, .nothing⟩ do
    let st ← state
    return ⟨hrxOkStatus, .point st.semaphore st.timepoint⟩
  | _, _ => return ⟨← hrxError .invalidArgument "stream or position is NULL", .nothing⟩

def hrxStreamAdvanceTimeline (stream : HrxStream) (value : Bool) : Hrx Memory Returned :=
  match stream, value with
  | some st, true => onStream st ⟨none, .nothing⟩ advanceTimeline
  | _, _ => return ⟨← hrxError .invalidArgument "stream or value is NULL", .nothing⟩

structure HrxTimelinePoint where
  semaphore : HrxSemaphore
  value : ℕ
deriving DecidableEq

def hrxStreamWaitOn (stream : HrxStream) (position : HrxTimelinePoint) : Hrx Memory HrxStatus :=
  match stream, position.semaphore with
  | none, _ => hrxError .invalidArgument "stream is NULL"
  | some _, none => hrxError .invalidArgument "position semaphore is NULL"
  | some st, some sem => onStream st none (waitOn sem position.value)

def hrxStreamFillBuffer (stream : HrxStream) (buffer : HrxBuffer) (offset size : ℕ)
    (pattern : Option ℕ) (patternSize : ℕ) : Hrx Memory HrxStatus :=
  match stream, buffer, pattern with
  | some st, some buf, some p =>
    onStream st none (record (some (.fillBuffer ⟨buf.hal, offset, size⟩ p patternSize)))
  | _, _, _ => hrxError .invalidArgument "stream, buffer, or pattern is NULL"

def hrxStreamCopyBuffer (stream : HrxStream) (src : HrxBuffer) (srcOffset : ℕ) (dst : HrxBuffer)
    (dstOffset size : ℕ) : Hrx Memory HrxStatus :=
  match stream, src, dst with
  | some st, some s, some d =>
    onStream st none (record (some (.copyBuffer ⟨s.hal, srcOffset, size⟩ ⟨d.hal, dstOffset, size⟩)))
  | _, _, _ => hrxError .invalidArgument "stream, src, or dst is NULL"

def hrxStreamUpdateBuffer (stream : HrxStream) (hostData : Option ℕ) (hostDataSize : ℕ)
    (dst : HrxBuffer) (dstOffset : ℕ) : Hrx Memory HrxStatus :=
  match stream, hostData, dst with
  | some st, some h, some d =>
    onStream st none (record (some (.updateBuffer h ⟨d.hal, dstOffset, hostDataSize⟩)))
  | _, _, _ => hrxError .invalidArgument "stream, host_data, or dst is NULL"

def hrxStreamExecutionBarrier (stream : HrxStream) : Hrx Memory HrxStatus :=
  match stream with
  | some st => onStream st none executionBarrier
  | none => hrxError .invalidArgument "stream is NULL"

structure HrxBufferRef where
  buffer : HrxBuffer
  offset : ℕ
  length : ℕ
deriving DecidableEq

structure HrxDispatchConfig where
  workgroupCount : ℕ × ℕ × ℕ
  workgroupSize : ℕ × ℕ × ℕ
  subgroupSize : ℕ
deriving DecidableEq

/-- `build_hal_bindings`: nothing when a binding buffer is NULL. -/
def buildHalBindings (bindings : ℕ → HrxBufferRef) (bindingCount : ℕ) : Option (List BufferRef) :=
  (List.range bindingCount).mapM fun i ↦
    (bindings i).buffer.map fun b ↦ ⟨b.hal, (bindings i).offset, (bindings i).length⟩

/-- The arguments of `hrx_stream_dispatch` after the stream. The binding array
is read at the indices below `bindingCount`. -/
structure DispatchArgs where
  executable : HrxExecutable
  exportOrdinal : ℕ
  config : Option HrxDispatchConfig
  constants : Option ℕ
  constantsSize : ℕ
  bindings : Option (ℕ → HrxBufferRef)
  bindingCount : ℕ
  flags : ℕ

def DispatchArgs.command (x : DispatchArgs) (executable : ExecutablePtr)
    (config : HrxDispatchConfig) :
    Option Command :=
  let bindings := match x.bindings with
    | none => some []
    | some b => buildHalBindings b x.bindingCount
  bindings.map fun bs ↦ .dispatch executable.hal x.exportOrdinal
    ⟨config.workgroupSize, config.workgroupCount⟩ x.constants x.constantsSize bs x.flags

def hrxStreamDispatch (stream : HrxStream) (x : DispatchArgs) : Hrx Memory HrxStatus :=
  match stream, x.executable, x.config with
  | some st, some executable, some config =>
    if (x.bindingCount > 0 ∧ x.bindings.isNone) ∨ (x.constantsSize > 0 ∧ x.constants.isNone) then
      hrxError .invalidArgument "stream, executable, config, constants, or bindings are invalid"
    else onStream st none (record (x.command executable config))
  | _, _, _ =>
    hrxError .invalidArgument "stream, executable, config, constants, or bindings are invalid"

/-- `hrx_stream_create` once it asked for the semaphore. An error of the status
malloc leaves the guard holding the NULL semaphore. -/
def streamOn (dev : DevicePtr) (flags : ℕ) (st : HrxStatus) (sem : HrxSemaphore) :
    Hrx Memory Returned := do
  if !hrxStatusIsOk st then
    hrxDeviceRelease dev.addr
    return ⟨st, .nothing⟩
  let a ← intoHandle .streams ⟨0, none, false, flags, sem.getD .null, dev⟩
  return ⟨hrxOkStatus, .stream a⟩

def hrxStreamCreate (device : HrxDevice) (flags : ℕ) (stream : Bool) : Hrx Memory Returned :=
  match device, stream with
  | some dev, true => do
    hrxDeviceRetain dev.addr
    let r ← hrxSemaphoreCreate device 0 true
    streamOn dev flags r.1 r.2
  | _, _ => return ⟨← hrxError .invalidArgument "device or stream is NULL", .nothing⟩

def hrxStreamRetain (stream : ℕ) : Hrx Memory Unit := handleRetain .streams stream

def hrxStreamRelease (stream : ℕ) : Hrx Memory Unit := do
  match ← handleRelease .streams stream with
  | none => return ()
  | some st => do
    focus st (fun _ mem ↦ mem) HrxStreamS.drop
    hrxSemaphoreRelease st.semaphore.addr
    hrxDeviceRelease st.device.addr

def hrxBufferAllocate (stream : HrxStream) (size memType usage : ℕ) (buffer : Bool) :
    Hrx Memory Returned :=
  match stream, buffer with
  | some st, true => do
    if size = 0 then return ⟨← hrxError .invalidArgument "allocation size must be > 0", .nothing⟩
    let mem ← state
    let r ← onStream st (none, none) (bufferAllocate mem.globals.shared size memType usage)
    match r.2, mem.streams.cell st with
    | some (halBuffer, pool), some arc => do
      hrxDeviceRetain arc.data.device.addr
      let a ← intoHandle .buffers ⟨none, halBuffer, some pool, arc.data.device, memType, size⟩
      return ⟨r.1, .buffer ⟨a, halBuffer⟩⟩
    | _, _ => return ⟨r.1, .nothing⟩
  | _, _ => return ⟨← hrxError .invalidArgument "stream or buffer is NULL", .nothing⟩

end HrxSystem.Libhrx
