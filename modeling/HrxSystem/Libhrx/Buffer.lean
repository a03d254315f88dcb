import HrxSystem.Libhrx.StreamApi

namespace HrxSystem.Libhrx

open External Program Counting

structure HrxBufferParams where
  type : ℕ
  access : ℕ
  usage : ℕ
  queueAffinity : ℕ
deriving DecidableEq

def HrxBufferParams.toHal (params : HrxBufferParams) : BufferParams :=
  ⟨params.usage, params.access, params.type, params.queueAffinity, 0⟩

/-- `hrx_allocator_t` points into its device. -/
abbrev HrxAllocator := HrxDevice

def hrxAllocatorRetain (allocator : DevicePtr) : Hrx Memory Unit := do
  let _ ← call (.allocatorRetain allocator.halAllocator)
  hrxDeviceRetain allocator.addr

def hrxAllocatorRelease (allocator : DevicePtr) : Hrx Memory Unit := do
  let _ ← call (.allocatorRelease allocator.halAllocator)
  hrxDeviceRelease allocator.addr

/-- The end of the allocating entry points: `s` is the event of the IREE call that made the
buffer. -/
def wrapBuffer (allocator : DevicePtr) (s : Happened) (memType size : ℕ) : Hrx Memory Returned := do
  if !ok s then return ⟨← hrxStatusFromIree s.answer.status, .nothing⟩
  hrxDeviceRetain allocator.addr
  let a ← intoHandle .buffers ⟨none, s.pos, none, allocator, memType, size⟩
  return ⟨hrxOkStatus, .buffer ⟨a, s.pos⟩⟩

def hrxAllocatorAllocateBuffer (allocator : HrxAllocator) (params : HrxBufferParams) (size : ℕ)
    (buffer : Bool) : Hrx Memory Returned :=
  match allocator, buffer with
  | some al, true => do
    let s ← call (.allocatorAllocateBuffer al.halAllocator params.toHal size)
    wrapBuffer al s params.type size
  | _, _ => return ⟨← hrxError .invalidArgument "allocator or buffer is NULL", .nothing⟩

def hrxAllocatorImportBuffer (allocator : HrxAllocator) (params : HrxBufferParams)
    (hostPtr : Option ℕ) (size : ℕ) (buffer : Bool) : Hrx Memory Returned :=
  match allocator, hostPtr, buffer with
  | some al, some p, true => do
    let s ← call (.allocatorImportBuffer al.halAllocator params.toHal p size)
    wrapBuffer al s params.type size
  | _, _, _ =>
    return ⟨← hrxError .invalidArgument "allocator, host_ptr, or buffer is NULL", .nothing⟩

/-- The memory type is `HRX_MEMORY_TYPE_DEVICE_LOCAL`. -/
def hrxAllocatorVirtualMemoryReserve (allocator : HrxAllocator) (affinity size : ℕ)
    (virtualBuffer : Bool) :
    Hrx Memory Returned :=
  match allocator, virtualBuffer with
  | some al, true => do
    let s ← call (.virtualMemoryReserve al.halAllocator affinity size)
    wrapBuffer al s 0x30 size
  | _, _ => return ⟨← hrxError .invalidArgument "NULL argument", .nothing⟩

namespace HrxBufferS

def dropMap (map : Option MappedRange) : Hrx Memory Unit := do
  match map with
  | none => return ()
  | some m => let _ ← call (.bufferUnmapRange m.mapping)

def dropPool (pool : Option PoolPtr) : Hrx Memory Unit := do
  match pool with
  | none => return ()
  | some p => halPoolRelease (some p)

/-- The fields of `HrxBufferS` in the order they are dropped. -/
def drop (buffer : HrxBufferS) : Hrx Memory Unit := do
  dropMap buffer.map
  let _ ← call (.bufferRelease (some buffer.halBuffer))
  dropPool buffer.halPool
  hrxDeviceRelease buffer.device.addr

def accessOf (flags : ℕ) : ℕ :=
  (if flags.testBit 0 then 1 else 0) ||| (if flags.testBit 1 then 2 else 0) |||
    (if flags.testBit 2 then 6 else 0)

def mapRange (flags offset size : ℕ) : Hrx HrxBufferS Returned := do
  let buf ← state
  if buf.map.isSome then
    return ⟨← hrxError .failedPrecondition "buffer is already mapped", .nothing⟩
  let s ← call (.bufferMapRange buf.halBuffer (accessOf flags) offset size)
  if !ok s then return ⟨← hrxStatusFromIree s.answer.status, .nothing⟩
  update fun buf ↦ { buf with map := some ⟨s.pos, s.answer.value⟩ }
  return ⟨hrxOkStatus, .pointer s.answer.value⟩

def unmap : Hrx HrxBufferS Returned := do
  let buf ← state
  update fun buf ↦ { buf with map := none }
  match buf.map with
  | none => return ⟨hrxOkStatus, .nothing⟩
  | some m => do
    let s ← call (.bufferUnmapRange m.mapping)
    return ⟨← hrxStatusFromIree s.answer.status, .nothing⟩

def getDevicePtr : Hrx HrxBufferS Returned := do
  let buf ← state
  match buf.map with
  | some m => return ⟨hrxOkStatus, .pointer m.ptr⟩
  | none => do
    let s ← call (.bufferMapRange buf.halBuffer 7 0 buf.size)
    if ok s then
      update fun buf ↦ { buf with map := some ⟨s.pos, s.answer.value⟩ }
      return ⟨hrxOkStatus, .pointer s.answer.value⟩
    return ⟨← hrxError .unavailable "cannot get device pointer for this buffer type", .pointer 0⟩

end HrxBufferS

/-- `handle_ref` of a live buffer handle, as `onStream` is for streams. -/
def onBuffer (a : ℕ) (m : Hrx HrxBufferS Returned) : Hrx Memory Returned := do
  let mem ← state
  match mem.buffers.cell a with
  | none => return ⟨none, .nothing⟩
  | some arc =>
    focus arc.data (fun buf mem ↦ { mem with buffers := mem.buffers.modify a fun _ ↦ buf }) m

def hrxBufferMap (buffer : HrxBuffer) (flags offset size : ℕ) (mappedPtr : Bool) :
    Hrx Memory Returned :=
  match buffer, mappedPtr with
  | some b, true => onBuffer b.addr (HrxBufferS.mapRange flags offset size)
  | _, _ => return ⟨← hrxError .invalidArgument "buffer or mapped_ptr is NULL", .nothing⟩

def hrxBufferUnmap (buffer : HrxBuffer) : Hrx Memory Returned :=
  match buffer with
  | some b => onBuffer b.addr HrxBufferS.unmap
  | none => return ⟨← hrxError .invalidArgument "buffer is NULL", .nothing⟩

def hrxBufferGetDevicePtr (buffer : HrxBuffer) (devicePtr : Bool) : Hrx Memory Returned :=
  match buffer, devicePtr with
  | some b, true => onBuffer b.addr HrxBufferS.getDevicePtr
  | _, _ => return ⟨← hrxError .invalidArgument "buffer or device_ptr is NULL", .nothing⟩

def hrxBufferRetain (buffer : ℕ) : Hrx Memory Unit := handleRetain .buffers buffer

def hrxBufferRelease (buffer : ℕ) : Hrx Memory Unit := do
  match ← handleRelease .buffers buffer with
  | none => return ()
  | some b => b.drop

/-- `hrx_allocator_virtual_memory_release` with the object taken out of its `Arc`. -/
def releaseVirtual (allocator : DevicePtr) (inner : HrxBufferS) : Hrx Memory Returned := do
  HrxBufferS.dropMap inner.map
  HrxBufferS.dropPool inner.halPool
  let s ← call (.virtualMemoryRelease allocator.halAllocator inner.halBuffer)
  hrxDeviceRelease inner.device.addr
  return ⟨← hrxStatusFromIree s.answer.status, .nothing⟩

/-- `into_inner_handle` gives the object out if the handle was its last reference, and the call
panics if it was not. -/
def hrxAllocatorVirtualMemoryRelease (allocator : HrxAllocator) (virtualBuffer : HrxBuffer) :
    Hrx Memory Returned :=
  match allocator, virtualBuffer with
  | some al, some b => do
    match ← handleRelease .buffers b.addr with
    | none => return ⟨none, .panicked⟩
    | some inner => releaseVirtual al inner
  | _, _ => return ⟨← hrxError .invalidArgument "NULL argument", .nothing⟩

end HrxSystem.Libhrx
