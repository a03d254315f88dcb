import HrxSystem.Counting.Heap
import HrxSystem.Libhrx.Common

namespace HrxSystem.Libhrx

open External Program Counting

/-- A non-null `hrx_device_t`. Like the other pointers below it carries the
fields of its object that are fixed for the object's whole life. -/
structure DevicePtr where
  addr : ℕ
  halDevice : Obj
  halAllocator : Obj
  halDeviceGroup : Obj
deriving DecidableEq

structure SemaphorePtr where
  addr : ℕ
  hal : Obj
deriving DecidableEq

/-- The NULL pointer as the field of an object. Only a stream made after a lost error has it, and
runs leave such a stream alone. -/
def SemaphorePtr.null : SemaphorePtr := ⟨0, 0⟩

structure BufferPtr where
  addr : ℕ
  hal : Obj
deriving DecidableEq

structure ExecutablePtr where
  addr : ℕ
  hal : Obj
deriving DecidableEq

structure ModulePtr where
  addr : ℕ
  context : Obj
deriving DecidableEq

/-- A non-null `iree_hal_pool_t` made by `hrx_iree_exact_pool_create`. -/
structure PoolPtr where
  addr : Obj
  allocator : Obj
  params : BufferParams
  notification : Obj
deriving DecidableEq

abbrev HrxDevice := Option DevicePtr
abbrev HrxSemaphore := Option SemaphorePtr
abbrev HrxBuffer := Option BufferPtr
abbrev HrxExecutable := Option ExecutablePtr
abbrev HrxModule := Option ModulePtr

abbrev HrxStream := Option ℕ
abbrev HrxFunction := Option ℕ

structure HrxDeviceS where
  type : ℤ
  ordinal : ℕ
  halAllocator : Obj
  halDeviceGroup : Obj
  halDevice : Obj
  name : List UInt8
  architecture : List UInt8
deriving DecidableEq

structure HrxSemaphoreS where
  hal : Obj
  device : DevicePtr
deriving DecidableEq

structure HrxStreamS where
  timepoint : ℕ
  pendingCb : Option Obj
  hasPendingWork : Bool
  flags : ℕ
  semaphore : SemaphorePtr
  device : DevicePtr
deriving DecidableEq

structure MappedRange where
  mapping : Obj
  ptr : ℕ
deriving DecidableEq

structure HrxBufferS where
  map : Option MappedRange
  halBuffer : Obj
  halPool : Option PoolPtr
  device : DevicePtr
  memType : ℕ
  size : ℕ
deriving DecidableEq

structure HrxExecutableS where
  halExecutable : Obj
  halExecutableCache : Obj
  device : DevicePtr
deriving DecidableEq

structure HrxModuleS where
  context : Obj
  halModule : Obj
  bytecodeModule : Obj
  device : DevicePtr
deriving DecidableEq

structure HrxFunctionS where
  module_ : ModulePtr
  vmFunction : ℕ
deriving DecidableEq

inductive HostAllocator
  | null | system
deriving DecidableEq

structure SharedState where
  vmInstance : Option Obj
  proactorPool : Option Obj
  hostAllocator : HostAllocator
  initCount : ℤ
  initialized : Bool
deriving DecidableEq

/-- `CpuState` and `GpuState`, which have the same fields. -/
structure Accelerator where
  devices : List DevicePtr
  deviceCount : ℤ
  initialized : Bool
  driver : Option Obj
deriving DecidableEq

structure Globals where
  shared : SharedState
  cpu : Accelerator
  gpu : Accelerator
  poolForDevice : Option Obj
deriving DecidableEq

/-- Everything the library keeps: the statics, and the objects behind the
handles it gave out. -/
structure Memory where
  globals : Globals
  devices : Heap HrxDeviceS
  semaphores : Heap HrxSemaphoreS
  streams : Heap HrxStreamS
  buffers : Heap HrxBufferS
  executables : Heap HrxExecutableS
  modules : Heap HrxModuleS
  functions : Heap HrxFunctionS

def Memory.initial : Memory where
  globals := {
    shared := ⟨none, none, .null, 0, false⟩
    cpu := ⟨[], 0, false, none⟩
    gpu := ⟨[], 0, false, none⟩
    poolForDevice := none }
  devices := .empty
  semaphores := .empty
  streams := .empty
  buffers := .empty
  executables := .empty
  modules := .empty
  functions := .empty

/-- What a call wrote through its out pointer, or that it panicked, which ends the process. -/
inductive Written
  | nothing
  | flag (b : Bool)
  | number (v : ℕ)
  | count (n : ℤ)
  | device (d : DevicePtr)
  | semaphore (s : SemaphorePtr)
  | point (s : SemaphorePtr) (v : ℕ)
  | stream (a : ℕ)
  | buffer (b : BufferPtr)
  | executable (x : ExecutablePtr)
  | module_ (m : ModulePtr)
  | function (a : ℕ)
  | pointer (p : ℕ)
  | panicked
deriving DecidableEq

structure Returned where
  status : HrxStatus
  written : Written
deriving DecidableEq

def u64Add (a b : ℕ) : ℕ := (a + b) % 2 ^ 64

end HrxSystem.Libhrx
