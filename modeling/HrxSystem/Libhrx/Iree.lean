import HrxSystem.External.Runs
import HrxSystem.Timeline.Device
import Mathlib.Data.Int.Notation

namespace HrxSystem.Libhrx

open External

/-- An IREE object, known by the place of the call that created it. -/
abbrev Obj := ℕ

/-- A non-null `iree_status_t`: its code, and what `iree_status_to_string`
makes of it (`none` when the text cannot be formatted). -/
structure IreeError where
  code : ℤ
  text : Option String
deriving DecidableEq

/-- `iree_status_t`; the NULL pointer `none` is OK. -/
abbrev IreeStatus := Option IreeError

abbrev SemaphorePoint := Timeline.Point Obj

structure BufferRef where
  buffer : Obj
  offset : ℕ
  length : ℕ
deriving DecidableEq

structure BufferParams where
  usage : ℕ
  access : ℕ
  type : ℕ
  queueAffinity : ℕ
  minAlignment : ℕ
deriving DecidableEq

/-- `iree_hal_dispatch_config_t` as `new_static` fills it. -/
structure DispatchConfig where
  workgroupSize : ℕ × ℕ × ℕ
  workgroupCount : ℕ × ℕ × ℕ
deriving DecidableEq

inductive Command
  | fillBuffer (target : BufferRef) (pattern patternSize : ℕ)
  | copyBuffer (source target : BufferRef)
  | updateBuffer (hostData : ℕ) (target : BufferRef)
  | dispatch (executable : Obj) (function : ℕ) (config : DispatchConfig)
      (constants : Option ℕ) (constantsSize : ℕ) (bindings : List BufferRef) (flags : ℕ)
  | executionBarrier
deriving DecidableEq

/-- `iree_timeout_t`: an absolute deadline or a relative span of nanoseconds. -/
inductive Timeout
  | absolute (nanos : ℤ)
  | relative (nanos : ℤ)
deriving DecidableEq

def Timeout.infinite : Timeout := .absolute (2 ^ 63 - 1)

def Timeout.immediate : Timeout := .absolute (-2 ^ 63)

structure DeviceInfo where
  path : List UInt8
  name : List UInt8
deriving DecidableEq

/-- What an `iree_vm_ref_t` of the library points to. -/
inductive HalRef
  | buffer (buffer : Obj)
  | bufferView (view : Obj)
  | fence (fence : Obj)
deriving DecidableEq

/-- The IREE and libc entry points the library calls, with the arguments that
matter to it, and `Arc::new`, whose answer is the address it picked. A command
buffer argument may be the NULL pointer. -/
inductive Call
  | malloc (size : ℕ)
  | arcNew
  | commandBufferCreate (device : Obj) (categories affinity : ℕ)
  | commandBufferBegin (cb : Option Obj)
  | commandBufferRecord (cb : Option Obj) (command : Command)
  | commandBufferEnd (cb : Option Obj)
  | commandBufferRelease (cb : Option Obj)
  | queueExecute (device : Obj) (affinity : ℕ) (waits signals : List SemaphorePoint)
      (cb : Option Obj)
  | queueBarrier (device : Obj) (affinity : ℕ) (waits signals : List SemaphorePoint)
  | queueAlloca (device : Obj) (waits signals : List SemaphorePoint) (pool : Obj)
      (params : BufferParams) (size : ℕ)
  | semaphoreCreate (device : Obj) (initialValue : ℕ)
  | semaphoreRelease (semaphore : Obj)
  | semaphoreWait (point : SemaphorePoint) (timeout : Timeout)
  | semaphoreQuery (semaphore : Obj)
  | fenceWait (fence : Obj) (timeout : Timeout)
  | statusAllocateF (code : ℤ) (message : String)
  | allocatorRetain (allocator : Obj)
  | allocatorRelease (allocator : Obj)
  | allocatorAllocateBuffer (allocator : Obj) (params : BufferParams) (size : ℕ)
  | allocatorImportBuffer (allocator : Obj) (params : BufferParams) (hostPtr size : ℕ)
  | allocatorQueryBufferCompatibility (allocator : Obj) (params : BufferParams) (size : ℕ)
  | virtualMemoryReserve (allocator : Obj) (affinity size : ℕ)
  | virtualMemoryRelease (allocator buffer : Obj)
  | bufferMapRange (buffer : Obj) (access offset length : ℕ)
  | bufferUnmapRange (mapping : Obj)
  | bufferRelease (buffer : Option Obj)
  | bufferRetain (buffer : Obj)
  | bufferByteLength (buffer : Obj)
  | proactorPoolGet (pool : Obj)
  | allocatorMalloc (size : ℕ)
  | allocatorFree (block : Option Obj)
  | notificationCreate (proactor : ℕ)
  | notificationRelease (notification : Obj)
  | notificationSignal (notification : Obj) (count : ℕ)
  | poolRelease (pool : Option Obj)
  | executableCacheCreate (device : Obj)
  | executableCacheRelease (cache : Obj)
  | executableCachePrepareExecutable (cache : Obj) (format data size : ℕ)
  | executableRelease (executable : Obj)
  | fopen (path : ℕ)
  | fseek (file : Obj) (toEnd : Bool)
  | ftell (file : Obj)
  | fread (data : Obj) (size : ℕ) (file : Obj)
  | fclose (file : Obj)
  | bytecodeModuleCreate (instance_ : Obj) (data size : ℕ)
  | vmModuleRelease (module_ : Obj)
  | deviceGroupRetain (group : Obj)
  | deviceGroupRelease (group : Obj)
  | halModuleCreate (instance_ group : Obj)
  | vmContextCreateWithModules (instance_ : Obj) (modules : List Obj)
  | vmContextRelease (context : Obj)
  | vmContextResolveFunction (context : Obj) (name : ℕ)
  | vmInvoke (context : Obj) (function : ℕ) (inputs outputs : Option ℕ)
  | vmInstanceCreate
  | vmInstanceRelease (instance_ : Obj)
  | halModuleRegisterAllTypes (instance_ : Obj)
  | proactorPoolCreate
  | proactorPoolRelease (pool : Obj)
  | frontierTrackerCreate
  | frontierTrackerRelease (tracker : Obj)
  | deviceGroupCreateFromDevice (device tracker : Obj)
  | taskTopologyInitialize (groupCount : ℕ)
  | taskTopologyDeinit (topology : Obj)
  | taskExecutorCreate (topology : Obj)
  | taskExecutorRelease (executor : Obj)
  | createAllAvailableExecutableLoaders (capacity : ℕ)
  | executableLoaderRelease (loaders : Obj) (index : ℕ)
  | allocatorCreateHeap
  | taskDriverCreate (executor loaders : Obj) (loaderCount : ℕ) (allocator : Obj)
  | driverCreateDefaultDevice (driver : Obj) (proactorPool : Option Obj)
  | driverRelease (driver : Obj)
  | halDeviceAllocator (device : Obj)
  | halDeviceRelease (device : Obj)
  | amdgpuDriverModuleRegister
  | driverRegistryTryCreate
  | driverQueryAvailableDevices (driver : Obj)
  | driverCreateDeviceByOrdinal (driver : Obj) (index : ℕ) (proactorPool : Option Obj)
  | deviceQueryI64 (device : Obj)
  | hostCallThunk
  | freeHostCallThunk (thunk : Obj)
  | queueHostCall (device : Obj) (affinity : ℕ) (waits signals : List SemaphorePoint) (thunk : Obj)
  | queueDispatch (device : Obj) (affinity : ℕ) (waits signals : List SemaphorePoint)
      (executable : Obj)
      (function : ℕ) (config : DispatchConfig) (constants : Option ℕ) (constantsSize : ℕ)
      (bindings : List BufferRef) (flags : ℕ)
  | deviceTransferH2d (device : Obj) (source : ℕ) (target : Obj) (targetOffset size : ℕ)
      (timeout : Timeout)
  | deviceTransferD2h (device source : Obj) (sourceOffset : ℕ) (target size : ℕ) (timeout : Timeout)
  | bufferViewCreate (buffer : Obj) (shape : List ℕ) (elementType encodingType : ℕ)
  | bufferViewShapeRank (view : Obj)
  | bufferViewShapeDim (view : Obj) (index : ℕ)
  | retainRef (ref : HalRef)
  | vmListCreate (capacity : ℕ)
  | vmListRelease (list : Obj)
  | vmListPushValue (list : Obj) (value : ℤ)
  | vmListPushRefMove (list : Obj) (ref : Option HalRef)
deriving DecidableEq

/-- What a call hands back: its status and, for the calls that have them, the
number, signed number, parameters or device infos written for the caller. -/
structure Answer where
  status : IreeStatus := none
  value : ℕ := 0
  signed : ℤ := 0
  params : Option BufferParams := none
  infos : List DeviceInfo := []
deriving DecidableEq

abbrev Happened := Event Call Answer

abbrev Trace := List Happened

abbrev Outside := Oracle Call Answer

/-- Programs of the library over a state `σ`. -/
abbrev Hrx (σ α : Type) := Program Call Answer σ α

/-- `iree::status_is_ok` of the call's status. -/
def ok (e : Happened) : Bool := e.answer.status.isNone

/-- The `malloc` behind every `hrx_status_t` payload succeeds. What is said of runs under any errors
of IREE is said under this condition; what is said of the status that a call makes is not. -/
def Roomy (o : Outside) : Prop := ∀ n, (o n (.malloc 16)).status = none

end HrxSystem.Libhrx
