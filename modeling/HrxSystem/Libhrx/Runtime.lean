import HrxSystem.Libhrx.Device

namespace HrxSystem.Libhrx

open External Program Counting

def maxDevices : ℕ := 64

/-- `cstr_array`: an array of `n` bytes that ends its string. -/
def cstrArray (n : ℕ) (bytes : List UInt8) : List UInt8 :=
  bytes.take (n - 1) ++ List.replicate (n - (bytes.take (n - 1)).length) 0

/-- `cstr_array_from_raw`: the same loop, over bytes that need be no text. -/
abbrev cstrArrayFromRaw (n : ℕ) (data : List UInt8) : List UInt8 := cstrArray n data

def ascii (s : String) : List UInt8 := s.toList.map fun c ↦ c.toNat.toUInt8

def withShared (f : SharedState → SharedState) (mem : Memory) : Memory :=
  { mem with globals := { mem.globals with shared := f mem.globals.shared } }

def ensureSharedState : Hrx Memory HrxStatus := do
  let mem ← state
  if mem.globals.shared.initialized then
    update (withShared fun s ↦ { s with initCount := s.initCount + 1 })
    return hrxOkStatus
  update (withShared fun s ↦ { s with hostAllocator := .system })
  let inst ← call .vmInstanceCreate
  if !ok inst then return ← hrxStatusFromIree inst.answer.status
  let s ← call (.halModuleRegisterAllTypes inst.pos)
  if !ok s then
    let _ ← call (.vmInstanceRelease inst.pos)
    return ← hrxStatusFromIree s.answer.status
  update (withShared fun s ↦ { s with vmInstance := some inst.pos })
  let pool ← call .proactorPoolCreate
  if !ok pool then
    let _ ← call (.vmInstanceRelease inst.pos)
    update (withShared fun s ↦ { s with vmInstance := none })
    return ← hrxStatusFromIree pool.answer.status
  update (withShared fun s ↦ { s with proactorPool := some pool.pos })
  update (withShared fun s ↦ { s with initialized := true, initCount := 1 })
  return hrxOkStatus

def releaseProactorPool (pool : Option Obj) : Hrx Memory Unit :=
  match pool with
  | none => return ()
  | some p => do
    let _ ← call (.proactorPoolRelease p)
    update (withShared fun s ↦ { s with proactorPool := none })

def releaseVmInstance (inst : Option Obj) : Hrx Memory Unit :=
  match inst with
  | none => return ()
  | some i => do
    let _ ← call (.vmInstanceRelease i)
    update (withShared fun s ↦ { s with vmInstance := none })

def releaseSharedState : Hrx Memory Unit := do
  let mem ← state
  if !mem.globals.shared.initialized then return ()
  update (withShared fun s ↦ { s with initCount := s.initCount - 1 })
  if mem.globals.shared.initCount - 1 > 0 then return ()
  releaseProactorPool mem.globals.shared.proactorPool
  releaseVmInstance mem.globals.shared.vmInstance
  update (withShared fun s ↦ { s with initialized := false })

variable {σ : Type}

def createSingleDeviceGroup (device : Obj) : Hrx σ (IreeStatus × Obj) := do
  let tracker ← call .frontierTrackerCreate
  if !ok tracker then return (tracker.answer.status, 0)
  let s ← call (.deviceGroupCreateFromDevice device tracker.pos)
  let _ ← call (.frontierTrackerRelease tracker.pos)
  return (s.answer.status, s.pos)

def releaseLoaders (loaders : Obj) : ℕ → Hrx σ Unit
  | 0 => pure ()
  | i + 1 => do
    releaseLoaders loaders i
    let _ ← call (.executableLoaderRelease loaders i)

/-- The last part of `create_local_task_device`. -/
def createDefaultDevice (driver : Obj) (proactorPool : Option Obj) :
    Hrx σ (Except HrxStatus (Obj × Obj)) := do
  let device ← call (.driverCreateDefaultDevice driver proactorPool)
  if !ok device then
    let _ ← call (.driverRelease driver)
    return .error (← hrxStatusFromIree device.answer.status)
  return .ok (driver, device.pos)

/-- `create_local_task_device` once it has its executor. IREE reports at most as many loaders as
the array holds. -/
def createTaskDriver (executor : Obj) (proactorPool : Option Obj) :
    Hrx σ (Except HrxStatus (Obj × Obj)) := do
  let loaders ← call (.createAllAvailableExecutableLoaders 8)
  if !ok loaders then
    let _ ← call (.taskExecutorRelease executor)
    return .error (← hrxStatusFromIree loaders.answer.status)
  let allocator ← call .allocatorCreateHeap
  if !ok allocator then
    releaseLoaders loaders.pos loaders.answer.value
    let _ ← call (.taskExecutorRelease executor)
    return .error (← hrxStatusFromIree allocator.answer.status)
  let driver ← call (.taskDriverCreate executor loaders.pos loaders.answer.value allocator.pos)
  let _ ← call (.taskExecutorRelease executor)
  releaseLoaders loaders.pos loaders.answer.value
  let _ ← call (.allocatorRelease allocator.pos)
  if !ok driver then return .error (← hrxStatusFromIree driver.answer.status)
  createDefaultDevice driver.pos proactorPool

/-- The driver and the device. `POOL_FOR_DEVICE` was set by the caller. -/
def createLocalTaskDevice (groupCount : ℕ) : Hrx Memory (Except HrxStatus (Obj × Obj)) := do
  let topology ← call (.taskTopologyInitialize groupCount)
  let executor ← call (.taskExecutorCreate topology.pos)
  let _ ← call (.taskTopologyDeinit topology.pos)
  if !ok executor then return .error (← hrxStatusFromIree executor.answer.status)
  let mem ← state
  createTaskDriver executor.pos mem.globals.poolForDevice

inductive Which
  | cpu | gpu
deriving DecidableEq

namespace Which

def type : Which → ℤ
  | gpu => 0
  | cpu => 1

def text : Which → String
  | cpu => "CPU"
  | gpu => "GPU"

def get : Which → Globals → Accelerator
  | cpu, g => g.cpu
  | gpu, g => g.gpu

def set : Which → Accelerator → Globals → Globals
  | cpu, x, g => { g with cpu := x }
  | gpu, x, g => { g with gpu := x }

end Which

def withAccelerator (w : Which) (x : Accelerator) (mem : Memory) : Memory :=
  { mem with globals := w.set x mem.globals }

def hrxCpuInitialize : Hrx Memory HrxStatus := do
  let mem ← state
  if mem.globals.cpu.initialized then
    return ← hrxError .alreadyExists "CPU accelerator already initialized"
  let s ← ensureSharedState
  if !hrxStatusIsOk s then return s
  update fun mem ↦ { mem with globals :=
    { mem.globals with poolForDevice := mem.globals.shared.proactorPool } }
  match ← createLocalTaskDevice 4 with
  | .error e => do
    releaseSharedState
    return e
  | .ok (driver, halDevice) => do
    let group ← createSingleDeviceGroup halDevice
    if group.1.isSome then
      let _ ← call (.halDeviceRelease halDevice)
      let _ ← call (.driverRelease driver)
      releaseSharedState
      return ← hrxStatusFromIree group.1
    let allocator ← call (.halDeviceAllocator halDevice)
    let _ ← call (.allocatorRetain allocator.answer.value)
    let dev ← intoHandle .devices ⟨Which.cpu.type, 0, allocator.answer.value, group.2, halDevice,
      cstrArray 128 (ascii "CPU 0 (local-task)"), cstrArray 64 (ascii "host")⟩
    update (withAccelerator .cpu
      ⟨[⟨dev, halDevice, allocator.answer.value, group.2⟩], 1, true, some driver⟩)
    return hrxOkStatus

def releaseDevices : List DevicePtr → Hrx Memory Unit
  | [] => return ()
  | d :: ds => do
    hrxDeviceRelease d.addr
    releaseDevices ds

def releaseDriver (driver : Option Obj) : Hrx Memory Unit :=
  match driver with
  | none => return ()
  | some d => do let _ ← call (.driverRelease d)

/-- `hrx_cpu_shutdown` and `hrx_gpu_shutdown`. -/
def acceleratorShutdown (w : Which) : Hrx Memory HrxStatus := do
  let mem ← state
  if !(w.get mem.globals).initialized then
    return ← hrxError .invalidArgument (w.text ++ " accelerator not initialized")
  releaseDevices (w.get mem.globals).devices
  releaseDriver (w.get mem.globals).driver
  update (withAccelerator w ⟨[], 0, false, none⟩)
  releaseSharedState
  return hrxOkStatus

def hrxCpuShutdown : Hrx Memory HrxStatus := acceleratorShutdown .cpu

def hrxGpuShutdown : Hrx Memory HrxStatus := acceleratorShutdown .gpu

/-- `hrx_cpu_device_count` and `hrx_gpu_device_count`. -/
def acceleratorDeviceCount (w : Which) (count : Bool) : Hrx Memory Returned := do
  if !count then return ⟨← hrxError .invalidArgument "count is NULL", .nothing⟩
  let mem ← state
  if !(w.get mem.globals).initialized then
    return ⟨← hrxError .unavailable (w.text ++ " accelerator not initialized"), .nothing⟩
  return ⟨hrxOkStatus, .count (w.get mem.globals).deviceCount⟩

def hrxCpuDeviceCount (count : Bool) : Hrx Memory Returned := acceleratorDeviceCount .cpu count

def hrxGpuDeviceCount (count : Bool) : Hrx Memory Returned := acceleratorDeviceCount .gpu count

/-- `hrx_cpu_device_get` and `hrx_gpu_device_get`. Indexing the vector out of its bounds panics. -/
def acceleratorDeviceGet (w : Which) (index : ℤ) (device : Bool) : Hrx Memory Returned := do
  if !device then return ⟨← hrxError .invalidArgument "device is NULL", .nothing⟩
  let mem ← state
  if !(w.get mem.globals).initialized then
    return ⟨← hrxError .unavailable (w.text ++ " accelerator not initialized"), .nothing⟩
  if index < 0 || index ≥ (w.get mem.globals).deviceCount then
    return ⟨← hrxError .outOfRange (w.text ++ " device index out of range"), .nothing⟩
  match (w.get mem.globals).devices[index.toNat]? with
  | none => return ⟨none, .panicked⟩
  | some d => return ⟨hrxOkStatus, .device d⟩

def hrxCpuDeviceGet (index : ℤ) (device : Bool) : Hrx Memory Returned :=
  acceleratorDeviceGet .cpu index device

def hrxGpuDeviceGet (index : ℤ) (device : Bool) : Hrx Memory Returned :=
  acceleratorDeviceGet .gpu index device

/-- The three bytes of a gfxip. `&` and `>>` of an `i64` are floor division and remainder. -/
def gfxText (gfxip : ℤ) : String :=
  "gfx" ++ toString (gfxip / 2 ^ 16 % 256) ++ toString (gfxip / 2 ^ 8 % 256) ++ toString
    (gfxip % 256)

def gpuArchitecture (halDevice : Obj) : Hrx σ (List UInt8) := do
  let s ← call (.deviceQueryI64 halDevice)
  if !ok s then return cstrArray 64 (ascii "unknown")
  return cstrArray 64 (ascii (gfxText s.answer.signed))

/-- The exits of the enumeration loop after a failed call: everything made so far goes. -/
def abandonDevices (driver infos : Obj) (devices : List DevicePtr) : Hrx Memory Unit := do
  releaseDevices devices
  let _ ← call (.allocatorFree (some infos))
  let _ ← call (.driverRelease driver)
  releaseSharedState

/-- One device of the enumeration loop, from its entry at `index` of the device infos. -/
def createGpuDevice (driver infos : Obj) (pool : Option Obj) (index : ℕ) (info : DeviceInfo)
    (devices : List DevicePtr) : Hrx Memory (Except HrxStatus DevicePtr) := do
  let halDevice ← call (.driverCreateDeviceByOrdinal driver index pool)
  if !ok halDevice then
    abandonDevices driver infos devices
    return .error (← hrxStatusFromIree halDevice.answer.status)
  let group ← createSingleDeviceGroup halDevice.pos
  if group.1.isSome then
    let _ ← call (.halDeviceRelease halDevice.pos)
    abandonDevices driver infos devices
    return .error (← hrxStatusFromIree group.1)
  let allocator ← call (.halDeviceAllocator halDevice.pos)
  let _ ← call (.allocatorRetain allocator.answer.value)
  let arch ← gpuArchitecture halDevice.pos
  let dev ← intoHandle .devices ⟨Which.gpu.type, devices.length, allocator.answer.value, group.2,
    halDevice.pos, cstrArrayFromRaw 128 info.name, arch⟩
  return .ok ⟨dev, halDevice.pos, allocator.answer.value, group.2⟩

/-- The enumeration loop, with the infos from `index` on. -/
def createGpuDevices (driver infos : Obj) (pool : Option Obj) (count : ℕ) :
    List DeviceInfo → ℕ → List DevicePtr → Hrx Memory (Except HrxStatus (List DevicePtr))
  | [], _, devices => return .ok devices
  | info :: rest, index, devices =>
    if devices.length < count then
      if info.path = [] then createGpuDevices driver infos pool count rest (index + 1) devices
      else do
        match ← createGpuDevice driver infos pool index info devices with
        | .error e => return .error e
        | .ok d => createGpuDevices driver infos pool count rest (index + 1) (devices ++ [d])
    else return .ok devices

/-- `hrx_gpu_initialize` once it knows the available devices. -/
def enumerateGpus (driver : Obj) (s : Happened) : Hrx Memory HrxStatus := do
  let mem ← state
  let physical := s.answer.infos.filter fun info ↦ info.path ≠ []
  if physical = [] then
    let _ ← call (.allocatorFree (some s.pos))
    let _ ← call (.driverRelease driver)
    releaseSharedState
    return ← hrxError .unavailable
      (if s.answer.infos = [] then "no GPU devices found" else "no physical GPU devices found")
  match ← createGpuDevices driver s.pos mem.globals.shared.proactorPool
    (min physical.length maxDevices)
      s.answer.infos 0 [] with
  | .error e => return e
  | .ok devices => do
    let _ ← call (.allocatorFree (some s.pos))
    update (withAccelerator .gpu ⟨devices, devices.length, true, some driver⟩)
    return hrxOkStatus

def hrxGpuInitialize : Hrx Memory HrxStatus := do
  let mem ← state
  if mem.globals.gpu.initialized then
    return ← hrxError .alreadyExists "GPU accelerator already initialized"
  let s ← ensureSharedState
  if !hrxStatusIsOk s then return s
  let r ← call .amdgpuDriverModuleRegister
  -- ALREADY_EXISTS is not an error here
  if !ok r && r.answer.status.elim 0 IreeError.code ≠ 6 then
    releaseSharedState
    return ← hrxStatusFromIree r.answer.status
  let driver ← call .driverRegistryTryCreate
  if !ok driver then
    releaseSharedState
    return ← hrxStatusFromIree driver.answer.status
  let q ← call (.driverQueryAvailableDevices driver.pos)
  if !ok q then
    let _ ← call (.driverRelease driver.pos)
    releaseSharedState
    return ← hrxStatusFromIree q.answer.status
  enumerateGpus driver.pos q

end HrxSystem.Libhrx
