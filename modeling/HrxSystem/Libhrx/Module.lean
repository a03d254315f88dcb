import HrxSystem.Libhrx.Device

namespace HrxSystem.Libhrx

open External Program Counting

/-- `hrx_module_load_vmfb` once it has both modules. The guards of the modules are dropped after
the status is made. -/
def createContext (device : DevicePtr) (vmInstance bytecode hal : Obj) : Hrx Memory Returned := do
  let context ← call (.vmContextCreateWithModules vmInstance [hal, bytecode])
  if !ok context then
    let s ← hrxStatusFromIree context.answer.status
    let _ ← call (.vmModuleRelease hal)
    let _ ← call (.vmModuleRelease bytecode)
    return ⟨s, .nothing⟩
  hrxDeviceRetain device.addr
  let a ← intoHandle .modules ⟨context.pos, hal, bytecode, device⟩
  return ⟨hrxOkStatus, .module_ ⟨a, context.pos⟩⟩

/-- `hrx_module_load_vmfb` once it has its VM instance. The device group of a device is never
NULL. -/
def loadBytecode (device : DevicePtr) (vmInstance data size : ℕ) : Hrx Memory Returned := do
  let bytecode ← call (.bytecodeModuleCreate vmInstance data size)
  if !ok bytecode then return ⟨← hrxStatusFromIree bytecode.answer.status, .nothing⟩
  let _ ← call (.deviceGroupRetain device.halDeviceGroup)
  let hal ← call (.halModuleCreate vmInstance device.halDeviceGroup)
  let _ ← call (.deviceGroupRelease device.halDeviceGroup)
  if !ok hal then
    let s ← hrxStatusFromIree hal.answer.status
    let _ ← call (.vmModuleRelease bytecode.pos)
    return ⟨s, .nothing⟩
  createContext device vmInstance bytecode.pos hal.pos

def SharedState.usableInstance (shared : SharedState) : Option Obj :=
  if shared.initialized then shared.vmInstance else none

def hrxModuleLoadVmfb (device : HrxDevice) (vmfbData : Option ℕ) (vmfbSize : ℕ) (module_ : Bool) :
    Hrx Memory Returned :=
  match device, vmfbData, module_ with
  | some dev, some data, true => do
    if vmfbSize = 0 then return ⟨← hrxError .invalidArgument "vmfb_size must be > 0", .nothing⟩
    let mem ← state
    match mem.globals.shared.usableInstance with
    | none => return ⟨← hrxError .unavailable "runtime is not initialized", .nothing⟩
    | some vmInstance => loadBytecode dev vmInstance data vmfbSize
  | _, _, _ => return ⟨← hrxError .invalidArgument "device, vmfb_data, or module is NULL", .nothing⟩

def hrxModuleRetain (module_ : ℕ) : Hrx Memory Unit := handleRetain .modules module_

/-- The fields of `HrxModuleS` in the order they are dropped. -/
def HrxModuleS.drop (module_ : HrxModuleS) : Hrx Memory Unit := do
  let _ ← call (.vmContextRelease module_.context)
  let _ ← call (.vmModuleRelease module_.halModule)
  let _ ← call (.vmModuleRelease module_.bytecodeModule)
  hrxDeviceRelease module_.device.addr

def hrxModuleRelease (module_ : ℕ) : Hrx Memory Unit := do
  match ← handleRelease .modules module_ with
  | none => return ()
  | some m => m.drop

def hrxModuleLookupFunction (module_ : HrxModule) (name : Option ℕ) (function : Bool) :
    Hrx Memory Returned :=
  match module_, name, function with
  | some m, some text, true => do
    let f ← call (.vmContextResolveFunction m.context text)
    if !ok f then return ⟨← hrxStatusFromIree f.answer.status, .nothing⟩
    hrxModuleRetain m.addr
    let a ← intoHandle .functions ⟨m, f.answer.value⟩
    return ⟨hrxOkStatus, .function a⟩
  | _, _, _ => return ⟨← hrxError .invalidArgument "module, name, or function is NULL", .nothing⟩

def hrxFunctionRetain (function : ℕ) : Hrx Memory Unit := handleRetain .functions function

def hrxFunctionRelease (function : ℕ) : Hrx Memory Unit := do
  match ← handleRelease .functions function with
  | none => return ()
  | some f => hrxModuleRelease f.module_.addr

/-- A function handle that is not live is outside the contract, as in `onStream`. -/
def hrxFunctionInvoke (module_ : HrxModule) (function : HrxFunction) (args rets : Option ℕ) :
    Hrx Memory Returned :=
  match module_, function with
  | some m, some f => do
    let mem ← state
    match mem.functions.cell f with
    | none => return ⟨none, .nothing⟩
    | some func =>
      if func.data.module_.addr ≠ m.addr then
        return ⟨← hrxError .invalidArgument "function does not belong to module", .nothing⟩
      let s ← call (.vmInvoke m.context func.data.vmFunction args rets)
      return ⟨← hrxStatusFromIree s.answer.status, .nothing⟩
  | _, _ => return ⟨← hrxError .invalidArgument "module or function is NULL", .nothing⟩

end HrxSystem.Libhrx
