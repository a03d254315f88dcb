import HrxSystem.Libhrx.Device

namespace HrxSystem.Libhrx

open External Program Counting

structure FormatText where
  addr : ℕ
  empty : Bool
deriving DecidableEq

def wrapExecutable (device : DevicePtr) (cache exe : Obj) : Hrx Memory Returned := do
  hrxDeviceRetain device.addr
  let a ← intoHandle .executables ⟨exe, cache, device⟩
  return ⟨hrxOkStatus, .executable ⟨a, exe⟩⟩

def prepareExecutable (device : DevicePtr) (cache : Obj) (data size : ℕ) (format : FormatText) :
    Hrx Memory Returned := do
  let exe ← call (.executableCachePrepareExecutable cache format.addr data size)
  if !ok exe then
    let _ ← call (.executableCacheRelease cache)
    return ⟨← hrxStatusFromIree exe.answer.status, .nothing⟩
  wrapExecutable device cache exe.pos

def hrxExecutableLoadData (device : HrxDevice) (executableData : Option ℕ) (executableDataSize : ℕ)
    (executableFormat : Option FormatText) (executable : Bool) : Hrx Memory Returned :=
  match device, executableData, executable with
  | some dev, some data, true => do
    if executableDataSize = 0 then
      return ⟨← hrxError .invalidArgument "device, executable_data, or executable is invalid",
        .nothing⟩
    let cache ← call (.executableCacheCreate dev.halDevice)
    if !ok cache then return ⟨← hrxStatusFromIree cache.answer.status, .nothing⟩
    match executableFormat.filter fun format ↦ !format.empty with
    | none => do
      let _ ← call (.executableCacheRelease cache.pos)
      return ⟨← hrxError .invalidArgument "executable_format is required", .nothing⟩
    | some format => prepareExecutable dev cache.pos data executableDataSize format
  | _, _, _ =>
    return ⟨← hrxError .invalidArgument "device, executable_data, or executable is invalid",
      .nothing⟩

def hrxExecutableRetain (executable : ℕ) : Hrx Memory Unit := handleRetain .executables executable

/-- The fields of `HrxExecutableS` in the order they are dropped. -/
def HrxExecutableS.drop (executable : HrxExecutableS) : Hrx Memory Unit := do
  let _ ← call (.executableRelease executable.halExecutable)
  let _ ← call (.executableCacheRelease executable.halExecutableCache)
  hrxDeviceRelease executable.device.addr

def hrxExecutableRelease (executable : ℕ) : Hrx Memory Unit := do
  match ← handleRelease .executables executable with
  | none => return ()
  | some x => x.drop

/-- The failure exits of `hrx_executable_load_file` with the file open. -/
def closeAndFail (file : Obj) (code : HrxStatusCode) (message : String) : Hrx Memory Returned := do
  let _ ← call (.fclose file)
  return ⟨← hrxError code message, .nothing⟩

/-- `hrx_executable_load_file` with the file open and rewound, and `file_data` to read it into. -/
def loadFileData (device : HrxDevice) (file fileData : Obj) (fileSize : ℕ)
    (executableFormat : Option FormatText) : Hrx Memory Returned := do
  let r ← call (.fread fileData fileSize file)
  let _ ← call (.fclose file)
  if r.answer.value ≠ fileSize then
    let _ ← call (.allocatorFree (some fileData))
    return ⟨← hrxError .dataLoss "short read while loading executable file", .nothing⟩
  let status ← hrxExecutableLoadData device (some fileData) fileSize executableFormat true
  let _ ← call (.allocatorFree (some fileData))
  return status

/-- `hrx_executable_load_file` with the file open and rewound. When the status of a failed
allocation cannot be allocated either, `fread` writes through the NULL pointer. -/
def loadOpenFile (device : HrxDevice) (file : Obj) (fileSize : ℕ)
    (executableFormat : Option FormatText) :
    Hrx Memory Returned := do
  let data ← call (.allocatorMalloc fileSize)
  if !ok data then
    let status ← hrxStatusFromIree data.answer.status
    if hrxStatusIsOk status then return ⟨none, .panicked⟩
    let _ ← call (.fclose file)
    return ⟨status, .nothing⟩
  loadFileData device file data.pos fileSize executableFormat

def hrxExecutableLoadFile (device : HrxDevice) (path : Option ℕ)
    (executableFormat : Option FormatText) (executable : Bool) : Hrx Memory Returned :=
  match device, path, executable with
  | some dev, some p, true => do
    let file ← call (.fopen p)
    if !ok file then return ⟨← hrxError .notFound "failed to open executable file", .nothing⟩
    let e ← call (.fseek file.pos true)
    if !ok e then return ← closeAndFail file.pos .internal "failed to seek executable file"
    let size ← call (.ftell file.pos)
    if size.answer.signed ≤ 0
      then return ← closeAndFail file.pos .invalidArgument "empty executable file"
    let s ← call (.fseek file.pos false)
    if !ok s then return ← closeAndFail file.pos .internal "failed to rewind executable file"
    loadOpenFile (some dev) file.pos size.answer.signed.toNat executableFormat
  | _, _, _ => return ⟨← hrxError .invalidArgument "device, path, or executable is NULL", .nothing⟩

end HrxSystem.Libhrx
