import HrxSystem.Hip.Table

namespace HrxSystem.Hip

open External Program

inductive LogLine
  | initialized (level : ℤ)
  | called (c : HipCall) (out out₂ : ℤ) (text : Option String) (ret : ℤ)
  | deviceProps (name : String)
  | devicePropsHint
  | shuttingDown
deriving DecidableEq

structure Logger where
  file : Bool
  level : ℤ
  ownsFile : Bool
  output : List LogLine

/-- `log_msg`. -/
def Logger.message (level : ℤ) (line : LogLine) (st : Logger) : Logger :=
  if level > st.level || !st.file then st else { st with output := st.output ++ [line] }

def logMsg (level : ℤ) (line : LogLine) : HipM Logger Unit := update (Logger.message level line)

/-- `cstr`, of memory that holds `text`. Reading a text that is not terminated runs out of its
memory. -/
def cstr (p : Ptr) (text : Option String) : Option String := if p = 0 then some "(null)" else text

section Wrappers

variable (present : Present)

/-- A wrapper that forwards its call and then logs it with the values that stand at its out
pointers. -/
def logged (c : HipCall) (out out₂ : HipAnswer → ℤ) : HipM Logger (Option HipResult) :=
  orAbort (unwrapCall present c) fun a ↦ do
    logMsg 2 (.called c (out a) (out₂ a) none a.ret)
    return some (c.result a)

/-- `wrap_hipGetDeviceProperties`: on success it reads the device's name at the front of the
properties. -/
def loggedProperties (prop : Ptr) (deviceId : ℤ) : HipM Logger (Option HipResult) :=
  orAbort (unwrapCall present (.hipGetDeviceProperties prop deviceId)) fun a ↦ do
    logMsg 2 (.called (.hipGetDeviceProperties prop deviceId) 0 0 none a.ret)
    if a.ret = 0 ∧ prop ≠ 0 then
      match cstr prop a.text with
      | none => return none
      | some name =>
        logMsg 2 (.deviceProps name)
        logMsg 2 .devicePropsHint
    return some (.error a.ret)

/-- `wrap_hipDeviceGetName`: it reads the name whatever the backend returned. -/
def loggedName (name : Ptr) (len deviceId : ℤ) : HipM Logger (Option HipResult) :=
  orAbort (unwrapCall present (.hipDeviceGetName name len deviceId)) fun a ↦ do
    match cstr name a.text with
    | none => return none
    | some text =>
      logMsg 2 (.called (.hipDeviceGetName name len deviceId) 0 0 (some text) a.ret)
      return some (.error a.ret)

/-- `wrap_hipGetLastError` and `wrap_hipPeekAtLastError`: an error is logged at level 1, success at
level 3. -/
def loggedError (c : HipCall) : HipM Logger (Option HipResult) :=
  orAbort (unwrapCall present c) fun a ↦ do
    logMsg (if a.ret ≠ 0 then 1 else 3) (.called c 0 0 none a.ret)
    return some (c.result a)

/-- The registration wrappers, which log before they forward. -/
def loggedBefore (c : HipCall) (text : Option String) : HipM Logger (Option HipResult) := do
  logMsg 2 (.called c 0 0 text 0)
  orAbort (unwrapCall present c) fun _ ↦ return some .nothing

def secondAt (p : Ptr) (a : HipAnswer) : ℤ := if p = 0 then 0 else a.out₂

def loggingTable : HipFunctionTable Logger
  | .hipInit flags => some (logged present (.hipInit flags) (fun _ ↦ 0) fun _ ↦ 0)
  | .hipDriverGetVersion v => some (logged present (.hipDriverGetVersion v) (intAt v) fun _ ↦ 0)
  | .hipRuntimeGetVersion v => some (logged present (.hipRuntimeGetVersion v) (intAt v) fun _ ↦ 0)
  | .hipGetDevice id => some (logged present (.hipGetDevice id) (intAt id) fun _ ↦ 0)
  | .hipGetDeviceCount count =>
    some (logged present (.hipGetDeviceCount count) (intAt count) fun _ ↦ 0)
  | .hipSetDevice id => some (logged present (.hipSetDevice id) (fun _ ↦ 0) fun _ ↦ 0)
  | .hipDeviceSynchronize => some (logged present .hipDeviceSynchronize (fun _ ↦ 0) fun _ ↦ 0)
  | .hipGetDeviceProperties prop id => some (loggedProperties present prop id)
  | .hipDeviceGetAttribute value attr id =>
    some (logged present (.hipDeviceGetAttribute value attr id) (intAt value) fun _ ↦ 0)
  | .hipDeviceGetName name len id => some (loggedName present name len id)
  | .hipMemGetInfo free total =>
    some (logged present (.hipMemGetInfo free total) (handleAt free) (secondAt total))
  | .hipMalloc ptr size => some (logged present (.hipMalloc ptr size) (handleAt ptr) fun _ ↦ 0)
  | .hipFree ptr => some (logged present (.hipFree ptr) (fun _ ↦ 0) fun _ ↦ 0)
  | .hipHostMalloc ptr size flags =>
    some (logged present (.hipHostMalloc ptr size flags) (handleAt ptr) fun _ ↦ 0)
  | .hipHostFree ptr => some (logged present (.hipHostFree ptr) (fun _ ↦ 0) fun _ ↦ 0)
  | .hipMemcpy dst src n kind =>
    some (logged present (.hipMemcpy dst src n kind) (fun _ ↦ 0) fun _ ↦ 0)
  | .hipMemcpyAsync dst src n kind stream =>
    some (logged present (.hipMemcpyAsync dst src n kind stream) (fun _ ↦ 0) fun _ ↦ 0)
  | .hipMemset dst value n => some (logged present (.hipMemset dst value n) (fun _ ↦ 0) fun _ ↦ 0)
  | .hipMemsetAsync dst value n stream =>
    some (logged present (.hipMemsetAsync dst value n stream) (fun _ ↦ 0) fun _ ↦ 0)
  | .hipStreamCreate stream =>
    some (logged present (.hipStreamCreate stream) (handleAt stream) fun _ ↦ 0)
  | .hipStreamCreateWithFlags stream flags =>
    some (logged present (.hipStreamCreateWithFlags stream flags) (handleAt stream) fun _ ↦ 0)
  | .hipStreamDestroy stream =>
    some (logged present (.hipStreamDestroy stream) (fun _ ↦ 0) fun _ ↦ 0)
  | .hipStreamSynchronize stream =>
    some (logged present (.hipStreamSynchronize stream) (fun _ ↦ 0) fun _ ↦ 0)
  | .hipStreamQuery stream => some (logged present (.hipStreamQuery stream) (fun _ ↦ 0) fun _ ↦ 0)
  | .hipStreamWaitEvent stream event flags =>
    some (logged present (.hipStreamWaitEvent stream event flags) (fun _ ↦ 0) fun _ ↦ 0)
  | .hipEventCreate event =>
    some (logged present (.hipEventCreate event) (handleAt event) fun _ ↦ 0)
  | .hipEventCreateWithFlags event flags =>
    some (logged present (.hipEventCreateWithFlags event flags) (handleAt event) fun _ ↦ 0)
  | .hipEventDestroy event => some (logged present (.hipEventDestroy event) (fun _ ↦ 0) fun _ ↦ 0)
  | .hipEventRecord event stream =>
    some (logged present (.hipEventRecord event stream) (fun _ ↦ 0) fun _ ↦ 0)
  | .hipEventSynchronize event =>
    some (logged present (.hipEventSynchronize event) (fun _ ↦ 0) fun _ ↦ 0)
  | .hipEventQuery event => some (logged present (.hipEventQuery event) (fun _ ↦ 0) fun _ ↦ 0)
  | .hipEventElapsedTime ms start stop =>
    some (logged present (.hipEventElapsedTime ms start stop) (handleAt ms) fun _ ↦ 0)
  | .hipModuleLaunchKernel f gx gy gz bx by_ bz shared stream kernelParams extra =>
    some (logged present
      (.hipModuleLaunchKernel f gx gy gz bx by_ bz shared stream kernelParams extra) (fun _ ↦ 0)
      fun _ ↦ 0)
  | .hipExtModuleLaunchKernel f gx gy gz lx ly lz shared stream kernelParams extra startEvent
      stopEvent flags =>
    some (logged present
      (.hipExtModuleLaunchKernel f gx gy gz lx ly lz shared stream kernelParams extra startEvent
      stopEvent flags) (fun _ ↦ 0) fun _ ↦ 0)
  | .hipLaunchKernel func numBlocks dimBlocks args shared stream =>
    some (logged present (.hipLaunchKernel func numBlocks dimBlocks args shared stream)
      (fun _ ↦ 0) fun _ ↦ 0)
  | .hipGetLastError => some (loggedError present .hipGetLastError)
  | .hipPeekAtLastError => some (loggedError present .hipPeekAtLastError)
  | .hipRegisterFatBinary data =>
    some (logged present (.hipRegisterFatBinary data) HipAnswer.ret fun _ ↦ 0)
  | .hipUnregisterFatBinary handle =>
    some (loggedBefore present (.hipUnregisterFatBinary handle) none)
  | .hipRegisterFunction handle hostFun deviceFun deviceName threadLimit tid bid blockDim
      gridDim wSize =>
    some (loggedBefore present
      (.hipRegisterFunction handle hostFun deviceFun deviceName threadLimit tid bid blockDim
      gridDim wSize) (cstr deviceName.ptr deviceName.text))
  | .hipRegisterVar handle hostVar deviceAddress deviceName ext size constant global =>
    some (loggedBefore present
      (.hipRegisterVar handle hostVar deviceAddress deviceName ext size constant global)
      (cstr deviceName.ptr deviceName.text))
  | c => realTable present c

end Wrappers

def Logger.initial (file : Bool) (level : ℤ) (ownsFile : Bool) : Logger :=
  Logger.message 1 (.initialized level) ⟨file, level, ownsFile, []⟩

def Logger.shutdown (st : Logger) : Logger :=
  let st := st.message 1 .shuttingDown
  if st.ownsFile && st.file then { st with file := false } else st

end HrxSystem.Hip
