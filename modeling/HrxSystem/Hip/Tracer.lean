import HrxSystem.Hip.Table
import Mathlib.Data.List.Infix

namespace HrxSystem.Hip

open External Program

def maxTrackedBuffers : ℕ := 65536

inductive BufferType
  | device | host | managed
deriving DecidableEq

structure TrackedBuffer where
  ptr : Ptr
  size : ℕ
  btype : BufferType
  inUse : Bool
  allocId : ℕ
deriving DecidableEq

structure BufferTable where
  buffers : List TrackedBuffer
  count : ℕ
  nextAllocId : ℕ

structure KernelInfo where
  hostFunc : Ptr
  name : String
deriving DecidableEq

structure TracerConfig where
  traceLevel : ℤ := 2
  traceSync : Bool := false
  traceDump : ℤ := 0
  traceDumpMax : ℕ := 1024
  kernelFilter : Option String := none
  kernelCountLimit : ℤ := 0
  kernelFullDumpList : Option String := none

/-- The lines of the trace file: those of `trace_msg` with what they show, and those that the dumps
write directly. -/
inductive TraceLine
  | fullDumpEnabled (list : String)
  | initialized
  | settings (level : ℤ) (sync : Bool) (dump : ℤ) (dumpMax : ℕ)
  | filter (text : String)
  | limit (n : ℤ)
  | called (c : HipCall) (out ret : ℤ)
  | launching (c : HipCall) (name : Option String)
  | returned (ret : ℤ)
  | tableFull (ptr : Ptr)
  | fullDumpMatch (kernel token : String)
  | dumpHeader (label : String) (count : ℕ) (full : Bool)
  | dumpFailed (b : TrackedBuffer) (err : ℤ)
  | dumpHash (b : TrackedBuffer) (hash : UInt64)
  | dumpEntry (b : TrackedBuffer)
  | dumpHex (text : String)
  | shuttingDown
  | totalKernels (n : ℤ)
  | totalBuffers (n : ℕ)
deriving DecidableEq

/-- `State`, with the lines written so far. -/
structure Tracer where
  config : TracerConfig
  traceFile : Bool
  kernelCount : ℤ
  ownsFile : Bool
  buffers : BufferTable
  kernels : List KernelInfo
  output : List TraceLine

/-- Arithmetic of `c_int` in the release profile. -/
def wrapInt (n : ℤ) : ℤ := (n + 2 ^ 31) % 2 ^ 32 - 2 ^ 31

/-- `trace_msg`. -/
def Tracer.message (level : ℤ) (line : TraceLine) (st : Tracer) : Tracer :=
  if level > st.config.traceLevel || !st.traceFile then st
    else { st with output := st.output ++ [line] }

/-- `raw_write`. -/
def Tracer.raw (line : TraceLine) (st : Tracer) : Tracer :=
  if st.traceFile then { st with output := st.output ++ [line] } else st

def traceMsg (level : ℤ) (line : TraceLine) : HipM Tracer Unit := update (Tracer.message level line)

def rawWrite (line : TraceLine) : HipM Tracer Unit := update (Tracer.raw line)

def hex (n : ℕ) : String := String.ofList (Nat.toDigits 16 n)

def ptrText (p : Ptr) : String := if p = 0 then "(nil)" else "0x" ++ hex p

def contains (text part : String) : Bool := part.toList <:+: text.toList

def computeHash (data : List UInt8) : UInt64 :=
  data.foldl (fun hash b ↦ (hash ^^^ b.toUInt64) * 0x00000100000001b3) 0xcbf29ce484222325

def bufferTableAdd (ptr : Ptr) (size : ℕ) (btype : BufferType) (st : Tracer) : Tracer :=
  if ptr = 0 ∨ size = 0 then st
  else match st.buffers.buffers.findIdx? fun b ↦ !b.inUse with
  | none => st.message 1 (.tableFull ptr)
  | some slot =>
    { st with buffers :=
      { buffers := st.buffers.buffers.set slot ⟨ptr, size, btype, true, st.buffers.nextAllocId⟩
        count := st.buffers.count + 1
        nextAllocId := (st.buffers.nextAllocId + 1) % 2 ^ 64 } }

def bufferTableRemove (ptr : Ptr) (st : Tracer) : Tracer :=
  if ptr = 0 then st
  else match st.buffers.buffers.findIdx? fun b ↦ b.inUse && b.ptr == ptr with
  | none => st
  | some slot =>
    { st with buffers := { st.buffers with
        buffers := st.buffers.buffers.modify slot fun b ↦ { b with inUse := false }
        count := (st.buffers.count + 2 ^ 64 - 1) % 2 ^ 64 } }

def kernelTableAdd (hostFunc : Ptr) (name : Option String) (st : Tracer) : Tracer :=
  if hostFunc = 0 then st
  else if st.kernels.any fun k ↦ k.hostFunc == hostFunc then st
  else { st with kernels := st.kernels ++ [⟨hostFunc, name.getD ("kernel_" ++ ptrText hostFunc)⟩] }

def kernelTableGetName (st : Tracer) (hostFunc : Ptr) : Option String :=
  (st.kernels.find? fun k ↦ k.hostFunc == hostFunc).map KernelInfo.name

/-- `{:02x}` and the separator that follows byte `i`. -/
def hexPiece (i : ℕ) (b : UInt8) : String :=
  String.ofList [Nat.digitChar (b.toNat / 16), Nat.digitChar (b.toNat % 16)] ++
    if (i + 1) % 32 = 0 then "\n    " else if (i + 1) % 4 = 0 then " " else ""

/-- The text of `dump_buffer_hex`, unless it indexes the data out of its bounds. -/
def dumpBufferHex (data : List UInt8) (size maxBytes : ℕ) : Option String :=
  if min size maxBytes ≤ data.length then
    some ("    " ++ String.join
      ((data.take (min size maxBytes)).zipIdx.map fun p ↦ hexPiece p.2 p.1) ++
      (if size > maxBytes then "... (" ++ toString (size - maxBytes) ++ " more bytes)" else "") ++
      "\n")
  else none

def firstBytes (n : ℕ) (bytes : List UInt8) : List UInt8 :=
  bytes.take n ++ List.replicate (n - bytes.length) 0

section Dump

variable (present : Present)

/-- The lines for one buffer whose bytes were read. -/
def reportBuffer (force : Bool) (maxDump : ℕ) (b : TrackedBuffer) (data : List UInt8) :
    HipM Tracer (Option Unit) := do
  let st ← state
  if st.config.traceDump = 2 ∧ force = false then
    rawWrite (.dumpHash b (computeHash data))
    return some ()
  rawWrite (.dumpEntry b)
  match dumpBufferHex data b.size maxDump with
  | none => return none
  | some text =>
    rawWrite (.dumpHex text)
    return some ()

/-- The body of the loop of `dump_all_buffers_ex`. -/
def dumpBuffer (force : Bool) (b : TrackedBuffer) : HipM Tracer (Option Unit) := do
  if !b.inUse || b.size = 0 then return some ()
  let st ← state
  let maxDump := if force then b.size else st.config.traceDumpMax
  let readSize :=
    if !force && st.config.traceDumpMax > 0 && b.size > st.config.traceDumpMax
      then st.config.traceDumpMax else b.size
  if b.btype = .device then
    if !present .hipMemcpy then return none
    let e ← call (.stage b.ptr readSize)
    if e.answer.ret ≠ 0 then
      traceMsg 1 (.dumpFailed b e.answer.ret)
      return some ()
    reportBuffer force maxDump b (firstBytes readSize e.answer.bytes)
  else
    let e ← call (.read b.ptr readSize)
    reportBuffer force maxDump b (firstBytes readSize e.answer.bytes)

def dumpBuffers (force : Bool) : List TrackedBuffer → HipM Tracer (Option Unit)
  | [] => return some ()
  | b :: bs => orAbort (dumpBuffer present force b) fun _ ↦ dumpBuffers force bs

def dumpAllBuffersEx (label : String) (force : Bool) : HipM Tracer (Option Unit) := do
  let st ← state
  if st.config.traceDump = 0 then return some ()
  traceMsg 3 (.dumpHeader label st.buffers.count force)
  dumpBuffers present force st.buffers.buffers

end Dump

def shouldTraceKernel (st : Tracer) (kernelName : Option String) : Bool :=
  if st.config.kernelCountLimit > 0 ∧ st.kernelCount ≥ st.config.kernelCountLimit then false
  else match st.config.kernelFilter with
  | none => true
  | some filter => if filter = "" then true else kernelName.any fun n ↦ contains n filter

def splitColon (s : String) : List String := (s.toList.splitOn ':').map String.ofList

/-- The token of the full-dump list that a kernel's name contains. -/
def fullDumpToken (st : Tracer) (kernelName : Option String) : Option String :=
  match st.config.kernelFullDumpList, kernelName with
  | some list, some name =>
    if list = "" then none else (splitColon list).find? fun t ↦ t ≠ "" ∧ contains name t
  | _, _ => none

def shouldFullDumpKernel (kernelName : Option String) : HipM Tracer Bool := do
  let st ← state
  match fullDumpToken st kernelName with
  | none => return false
  | some token =>
    traceMsg 3 (.fullDumpMatch (kernelName.getD "") token)
    return true

section Wrappers

variable (present : Present)

/-- A wrapper that forwards its call and then reports it, with the value `out` shows. -/
def reported (c : HipCall) (out : HipAnswer → ℤ) : HipM Tracer (Option HipResult) :=
  orAbort (unwrapCall present c) fun a ↦ do
    traceMsg 2 (.called c (out a) a.ret)
    return some (c.result a)

/-- `hipMalloc` and `hipHostMalloc` of the tracer. -/
def tracedMalloc (c : HipCall) (ptr : Ptr) (size : ℕ) (btype : BufferType) :
    HipM Tracer (Option HipResult) :=
  orAbort (unwrapCall present c) fun a ↦ do
    if a.ret = 0 ∧ ptr ≠ 0 then
      if a.out.toNat ≠ 0 then
        update (bufferTableAdd a.out.toNat size btype)
    traceMsg 2 (.called c (if ptr = 0 then 0 else a.out) a.ret)
    return some (c.result a)

/-- `hipFree` and `hipHostFree` of the tracer: the entry goes before the backend is asked. -/
def tracedFree (c : HipCall) (ptr : Ptr) : HipM Tracer (Option HipResult) := do
  update (bufferTableRemove ptr)
  orAbort (unwrapCall present c) fun a ↦ do
    traceMsg 2 (.called c 0 a.ret)
    return some (c.result a)

/-- The synchronization and the dump before or after a traced launch. -/
def syncAndDump (label : String) (force : Bool) : HipM Tracer (Option Unit) :=
  orAbort (unwrapCall present .hipDeviceSynchronize) fun _ ↦ dumpAllBuffersEx present label force

def beforeLabel (kernelCount : ℤ) (name : Option String) : String :=
  "BEFORE kernel #" ++ toString kernelCount ++ ": " ++ name.getD "(unknown)"

def afterLabel (kernelCount : ℤ) (name : Option String) (err : ℤ) : String :=
  "AFTER kernel #" ++ toString kernelCount ++ ": " ++ name.getD "(unknown)" ++ " (ret=" ++
    toString err ++ ")"

/-- The three launch functions of the tracer; `f` is the function that call `c` launches. -/
def tracedLaunch (c : HipCall) (f : Ptr) : HipM Tracer (Option HipResult) := do
  let st ← state
  let name := kernelTableGetName st f
  let doTrace := shouldTraceKernel st name
  let doFull ← shouldFullDumpKernel name
  let dumps := doTrace && st.config.traceSync
  orAbort (if dumps then syncAndDump present (beforeLabel st.kernelCount name) doFull
    else return some ()) fun _ ↦ do
  traceMsg 2 (.launching c name)
  orAbort (unwrapCall present c) fun a ↦
    orAbort (if dumps then syncAndDump present (afterLabel st.kernelCount name a.ret) doFull
      else return some ())
      fun _ ↦ do
    if doTrace then
      update fun st ↦ { st with kernelCount := wrapInt (st.kernelCount + 1) }
    traceMsg 2 (.returned a.ret)
    return some (c.result a)

def CStr.get? (s : CStr) : Option String := if s.ptr = 0 then none else some s.text

def tracerTable : HipFunctionTable Tracer
  | .hipInit flags => some (reported present (.hipInit flags) fun _ ↦ 0)
  | .hipGetDevice deviceId => some (reported present (.hipGetDevice deviceId) (intAt deviceId))
  | .hipGetDeviceCount count => some (reported present (.hipGetDeviceCount count) (intAt count))
  | .hipSetDevice deviceId => some (reported present (.hipSetDevice deviceId) fun _ ↦ 0)
  | .hipDeviceSynchronize => some (reported present .hipDeviceSynchronize fun _ ↦ 0)
  | .hipMalloc p size => some (tracedMalloc present (.hipMalloc p size) p size .device)
  | .hipFree p => some (tracedFree present (.hipFree p) p)
  | .hipHostMalloc p size flags =>
    some (tracedMalloc present (.hipHostMalloc p size flags) p size .host)
  | .hipHostFree p => some (tracedFree present (.hipHostFree p) p)
  | .hipMemcpy dst src n kind => some (reported present (.hipMemcpy dst src n kind) fun _ ↦ 0)
  | .hipMemcpyAsync dst src n kind stream =>
    some (reported present (.hipMemcpyAsync dst src n kind stream) fun _ ↦ 0)
  | .hipMemset dst value n => some (reported present (.hipMemset dst value n) fun _ ↦ 0)
  | .hipMemsetAsync dst value n stream =>
    some (reported present (.hipMemsetAsync dst value n stream) fun _ ↦ 0)
  | .hipStreamCreate stream => some (reported present (.hipStreamCreate stream) (handleAt stream))
  | .hipStreamCreateWithFlags stream flags =>
    some (reported present (.hipStreamCreateWithFlags stream flags) (handleAt stream))
  | .hipStreamDestroy stream => some (reported present (.hipStreamDestroy stream) fun _ ↦ 0)
  | .hipStreamSynchronize stream => some (reported present (.hipStreamSynchronize stream) fun _ ↦ 0)
  | .hipEventCreate event => some (reported present (.hipEventCreate event) (handleAt event))
  | .hipEventCreateWithFlags event flags =>
    some (reported present (.hipEventCreateWithFlags event flags) (handleAt event))
  | .hipEventDestroy event => some (reported present (.hipEventDestroy event) fun _ ↦ 0)
  | .hipEventRecord event stream => some (reported present (.hipEventRecord event stream) fun _ ↦ 0)
  | .hipEventSynchronize event => some (reported present (.hipEventSynchronize event) fun _ ↦ 0)
  | .hipModuleLaunchKernel f gx gy gz bx by_ bz shared stream kernelParams extra =>
    some (tracedLaunch present
      (.hipModuleLaunchKernel f gx gy gz bx by_ bz shared stream kernelParams extra) f)
  | .hipLaunchKernel functionAddress numBlocks dimBlocks args shared stream =>
    some (tracedLaunch present
      (.hipLaunchKernel functionAddress numBlocks dimBlocks args shared stream)
      functionAddress)
  | .hipExtModuleLaunchKernel f gx gy gz lx ly lz shared stream kernelParams extra startEvent
      stopEvent flags =>
    some (tracedLaunch present
      (.hipExtModuleLaunchKernel f gx gy gz lx ly lz shared stream kernelParams extra
      startEvent stopEvent flags) f)
  | .hipRegisterFatBinary data => some (reported present (.hipRegisterFatBinary data) HipAnswer.ret)
  | .hipUnregisterFatBinary handle => some do
    traceMsg 2 (.called (.hipUnregisterFatBinary handle) 0 0)
    orAbort (unwrapCall present (.hipUnregisterFatBinary handle)) fun _ ↦ return some .nothing
  | .hipRegisterFunction handle hostFun deviceFun deviceName threadLimit tid bid blockDim gridDim
      wSize => some do
    update (kernelTableAdd hostFun deviceName.get?)
    traceMsg 2 (.called (.hipRegisterFunction handle hostFun deviceFun deviceName threadLimit tid
      bid blockDim gridDim wSize) 0 0)
    orAbort (unwrapCall present (.hipRegisterFunction handle hostFun deviceFun deviceName
      threadLimit tid bid blockDim gridDim wSize)) fun _ ↦ return some .nothing
  | .hipRegisterVar handle hostVar deviceAddress deviceName ext size constant global => some do
    traceMsg 2 (.called (.hipRegisterVar handle hostVar deviceAddress deviceName ext size constant
      global) 0 0)
    orAbort (unwrapCall present (.hipRegisterVar handle hostVar deviceAddress deviceName ext size
      constant global)) fun _ ↦ return some .nothing
  | c => realTable present c

end Wrappers

def emptyBuffer : TrackedBuffer := ⟨0, 0, .device, false, 0⟩

/-- The state that `hip_interceptor_init` of the tracer builds, with its banner. -/
def Tracer.initial (config : TracerConfig) (traceFile ownsFile : Bool) : Tracer :=
  let st : Tracer :=
    ⟨config, traceFile, 0, ownsFile, ⟨List.replicate maxTrackedBuffers emptyBuffer, 0, 1⟩, [], []⟩
  let st := match config.kernelFullDumpList with
    | none => st
    | some list => st.message 1 (.fullDumpEnabled list)
  let st := st.message 1 .initialized
  let st :=
    st.message 1 (.settings config.traceLevel config.traceSync config.traceDump config.traceDumpMax)
  let st := match config.kernelFilter with
    | none => st
    | some f => if f = "" then st else st.message 1 (.filter f)
  if config.kernelCountLimit > 0 then st.message 1 (.limit config.kernelCountLimit) else st

/-- `hip_interceptor_shutdown` of the tracer, up to its wrapper table. -/
def Tracer.shutdown (st : Tracer) : Tracer :=
  let st := st.message 1 .shuttingDown
  let st := st.message 1 (.totalKernels st.kernelCount)
  let st := st.message 1 (.totalBuffers st.buffers.count)
  if st.ownsFile && st.traceFile then { st with traceFile := false } else st

end HrxSystem.Hip
