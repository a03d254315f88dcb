import HrxSystem.External.Triples
import Mathlib.Data.Int.Notation

namespace HrxSystem.Hip

open External Program

/-- A pointer; 0 is NULL. -/
abbrev Ptr := ℕ

structure Dim3 where
  x : ℕ
  y : ℕ
  z : ℕ
deriving DecidableEq

structure CStr where
  ptr : Ptr
  text : String
deriving DecidableEq

inductive HipSymbol
  | hipInit | hipDriverGetVersion | hipRuntimeGetVersion | hipGetDevice | hipGetDeviceCount
    | hipSetDevice
  | hipDeviceReset | hipDeviceSynchronize | hipGetDeviceProperties | hipDeviceGetAttribute
  | hipDeviceGetName
  | hipMalloc | hipFree | hipHostMalloc | hipHostFree | hipMemGetInfo
  | hipMemcpy | hipMemcpyAsync | hipMemset | hipMemsetAsync
  | hipStreamCreate | hipStreamCreateWithFlags | hipStreamDestroy | hipStreamSynchronize
  | hipStreamQuery
  | hipStreamWaitEvent
  | hipEventCreate | hipEventCreateWithFlags | hipEventDestroy | hipEventRecord
  | hipEventSynchronize
  | hipEventQuery | hipEventElapsedTime
  | hipModuleLoad | hipModuleLoadData | hipModuleUnload | hipModuleGetFunction | hipModuleGetGlobal
  | hipModuleLaunchKernel | hipLaunchKernel | hipExtModuleLaunchKernel
  | hipRegisterFatBinary | hipUnregisterFatBinary | hipRegisterFunction | hipRegisterVar
  | hipGetErrorString | hipGetErrorName | hipGetLastError | hipPeekAtLastError
deriving DecidableEq

inductive HipCall
  | hipInit (flags : ℕ)
  | hipDriverGetVersion (driverVersion : Ptr)
  | hipRuntimeGetVersion (runtimeVersion : Ptr)
  | hipGetDevice (deviceId : Ptr)
  | hipGetDeviceCount (count : Ptr)
  | hipSetDevice (deviceId : ℤ)
  | hipDeviceReset
  | hipDeviceSynchronize
  | hipGetDeviceProperties (prop : Ptr) (deviceId : ℤ)
  | hipDeviceGetAttribute (value : Ptr) (attr : ℕ) (deviceId : ℤ)
  | hipDeviceGetName (name : Ptr) (len deviceId : ℤ)
  | hipMalloc (p : Ptr) (size : ℕ)
  | hipFree (p : Ptr)
  | hipHostMalloc (p : Ptr) (size flags : ℕ)
  | hipHostFree (p : Ptr)
  | hipMemGetInfo (free total : Ptr)
  | hipMemcpy (dst src : Ptr) (n : ℕ) (kind : ℤ)
  | hipMemcpyAsync (dst src : Ptr) (n : ℕ) (kind : ℤ) (stream : Ptr)
  | hipMemset (dst : Ptr) (value : ℤ) (n : ℕ)
  | hipMemsetAsync (dst : Ptr) (value : ℤ) (n : ℕ) (stream : Ptr)
  | hipStreamCreate (stream : Ptr)
  | hipStreamCreateWithFlags (stream : Ptr) (flags : ℕ)
  | hipStreamDestroy (stream : Ptr)
  | hipStreamSynchronize (stream : Ptr)
  | hipStreamQuery (stream : Ptr)
  | hipStreamWaitEvent (stream event : Ptr) (flags : ℕ)
  | hipEventCreate (event : Ptr)
  | hipEventCreateWithFlags (event : Ptr) (flags : ℕ)
  | hipEventDestroy (event : Ptr)
  | hipEventRecord (event stream : Ptr)
  | hipEventSynchronize (event : Ptr)
  | hipEventQuery (event : Ptr)
  | hipEventElapsedTime (ms start stop : Ptr)
  | hipModuleLoad (module_ : Ptr) (fname : CStr)
  | hipModuleLoadData (module_ image : Ptr)
  | hipModuleUnload (module_ : Ptr)
  | hipModuleGetFunction (function module_ : Ptr) (kname : CStr)
  | hipModuleGetGlobal (dptr bytes hmod : Ptr) (name : CStr)
  | hipModuleLaunchKernel (f : Ptr) (gx gy gz bx by_ bz shared : ℕ)
      (stream kernelParams extra : Ptr)
  | hipLaunchKernel (functionAddress : Ptr) (numBlocks dimBlocks : Dim3) (args : Ptr) (shared : ℕ)
      (stream : Ptr)
  | hipExtModuleLaunchKernel (f : Ptr) (gx gy gz lx ly lz shared : ℕ)
      (stream kernelParams extra startEvent stopEvent : Ptr) (flags : ℕ)
  | hipRegisterFatBinary (data : Ptr)
  | hipUnregisterFatBinary (handle : Ptr)
  | hipRegisterFunction (handle hostFun deviceFun : Ptr) (deviceName : CStr) (threadLimit : ℤ)
      (tid bid blockDim gridDim wSize : Ptr)
  | hipRegisterVar (handle hostVar deviceAddress : Ptr) (deviceName : CStr) (ext : ℤ) (size : ℕ)
      (constant global : ℤ)
  | hipGetErrorString (error : ℤ)
  | hipGetErrorName (error : ℤ)
  | hipGetLastError
  | hipPeekAtLastError
deriving DecidableEq

namespace HipCall

def symbol : HipCall → HipSymbol
  | hipInit .. => .hipInit
  | hipDriverGetVersion .. => .hipDriverGetVersion
  | hipRuntimeGetVersion .. => .hipRuntimeGetVersion
  | hipGetDevice .. => .hipGetDevice
  | hipGetDeviceCount .. => .hipGetDeviceCount
  | hipSetDevice .. => .hipSetDevice
  | hipDeviceReset => .hipDeviceReset
  | hipDeviceSynchronize => .hipDeviceSynchronize
  | hipGetDeviceProperties .. => .hipGetDeviceProperties
  | hipDeviceGetAttribute .. => .hipDeviceGetAttribute
  | hipDeviceGetName .. => .hipDeviceGetName
  | hipMalloc .. => .hipMalloc
  | hipFree .. => .hipFree
  | hipHostMalloc .. => .hipHostMalloc
  | hipHostFree .. => .hipHostFree
  | hipMemGetInfo .. => .hipMemGetInfo
  | hipMemcpy .. => .hipMemcpy
  | hipMemcpyAsync .. => .hipMemcpyAsync
  | hipMemset .. => .hipMemset
  | hipMemsetAsync .. => .hipMemsetAsync
  | hipStreamCreate .. => .hipStreamCreate
  | hipStreamCreateWithFlags .. => .hipStreamCreateWithFlags
  | hipStreamDestroy .. => .hipStreamDestroy
  | hipStreamSynchronize .. => .hipStreamSynchronize
  | hipStreamQuery .. => .hipStreamQuery
  | hipStreamWaitEvent .. => .hipStreamWaitEvent
  | hipEventCreate .. => .hipEventCreate
  | hipEventCreateWithFlags .. => .hipEventCreateWithFlags
  | hipEventDestroy .. => .hipEventDestroy
  | hipEventRecord .. => .hipEventRecord
  | hipEventSynchronize .. => .hipEventSynchronize
  | hipEventQuery .. => .hipEventQuery
  | hipEventElapsedTime .. => .hipEventElapsedTime
  | hipModuleLoad .. => .hipModuleLoad
  | hipModuleLoadData .. => .hipModuleLoadData
  | hipModuleUnload .. => .hipModuleUnload
  | hipModuleGetFunction .. => .hipModuleGetFunction
  | hipModuleGetGlobal .. => .hipModuleGetGlobal
  | hipModuleLaunchKernel .. => .hipModuleLaunchKernel
  | hipLaunchKernel .. => .hipLaunchKernel
  | hipExtModuleLaunchKernel .. => .hipExtModuleLaunchKernel
  | hipRegisterFatBinary .. => .hipRegisterFatBinary
  | hipUnregisterFatBinary .. => .hipUnregisterFatBinary
  | hipRegisterFunction .. => .hipRegisterFunction
  | hipRegisterVar .. => .hipRegisterVar
  | hipGetErrorString .. => .hipGetErrorString
  | hipGetErrorName .. => .hipGetErrorName
  | hipGetLastError => .hipGetLastError
  | hipPeekAtLastError => .hipPeekAtLastError

end HipCall

/-- The exported symbols: those routed through the active table, and those passed straight on to the
backend. -/
inductive Exported
  | routed (c : HipCall)
  | direct (name : String) (args : List Ptr)
deriving DecidableEq

/-- What leaves the interception layer: a call of a backend slot, a call of a symbol that is passed
straight on, and the tracer's own reads of memory, through `hipMemcpy` into its staging vector or
directly. -/
inductive HipRequest
  | call (c : HipCall)
  | pass (name : String) (args : List Ptr)
  | stage (source : Ptr) (size : ℕ)
  | read (source : Ptr) (size : ℕ)
deriving DecidableEq

/-- What the backend returns, and what then stands where the call's out pointers point to. A text
that is not terminated is `none`. -/
structure HipAnswer where
  ret : ℤ := 0
  out : ℤ := 0
  out₂ : ℤ := 0
  text : Option String := some ""
  bytes : List UInt8 := []
deriving DecidableEq

abbrev HipEvent := Event HipRequest HipAnswer

abbrev HipTrace := List HipEvent

abbrev Backend := Oracle HipRequest HipAnswer

abbrev HipM (σ α : Type) := Program HipRequest HipAnswer σ α

inductive HipResult
  | error (e : ℤ)
  | pointer (p : ℤ)
  | unknown
  | nothing
deriving DecidableEq

namespace HipCall

def result (c : HipCall) (a : HipAnswer) : HipResult :=
  match c with
  | hipRegisterFatBinary _ | hipGetErrorString _ | hipGetErrorName _ => .pointer a.ret
  | hipUnregisterFatBinary _ | hipRegisterFunction .. | hipRegisterVar .. => .nothing
  | _ => .error a.ret

def missing (c : HipCall) : HipResult :=
  match c with
  | hipRegisterFatBinary _ => .pointer 0
  | hipGetErrorString _ | hipGetErrorName _ => .unknown
  | hipUnregisterFatBinary _ | hipRegisterFunction .. | hipRegisterVar .. => .nothing
  | _ => .error 0

end HipCall

variable {σ : Type}

/-- A function table: the entry in the slot of a call, applied to its arguments. A result `none` is
an abort, which ends the process. -/
abbrev HipFunctionTable (σ : Type) := HipCall → Option (HipM σ (Option HipResult))

abbrev Present := HipSymbol → Bool

def realTable (present : Present) : HipFunctionTable σ := fun c ↦
  if present c.symbol then some (do
    let e ← call (.call c)
    return some (c.result e.answer))
  else none

/-- The exported functions: `fwd!` and the ones written out. -/
def export_ (table : HipFunctionTable σ) (c : HipCall) : HipM σ (Option HipResult) :=
  match table c with
  | some f => f
  | none => return some c.missing

def orAbort {α β : Type} (m : HipM σ (Option α)) (k : α → HipM σ (Option β)) :
    HipM σ (Option β) := do
  match ← m with
  | none => return none
  | some a => k a

def exports (table : HipFunctionTable σ) : List HipCall → HipM σ (Option (List HipResult))
  | [] => return some []
  | c :: cs =>
    orAbort (export_ table c) fun r ↦ orAbort (exports table cs) fun rs ↦ return some (r :: rs)

/-- `(real.slot.unwrap())(..)`: without the symbol the wrapper aborts. -/
def unwrapCall (present : Present) (c : HipCall) : HipM σ (Option HipAnswer) :=
  if present c.symbol then do
    let e ← call (.call c)
    return some e.answer
  else return none

def intAt (p : Ptr) (a : HipAnswer) : ℤ := if p = 0 then -1 else a.out

def handleAt (p : Ptr) (a : HipAnswer) : ℤ := if p = 0 then 0 else a.out

end HrxSystem.Hip
