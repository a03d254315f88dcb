import HrxSystem.Libhrx.Device

namespace HrxSystem.Libhrx

open External Program Counting

variable {σ : Type}

def asI64 (n : ℕ) : ℤ := if n < 2 ^ 63 then n else n - 2 ^ 64

def semaphoreTimeout (timeoutNs : ℕ) : Timeout :=
  if timeoutNs = 2 ^ 64 - 1 then .infinite
  else if timeoutNs = 0 then .immediate
  else .relative (asI64 timeoutNs)

def hrxSemaphoreWait (semaphore : HrxSemaphore) (value timeoutNs : ℕ) : Hrx σ HrxStatus :=
  match semaphore with
  | none => hrxError .invalidArgument "semaphore is NULL"
  | some sem => do
    let e ← call (.semaphoreWait ⟨sem.hal, value⟩ (semaphoreTimeout timeoutNs))
    hrxStatusFromIree e.answer.status

/-- The status, and the payload IREE writes to `*value` whatever the status. -/
def hrxSemaphoreQuery (semaphore : HrxSemaphore) (valueOut : Bool) : Hrx σ (HrxStatus × Option ℕ) :=
  match semaphore, valueOut with
  | some sem, true => do
    let e ← call (.semaphoreQuery sem.hal)
    let s ← hrxStatusFromIree e.answer.status
    return (s, some e.answer.value)
  | _, _ => do
    let s ← hrxError .invalidArgument "semaphore or value is NULL"
    return (s, none)

def hrxSemaphoreCreate (device : HrxDevice) (initialValue : ℕ) (semaphore : Bool) :
    Hrx Memory (HrxStatus × HrxSemaphore) :=
  match device, semaphore with
  | some dev, true => do
    let e ← call (.semaphoreCreate dev.halDevice initialValue)
    if !ok e then return (← hrxStatusFromIree e.answer.status, none)
    hrxDeviceRetain dev.addr
    let a ← intoHandle .semaphores ⟨e.pos, dev⟩
    return (hrxOkStatus, some ⟨a, e.pos⟩)
  | _, _ => return (← hrxError .invalidArgument "device or semaphore is NULL", none)

def hrxSemaphoreRetain (semaphore : ℕ) : Hrx Memory Unit := handleRetain .semaphores semaphore

def hrxSemaphoreRelease (semaphore : ℕ) : Hrx Memory Unit := do
  match ← handleRelease .semaphores semaphore with
  | none => return ()
  | some s => do
    let _ ← call (.semaphoreRelease s.hal)
    hrxDeviceRelease s.device.addr

end HrxSystem.Libhrx
