import HrxSystem.Libhrx.Objects

namespace HrxSystem.Libhrx

open External Program Counting

variable {T : Type}

/-- Where the objects behind one kind of handle live. -/
structure Kind (T : Type) where
  heap : Memory → Heap T
  store : Heap T → Memory → Memory
  heap_store : ∀ h m, heap (store h m) = h

namespace Kind

def devices : Kind HrxDeviceS := ⟨Memory.devices, fun h m ↦ { m with devices := h }, fun _ _ ↦ rfl⟩

def semaphores : Kind HrxSemaphoreS :=
  ⟨Memory.semaphores, fun h m ↦ { m with semaphores := h }, fun _ _ ↦ rfl⟩

def streams : Kind HrxStreamS := ⟨Memory.streams, fun h m ↦ { m with streams := h }, fun _ _ ↦ rfl⟩

def buffers : Kind HrxBufferS := ⟨Memory.buffers, fun h m ↦ { m with buffers := h }, fun _ _ ↦ rfl⟩

def executables : Kind HrxExecutableS :=
  ⟨Memory.executables, fun h m ↦ { m with executables := h }, fun _ _ ↦ rfl⟩

def modules : Kind HrxModuleS := ⟨Memory.modules, fun h m ↦ { m with modules := h }, fun _ _ ↦ rfl⟩

def functions : Kind HrxFunctionS :=
  ⟨Memory.functions, fun h m ↦ { m with functions := h }, fun _ _ ↦ rfl⟩

end Kind

/-- `into_handle`: the new object is born with one reference. -/
def intoHandle (k : Kind T) (obj : T) : Hrx Memory ℕ := do
  let e ← call .arcNew
  let m ← state
  let a := (k.heap m).fresh e.answer.value
  update (k.store ((k.heap m).put a (some ⟨1, obj⟩)))
  return a

def handleRetain (k : Kind T) (h : ℕ) : Hrx Memory Unit :=
  update fun m ↦ k.store ((k.heap m).retain h) m

/-- `handle_release`: hands back the object to drop when this was the last reference. -/
def handleRelease (k : Kind T) (h : ℕ) : Hrx Memory (Option T) := do
  let m ← state
  let r := (k.heap m).release h
  update (k.store r.2)
  return r.1

end HrxSystem.Libhrx
