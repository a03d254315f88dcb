import HrxSystem.External.Triples
import HrxSystem.Libhrx.Handle
import Mathlib.Data.Multiset.AddSub
import Mathlib.Algebra.BigOperators.Group.Multiset.Basic

namespace HrxSystem.Libhrx

open External Program Counting

/-- A reference or a block that the library has to give back once. -/
inductive Res
  | vmInstance (p : Obj)
  | proactorPool (p : Obj)
  | topology (p : Obj)
  | executor (p : Obj)
  | loader (p : Obj) (index : ℕ)
  | allocator (p : Obj)
  | driver (p : Obj)
  | halDevice (p : Obj)
  | tracker (p : Obj)
  | group (p : Obj)
  | block (p : Obj)
  | notification (p : Obj)
  | buffer (p : Obj)
  | semaphore (p : Obj)
  | executableCache (p : Obj)
  | executable (p : Obj)
  | file (p : Obj)
  | vmModule (p : Obj)
  | context (p : Obj)
deriving DecidableEq

/-- What a call hands to the library, when it succeeds where it can fail. -/
def acquired (e : Happened) : Multiset Res :=
  let made (r : Res) : Multiset Res := if ok e then {r} else 0
  match e.call with
  | .vmInstanceCreate => made (.vmInstance e.pos)
  | .proactorPoolCreate => made (.proactorPool e.pos)
  | .taskTopologyInitialize _ => {.topology e.pos}
  | .taskExecutorCreate _ => made (.executor e.pos)
  | .createAllAvailableExecutableLoaders _ =>
    if ok e then (Multiset.range e.answer.value).map (.loader e.pos) else 0
  | .allocatorCreateHeap => made (.allocator e.pos)
  | .allocatorRetain a => {.allocator a}
  | .taskDriverCreate .. | .driverRegistryTryCreate => made (.driver e.pos)
  | .driverCreateDefaultDevice .. | .driverCreateDeviceByOrdinal .. => made (.halDevice e.pos)
  | .frontierTrackerCreate => made (.tracker e.pos)
  | .deviceGroupCreateFromDevice .. => made (.group e.pos)
  | .deviceGroupRetain g => {.group g}
  | .driverQueryAvailableDevices _ | .allocatorMalloc _ | .hostCallThunk => made (.block e.pos)
  | .notificationCreate _ => made (.notification e.pos)
  | .allocatorAllocateBuffer .. | .allocatorImportBuffer .. | .virtualMemoryReserve ..
  | .queueAlloca .. =>
    made (.buffer e.pos)
  | .bufferRetain p => {.buffer p}
  | .semaphoreCreate .. => made (.semaphore e.pos)
  | .executableCacheCreate _ => made (.executableCache e.pos)
  | .executableCachePrepareExecutable .. => made (.executable e.pos)
  | .fopen _ => made (.file e.pos)
  | .bytecodeModuleCreate .. | .halModuleCreate .. => made (.vmModule e.pos)
  | .vmContextCreateWithModules .. => made (.context e.pos)
  | _ => 0

def released (e : Happened) : Multiset Res :=
  match e.call with
  | .vmInstanceRelease p => {.vmInstance p}
  | .proactorPoolRelease p => {.proactorPool p}
  | .taskTopologyDeinit p => {.topology p}
  | .taskExecutorRelease p => {.executor p}
  | .executableLoaderRelease p i => {.loader p i}
  | .allocatorRelease p => {.allocator p}
  | .driverRelease p => {.driver p}
  | .halDeviceRelease p => {.halDevice p}
  | .frontierTrackerRelease p => {.tracker p}
  | .deviceGroupRelease p => {.group p}
  | .allocatorFree (some p) | .freeHostCallThunk p => {.block p}
  | .notificationRelease p => {.notification p}
  | .bufferRelease (some p) | .virtualMemoryRelease _ p => {.buffer p}
  | .semaphoreRelease p => {.semaphore p}
  | .executableCacheRelease p => {.executableCache p}
  | .executableRelease p => {.executable p}
  | .fclose p => {.file p}
  | .vmModuleRelease p => {.vmModule p}
  | .vmContextRelease p => {.context p}
  | _ => 0

def allAcquired (t : Trace) : Multiset Res := (t.map acquired).sum

def allReleased (t : Trace) : Multiset Res := (t.map released).sum

@[simp] theorem allAcquired_append (t u : Trace) :
    allAcquired (t ++ u) = allAcquired t + allAcquired u := by
  simp [allAcquired]

@[simp] theorem allReleased_append (t u : Trace) :
    allReleased (t ++ u) = allReleased t + allReleased u := by
  simp [allReleased]

@[simp] theorem allAcquired_single (e : Happened) :
    allAcquired [e] = acquired e := by simp [allAcquired]

@[simp] theorem allReleased_single (e : Happened) :
    allReleased [e] = released e := by simp [allReleased]

/-- After `t`, the library still has to give back `owed`. -/
def Owes (owed : Multiset Res) (t : Trace) : Prop := allAcquired t = allReleased t + owed

def idle : Call → Bool
  | .vmInstanceCreate | .proactorPoolCreate | .taskTopologyInitialize _ | .taskExecutorCreate _
  | .createAllAvailableExecutableLoaders _ | .allocatorCreateHeap | .allocatorRetain _
  | .taskDriverCreate .. | .driverRegistryTryCreate | .driverCreateDefaultDevice ..
  | .driverCreateDeviceByOrdinal .. | .frontierTrackerCreate | .deviceGroupCreateFromDevice ..
  | .deviceGroupRetain _ | .driverQueryAvailableDevices _ | .allocatorMalloc _
  | .notificationCreate _ | .allocatorAllocateBuffer .. | .allocatorImportBuffer ..
  | .virtualMemoryReserve .. | .queueAlloca .. | .semaphoreCreate .. | .executableCacheCreate _
  | .executableCachePrepareExecutable .. | .fopen _ | .bytecodeModuleCreate .. | .halModuleCreate ..
  | .vmContextCreateWithModules .. | .vmInstanceRelease _ | .proactorPoolRelease _
  | .taskTopologyDeinit _ | .taskExecutorRelease _ | .executableLoaderRelease ..
  | .allocatorRelease _ | .driverRelease _ | .halDeviceRelease _ | .frontierTrackerRelease _
  | .deviceGroupRelease _ | .allocatorFree _ | .notificationRelease _ | .bufferRetain _
  | .bufferRelease _ | .virtualMemoryRelease .. | .semaphoreRelease _ | .executableCacheRelease _
  | .executableRelease _ | .fclose _ | .vmModuleRelease _ | .vmContextRelease _ | .hostCallThunk
  | .freeHostCallThunk _ => false
  | _ => true

theorem acquired_idle {e : Happened} (he : idle e.call = true) : acquired e = 0 := by
  obtain ⟨p, c, a⟩ := e
  cases c <;> first | rfl | cases he

theorem released_idle {e : Happened} (he : idle e.call = true) : released e = 0 := by
  obtain ⟨p, c, a⟩ := e
  cases c <;> first | rfl | cases he

/-- A call that releases a reference acquires none. -/
theorem acquired_releasing {e : Happened} {r : Res} (he : released e = {r}) : acquired e = 0 := by
  obtain ⟨p, c, a⟩ := e
  cases c <;> first | rfl | exact (Multiset.singleton_ne_zero r he.symm).elim

section Owes

variable {owed : Multiset Res} {t : Trace} {e : Happened} {r : Res}

theorem Owes.idle (h : Owes owed t) (he : idle e.call = true) : Owes owed (t ++ [e]) := by
  simp only [Owes, allAcquired_append, allReleased_append, allAcquired_single, allReleased_single,
    acquired_idle he, released_idle he, add_zero]
  exact h

theorem Owes.acquire (h : Owes owed t) (hrel : released e = 0) :
    Owes (acquired e + owed) (t ++ [e]) := by
  simp only [Owes, allAcquired_append, allReleased_append, allAcquired_single, allReleased_single,
    hrel, add_zero]
  rw [h, add_assoc, add_comm owed]

theorem Owes.release (h : Owes (released e + owed) t) (hacq : acquired e = 0) :
    Owes owed (t ++ [e]) := by
  simp only [Owes, allAcquired_append, allReleased_append, allAcquired_single, allReleased_single,
    hacq, add_zero]
  rw [h, add_assoc]

end Owes

end HrxSystem.Libhrx
