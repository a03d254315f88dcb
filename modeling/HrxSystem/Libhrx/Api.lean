import HrxSystem.Libhrx.RuntimeOwnership
import HrxSystem.Libhrx.SemaphoreLists

namespace HrxSystem.Libhrx

open External Program Counting

/-- The entry points that create an object. A `Bool` argument says whether the out pointer is
non-null. -/
inductive CreateCall
  | allocateBuffer (allocator : HrxAllocator) (params : HrxBufferParams) (size : ℕ) (buffer : Bool)
  | importBuffer (allocator : HrxAllocator) (params : HrxBufferParams) (hostPtr : Option ℕ)
      (size : ℕ) (buffer : Bool)
  | virtualMemoryReserve (allocator : HrxAllocator) (affinity size : ℕ) (virtualBuffer : Bool)
  | bufferAllocate (stream : HrxStream) (size memType usage : ℕ) (buffer : Bool)
  | semaphoreCreate (device : HrxDevice) (initialValue : ℕ) (semaphore : Bool)
  | streamCreate (device : HrxDevice) (flags : ℕ) (stream : Bool)
  | executableLoadData (device : HrxDevice) (data : Option ℕ) (size : ℕ)
      (format : Option FormatText) (executable : Bool)
  | executableLoadFile (device : HrxDevice) (path : Option ℕ) (format : Option FormatText)
      (executable : Bool)
  | moduleLoadVmfb (device : HrxDevice) (data : Option ℕ) (size : ℕ) (module_ : Bool)
  | lookupFunction (module_ : HrxModule) (name : Option ℕ) (function : Bool)

namespace CreateCall

def run : CreateCall → Hrx Memory Returned
  | allocateBuffer allocator params size buffer =>
    hrxAllocatorAllocateBuffer allocator params size buffer
  | importBuffer allocator params hostPtr size buffer =>
    hrxAllocatorImportBuffer allocator params hostPtr size buffer
  | virtualMemoryReserve allocator affinity size virtualBuffer =>
    hrxAllocatorVirtualMemoryReserve allocator affinity size virtualBuffer
  | bufferAllocate stream size memType usage buffer =>
    hrxBufferAllocate stream size memType usage buffer
  | semaphoreCreate device initialValue semaphore => do
    let r ← hrxSemaphoreCreate device initialValue semaphore
    return ⟨r.1, r.2.elim .nothing .semaphore⟩
  | streamCreate device flags stream => hrxStreamCreate device flags stream
  | executableLoadData device data size format executable =>
    hrxExecutableLoadData device data size format executable
  | executableLoadFile device path format executable =>
    hrxExecutableLoadFile device path format executable
  | moduleLoadVmfb device data size module_ => hrxModuleLoadVmfb device data size module_
  | lookupFunction module_ name function => hrxModuleLookupFunction module_ name function

def parent : CreateCall → Option Ref
  | allocateBuffer d .. | importBuffer d .. | virtualMemoryReserve d .. | semaphoreCreate d ..
    | streamCreate d ..
  | executableLoadData d .. | executableLoadFile d .. | moduleLoadVmfb d .. => d.map Ref.device
  | bufferAllocate s .. => s.map Ref.stream
  | lookupFunction m .. => m.map Ref.module_

inductive Complete : CreateCall → Prop
  | allocateBuffer (d : DevicePtr) (params : HrxBufferParams) (size : ℕ) :
      Complete (.allocateBuffer (some d) params size true)
  | importBuffer (d : DevicePtr) (params : HrxBufferParams) (hostPtr size : ℕ) :
      Complete (.importBuffer (some d) params (some hostPtr) size true)
  | virtualMemoryReserve (d : DevicePtr) (affinity size : ℕ) : Complete
      (.virtualMemoryReserve (some d) affinity size true)
  | bufferAllocate (s size memType usage : ℕ) : Complete
      (.bufferAllocate (some s) size memType usage true)
  | semaphoreCreate (d : DevicePtr) (initialValue : ℕ) : Complete
      (.semaphoreCreate (some d) initialValue true)
  | streamCreate (d : DevicePtr) (flags : ℕ) : Complete (.streamCreate (some d) flags true)
  | executableLoadData (d : DevicePtr) (data size : ℕ) (format : Option FormatText) :
      Complete (.executableLoadData (some d) (some data) size format true)
  | executableLoadFile (d : DevicePtr) (path : ℕ) (format : Option FormatText) :
      Complete (.executableLoadFile (some d) (some path) format true)
  | moduleLoadVmfb (d : DevicePtr) (data size : ℕ) : Complete
      (.moduleLoadVmfb (some d) (some data) size true)
  | lookupFunction (m : ModulePtr) (name : ℕ) : Complete (.lookupFunction (some m) (some name) true)

theorem complete_or_refused (k : CreateCall) :
    k.Complete ∨ ∃ message, k.run = do return ⟨← hrxError .invalidArgument message, .nothing⟩ := by
  cases k with
  | allocateBuffer allocator params size buffer =>
    rcases allocator with _ | d
    · exact .inr ⟨_, rfl⟩
    cases buffer with
    | false => exact .inr ⟨_, rfl⟩
    | true => exact .inl (.allocateBuffer d params size)
  | importBuffer allocator params hostPtr size buffer =>
    rcases allocator with _ | d
    · exact .inr ⟨_, rfl⟩
    rcases hostPtr with _ | ptr
    · exact .inr ⟨_, rfl⟩
    cases buffer with
    | false => exact .inr ⟨_, rfl⟩
    | true => exact .inl (.importBuffer d params ptr size)
  | virtualMemoryReserve allocator affinity size buffer =>
    rcases allocator with _ | d
    · exact .inr ⟨_, rfl⟩
    cases buffer with
    | false => exact .inr ⟨_, rfl⟩
    | true => exact .inl (.virtualMemoryReserve d affinity size)
  | bufferAllocate stream size memType usage buffer =>
    rcases stream with _ | s
    · exact .inr ⟨_, rfl⟩
    cases buffer with
    | false => exact .inr ⟨_, rfl⟩
    | true => exact .inl (.bufferAllocate s size memType usage)
  | semaphoreCreate device initialValue semaphore =>
    have hrefused : (do
        let r ← (do return (← hrxError .invalidArgument "device or semaphore is NULL", none) :
          Hrx Memory (HrxStatus × HrxSemaphore))
        return ⟨r.1, r.2.elim .nothing .semaphore⟩ : Hrx Memory Returned) =
          do return ⟨← hrxError .invalidArgument "device or semaphore is NULL", .nothing⟩ :=
      ext_run fun o n mem ↦ by simp
    rcases device with _ | d
    · exact .inr ⟨_, hrefused⟩
    cases semaphore with
    | false => exact .inr ⟨_, hrefused⟩
    | true => exact .inl (.semaphoreCreate d initialValue)
  | streamCreate device flags stream =>
    rcases device with _ | d
    · exact .inr ⟨_, rfl⟩
    cases stream with
    | false => exact .inr ⟨_, rfl⟩
    | true => exact .inl (.streamCreate d flags)
  | executableLoadData device data size format executable =>
    rcases device with _ | d
    · exact .inr ⟨_, rfl⟩
    rcases data with _ | data
    · exact .inr ⟨_, rfl⟩
    cases executable with
    | false => exact .inr ⟨_, rfl⟩
    | true => exact .inl (.executableLoadData d data size format)
  | executableLoadFile device path format executable =>
    rcases device with _ | d
    · exact .inr ⟨_, rfl⟩
    rcases path with _ | path
    · exact .inr ⟨_, rfl⟩
    cases executable with
    | false => exact .inr ⟨_, rfl⟩
    | true => exact .inl (.executableLoadFile d path format)
  | moduleLoadVmfb device data size module_ =>
    rcases device with _ | d
    · exact .inr ⟨_, rfl⟩
    rcases data with _ | data
    · exact .inr ⟨_, rfl⟩
    cases module_ with
    | false => exact .inr ⟨_, rfl⟩
    | true => exact .inl (.moduleLoadVmfb d data size)
  | lookupFunction module_ name function =>
    rcases module_ with _ | m
    · exact .inr ⟨_, rfl⟩
    rcases name with _ | name
    · exact .inr ⟨_, rfl⟩
    cases function with
    | false => exact .inr ⟨_, rfl⟩
    | true => exact .inl (.lookupFunction m name)

end CreateCall

section Create

variable {a b h : Multiset Res} {e : Multiset Ref} {F : Globals → Prop} {v : Watch}
  {p : Outside → Prop}

def aliveIf (r : Option Ref) (R : Standing Memory) : Standing Memory := r.elim R (alive · R)

theorem booked_aliveIf {α : Type} {r : Option Ref} {R : Standing Memory} {m : Hrx Memory α}
    {Q : α → Trace → Memory → Prop} (hm : Triple p (Booked estate a b h R) m Q) :
    Triple p (Booked estate a b h (aliveIf r R)) m Q := by
  cases r with
  | none => exact hm
  | some r => exact booked_forget hm

theorem unless_of_created {m : Hrx Memory Returned} {P : Trace → Memory → Prop}
    (hm : Triple p P m (created a b h e F v)) : Triple p P m (createdUnless a b h e F v) :=
  hm.mono (fun _ _ hA ↦ hA) fun _ _ _ hA _ ↦ hA

theorem refused_accounted (r : Option Ref) (message : String) :
    Triple p (Booked estate a b h (aliveIf r (owning e F v)))
      (do return ⟨← hrxError .invalidArgument message, .nothing⟩ : Hrx Memory Returned)
      (createdUnless a b h e F v) :=
  unless_of_created (booked_aliveIf (created_error _ _))

/-- The new object takes over what the call took, and every other reference the call took is given
back. -/
theorem CreateCall.run_accounted (k : CreateCall)
    (hknown : ∀ m name out, k = .lookupFunction (some m) name out → ∀ f vmFunction,
      v.known f ⟨m, vmFunction⟩) :
    Triple p (Booked estate a b h (aliveIf k.parent (owning e F v))) k.run
      (createdUnless a b h e F v) := by
  rcases k.complete_or_refused with hcomplete | ⟨message, hrefused⟩
  · cases hcomplete with
    | allocateBuffer d params size =>
      exact unless_of_created (allocateBuffer_accounted d params size)
    | importBuffer d params hostPtr size =>
      exact unless_of_created (importBuffer_accounted d params hostPtr size)
    | virtualMemoryReserve d affinity size =>
      exact unless_of_created (virtualMemoryReserve_accounted d affinity size)
    | bufferAllocate s size memType usage =>
      exact unless_of_created (booked_forget (hrxBufferAllocate_accounted s size memType usage))
    | semaphoreCreate d initialValue =>
      refine unless_of_created
        ((hrxSemaphoreCreate_accounted d initialValue).bind fun r ↦ .pure fun t mem hA ↦ ?_)
      obtain ⟨-, -, hA⟩ := hA
      cases hr : r.2 with
      | none =>
        rw [hr, Option.elim_none, add_zero] at hA
        exact created_nothing hA
      | some s =>
        rw [hr] at hA
        exact hA
    | streamCreate d flags => exact unless_of_created (hrxStreamCreate_accounted d flags)
    | executableLoadData d data size format =>
      exact unless_of_created (executableLoadData_accounted data size format)
    | executableLoadFile d path format => exact executableLoadFile_accounted path format
    | moduleLoadVmfb d data size => exact unless_of_created (moduleLoadVmfb_accounted d data size)
    | lookupFunction m name =>
      exact unless_of_created (lookupFunction_accounted m name (hknown m _ _ rfl))
  · rw [hrefused]
    exact refused_accounted _ message

end Create

/-- A reference that a caller can hold. The one to an allocator is to its device and its HAL
allocator. -/
inductive Hold
  | ref (r : Ref)
  | allocator (d : DevicePtr)
deriving DecidableEq

namespace Hold

def toRef : Hold → Ref
  | ref r => r
  | allocator d => .device d

def parts : Hold → Multiset Res
  | ref _ => 0
  | allocator d => {.allocator d.halAllocator}

def retain : Hold → Hrx Memory Unit
  | ref (.device d) => hrxDeviceRetain d.addr
  | ref (.semaphore s) => hrxSemaphoreRetain s.addr
  | ref (.stream s) => hrxStreamRetain s
  | ref (.buffer b) => hrxBufferRetain b.addr
  | ref (.executable x) => hrxExecutableRetain x.addr
  | ref (.module_ m) => hrxModuleRetain m.addr
  | ref (.function f) => hrxFunctionRetain f
  | allocator d => hrxAllocatorRetain d

def release : Hold → Hrx Memory Unit
  | ref (.device d) => hrxDeviceRelease d.addr
  | ref (.semaphore s) => hrxSemaphoreRelease s.addr
  | ref (.stream s) => hrxStreamRelease s
  | ref (.buffer b) => hrxBufferRelease b.addr
  | ref (.executable x) => hrxExecutableRelease x.addr
  | ref (.module_ m) => hrxModuleRelease m.addr
  | ref (.function f) => hrxFunctionRelease f
  | allocator d => hrxAllocatorRelease d

variable {a b h : Multiset Res} {e : Multiset Ref} {F : Globals → Prop} {v : Watch}
  {p : Outside → Prop}

theorem retain_accounted (x : Hold) :
    Triple p (Booked estate a b h (alive x.toRef (owning e F v))) x.retain
      (fun _ ↦ Accounted a b (x.parts + h) (e + {x.toRef}) F v) := by
  cases x with
  | allocator d => exact hrxAllocatorRetain_accounted d
  | ref r =>
    rw [parts, zero_add]
    cases r with
    | device d => exact hrxDeviceRetain_accounted d
    | semaphore s => exact Owner.semaphores.handleRetain_accounted s.addr ⟨s.hal, ⟨0, 0, 0, 0⟩⟩
    | stream s =>
      exact Owner.streams.handleRetain_accounted s ⟨0, none, false, 0, .null, ⟨0, 0, 0, 0⟩⟩
    | buffer b =>
      exact Owner.buffers.handleRetain_accounted b.addr ⟨none, b.hal, none, ⟨0, 0, 0, 0⟩, 0, 0⟩
    | executable x => exact Owner.executables.handleRetain_accounted x.addr ⟨x.hal, 0, ⟨0, 0, 0, 0⟩⟩
    | module_ m => exact hrxModuleRetain_accounted m
    | function f => exact Owner.functions.handleRetain_accounted f ⟨⟨0, 0⟩, 0⟩

theorem release_accounted (x : Hold) :
    Triple p (Accounted a b (x.parts + h) (e + {x.toRef}) F v) x.release
      (fun _ ↦ Accounted a b h e F v) := by
  cases x with
  | allocator d => exact hrxAllocatorRelease_accounted d
  | ref r =>
    rw [parts, zero_add]
    cases r with
    | device d => exact hrxDeviceRelease_accounted d
    | semaphore s => exact hrxSemaphoreRelease_accounted s
    | stream s => exact hrxStreamRelease_accounted s
    | buffer b => exact hrxBufferRelease_accounted b
    | executable x => exact hrxExecutableRelease_accounted x
    | module_ m => exact hrxModuleRelease_accounted m
    | function f => exact hrxFunctionRelease_accounted f

end Hold

def Res.ofDevice : Res → Bool
  | .allocator _ | .group _ | .halDevice _ => true
  | _ => false

def Sparing (c : Call) : Prop :=
  ∀ e : Happened, e.call = c → ∀ r : Res, r.ofDevice = true → r ∉ acquired e ∧ r ∉ released e

theorem sparing_of_idle {c : Call} (hc : idle c = true) : Sparing c := by
  rintro e rfl r -
  rw [acquired_idle hc, released_idle hc]
  exact ⟨Multiset.notMem_zero r, Multiset.notMem_zero r⟩

section Queue

open SemaphoreLists

/-- The calls of the queue operations: none but those for the thunk of a host call hands out or
takes back anything. -/
abbrev Queueing {α : Type} (m : Hrx Memory α) : Prop := Aside Sparing m

theorem queueing_idle {α : Type} {m : Hrx Memory α} (hm : Aside (fun c ↦ idle c = true) m) :
    Queueing m :=
  fun o n s ↦ ⟨(hm o n s).1, fun e he ↦ sparing_of_idle ((hm o n s).2 e he)⟩

theorem hostCallThunk_sparing : Sparing .hostCallThunk := by
  rintro e he r hr
  refine ⟨fun hmem ↦ ?_, by simp only [released, he, Multiset.notMem_zero, not_false_eq_true]⟩
  simp only [acquired, he] at hmem
  split at hmem
  · rw [Multiset.mem_singleton.mp hmem] at hr
    cases hr
  · exact Multiset.notMem_zero r hmem

theorem freeHostCallThunk_sparing (thunk : Obj) : Sparing (.freeHostCallThunk thunk) := by
  rintro e he r hr
  refine ⟨by simp only [acquired, he, Multiset.notMem_zero, not_false_eq_true], fun hmem ↦ ?_⟩
  simp only [released, he] at hmem
  rw [Multiset.mem_singleton.mp hmem] at hr
  cases hr

theorem status_queueing (s : IreeStatus) : Queueing (hrxStatusFromIree s) :=
  queueing_idle (hrxStatusFromIree_calls (fun _ ↦ rfl) s)

theorem refuse_queueing (code : HrxStatusCode) (message : String) :
    Queueing (refuse code message) :=
  .bind (queueing_idle (hrxError_calls (fun _ ↦ rfl) code message)) fun _ ↦ .pure _

theorem submitting_queueing {α : Type} {prepare : Hrx Memory (Except HrxStatus α)}
    {waits signals : CallerListPtr}
    {submit : α → List SemaphorePoint → List SemaphorePoint → Hrx Memory HrxStatus}
    (hprepare : Queueing prepare) (hsubmit : ∀ x w g, Queueing (submit x w g)) :
    Queueing (submitting prepare waits signals submit) := by
  refine hprepare.bind fun r ↦ ?_
  cases r with
  | error s => exact .pure _
  | ok x =>
    change Queueing (withLists waits signals (submit x))
    unfold withLists
    cases SemaphoreLists.toIreeSemList waits with
    | error fault => exact .pure _
    | ok w =>
      cases SemaphoreLists.toIreeSemList signals with
      | error fault => exact .pure _
      | ok g => exact .bind (hsubmit x w g) fun _ ↦ .pure _

theorem transferBuffer_queueing (device : DevicePtr) (qa : ℕ) (command : Command) :
    Queueing (transferBuffer device qa command) := by
  have hfail : ∀ s, Aside (fun c ↦ idle c = true)
      (do return .error (← hrxStatusFromIree s) : Hrx Memory (Except HrxStatus Obj)) := fun s ↦
    .bind (hrxStatusFromIree_calls (fun _ ↦ rfl) s) fun _ ↦ .pure _
  refine queueing_idle
    (.bind (.call rfl) fun _ ↦ .ite (hfail _) (.bind (.call rfl) fun _ ↦ .ite ?_ ?_))
  · exact .bind (.call rfl) fun _ ↦ hfail _
  refine .bind (.call rfl) fun _ ↦ .ite (.bind (.call rfl) fun _ ↦ hfail _) ?_
  exact .bind (.call rfl) fun _ ↦ .ite (.bind (.call rfl) fun _ ↦ hfail _) (.pure _)

theorem executeTransfer_queueing (device : DevicePtr) (qa : ℕ) (cb : Obj)
    (w g : List SemaphorePoint) :
    Queueing (executeTransfer device qa cb w g) :=
  queueing_idle
    (.bind (.call rfl) fun _ ↦ .bind (.call rfl) fun _ ↦ hrxStatusFromIree_calls (fun _ ↦ rfl) _)

theorem submit_queueing (device : HrxDevice) (affinity : ℕ) (waits signals : CallerListPtr)
    (k : QueueOperation) :
    Queueing (k.submit device affinity waits signals) := by
  cases k with
  | fill buffer offset size pattern patternSize =>
    simp only [QueueOperation.submit, SemaphoreLists.hrxQueueFill]
    split
    · exact submitting_queueing (transferBuffer_queueing _ _ _) (executeTransfer_queueing _ _)
    · exact refuse_queueing _ _
  | copy src srcOffset dst dstOffset size =>
    simp only [QueueOperation.submit, SemaphoreLists.hrxQueueCopy]
    split
    · exact submitting_queueing (transferBuffer_queueing _ _ _) (executeTransfer_queueing _ _)
    · exact refuse_queueing _ _
  | barrier =>
    cases device with
    | none => exact refuse_queueing _ _
    | some d =>
      refine submitting_queueing (.pure _) fun _ w g ↦ ?_
      exact .bind (.call (sparing_of_idle rfl)) fun _ ↦ status_queueing _
  | hostCall callback =>
    simp only [QueueOperation.submit, hrxQueueHostCall]
    split
    · refine submitting_queueing (.bind (.call hostCallThunk_sparing) fun _ ↦ .ite ?_ (.pure _))
        fun thunk w g ↦ ?_
      · exact .bind (queueing_idle (hrxError_calls (fun _ ↦ rfl) _ _)) fun _ ↦ .pure _
      · refine .bind (.call (sparing_of_idle rfl)) fun _ ↦ .ite ?_ (status_queueing _)
        exact .bind (.call (freeHostCallThunk_sparing thunk)) fun _ ↦ status_queueing _
    · exact refuse_queueing _ _
  | dispatch args =>
    simp only [QueueOperation.submit, hrxQueueDispatch]
    split
    · split
      · exact refuse_queueing _ _
      · split
        · exact refuse_queueing _ _
        · refine submitting_queueing (.pure _) fun _ w g ↦ ?_
          exact .bind (.call (sparing_of_idle rfl)) fun _ ↦ status_queueing _
    · exact refuse_queueing _ _

end Queue

end HrxSystem.Libhrx
