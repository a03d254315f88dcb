import HrxSystem.Libhrx.MappedBuffers

namespace HrxSystem.Libhrx

open External Program Counting

def BufferCall.On (b : BufferPtr) : BufferCall → Prop
  | .retain a | .release a => a = b.addr
  | .map buffer .. | .unmap buffer | .getDevicePtr buffer _ => buffer = some b
  | _ => False

def BufferCall.isRetain : BufferCall → Bool
  | .retain _ => true
  | _ => false

def BufferCall.isRelease : BufferCall → Bool
  | .release _ => true
  | _ => false

/-- The references to a buffer that its holders took and gave back. -/
def taken (l : BufferLog) : ℕ := l.countP fun e ↦ e.call.isRetain

def given (l : BufferLog) : ℕ := l.countP fun e ↦ e.call.isRelease

/-- What a call does to the mapping of HAL buffer `hal` that is out. -/
def mappingAfter (hal : Obj) (out : Option Obj) (e : Happened) : Option Obj :=
  match e.call with
  | .bufferMapRange buffer .. => if buffer = hal ∧ ok e then some e.pos else out
  | .bufferUnmapRange mapping => if out = some mapping then none else out
  | _ => out

def mappingOut (hal : Obj) (t : Trace) : Option Obj := t.foldl (mappingAfter hal) none

/-- A release of virtual memory that unmaps `mapping`, hands the HAL buffer over once, and then
gives the reference to `device` back. -/
structure VirtualReleased (allocator : DevicePtr) (hal : Obj) (mapping : Option Obj) (device : ℕ)
    (mem : Memory) (o : Outside) (n : ℕ) (r : Outcome Call Answer Memory Returned) : Prop where
  events : ∃ unmaps rest, r.events = unmaps ++
      happens o (n + unmaps.length) (.virtualMemoryRelease allocator.halAllocator hal) :: rest ∧
    unmaps.map Event.call = mapping.toList.map Call.bufferUnmapRange ∧
    (∀ e ∈ rest, (∀ a b, e.call ≠ .virtualMemoryRelease a b) ∧ ∀ b, e.call ≠ .bufferRelease b) ∧
    ∃ m, r.val = ⟨converted o m
      (happens o (n + unmaps.length) (.virtualMemoryRelease allocator.halAllocator hal)), .nothing⟩
  device : r.state.devices = (mem.devices.release device).2

/-- The object behind a virtual buffer, with mapping `out`. -/
structure IsVirtual (hal : Obj) (device : DevicePtr) (out : Option Obj) (buf : HrxBufferS) :
    Prop where
  hal : buf.halBuffer = hal
  pool : buf.halPool = none
  device : buf.device = device
  map : buf.map.map MappedRange.mapping = out

section Object

variable {hal : Obj} {device : DevicePtr} {out : Option Obj} {buf : HrxBufferS} {o : Outside}
  {n : ℕ}

theorem foldl_payloads (n : ℕ) (e : Happened) :
    (payloads o n e).foldl (mappingAfter hal) out = out := by
  unfold payloads
  split <;> rfl

theorem mapRange_virtual (flags offset size : ℕ) (h : IsVirtual hal device out buf) :
    IsVirtual hal device
      (((HrxBufferS.mapRange flags offset size).run o n buf).events.foldl (mappingAfter hal) out)
      ((HrxBufferS.mapRange flags offset size).run o n buf).state := by
  have hc : HrxStatusCode.failedPrecondition ≠ .ok := by decide
  obtain ⟨rfl, hpool, hdevice, hout⟩ := h
  cases hm : buf.map with
  | some m =>
    simp only [HrxBufferS.mapRange, hm, run_hrxError_made hc, run_bind, run_state, run_pure,
      Option.isSome_some, if_true, Outcome.after_mk, List.append_nil, List.nil_append,
      List.length_nil, Nat.add_zero]
    exact ⟨rfl, hpool, hdevice, hout⟩
  | none =>
    rw [hm] at hout
    cases hs : ok
      (happens o n (.bufferMapRange buf.halBuffer (HrxBufferS.accessOf flags) offset size)) with
    | true =>
      simp [HrxBufferS.mapRange, hm, hs, mappingAfter]
      exact ⟨rfl, hpool, hdevice, rfl⟩
    | false =>
      simp [HrxBufferS.mapRange, hm, hs, mappingAfter, run_hrxStatusFromIree_made, foldl_payloads]
      exact ⟨rfl, hpool, hdevice, by rw [hm, ← hout]⟩

theorem unmap_virtual (h : IsVirtual hal device out buf) :
    IsVirtual hal device ((HrxBufferS.unmap.run o n buf).events.foldl (mappingAfter hal) out)
      (HrxBufferS.unmap.run o n buf).state := by
  obtain ⟨rfl, hpool, hdevice, hout⟩ := h
  cases hm : buf.map with
  | none =>
    simp [HrxBufferS.unmap, hm]
    exact ⟨rfl, hpool, hdevice, by rw [← hout, hm]⟩
  | some m =>
    have hm' : out = some m.mapping := by rw [← hout, hm]; rfl
    simp [HrxBufferS.unmap, hm, hm', mappingAfter, run_hrxStatusFromIree_made, foldl_payloads]
    exact ⟨rfl, hpool, hdevice, rfl⟩

theorem getDevicePtr_virtual (h : IsVirtual hal device out buf) :
    IsVirtual hal device ((HrxBufferS.getDevicePtr.run o n buf).events.foldl (mappingAfter hal) out)
      (HrxBufferS.getDevicePtr.run o n buf).state := by
  have hc : HrxStatusCode.unavailable ≠ .ok := by decide
  obtain ⟨rfl, hpool, hdevice, hout⟩ := h
  cases hm : buf.map with
  | some m =>
    simp [HrxBufferS.getDevicePtr, hm]
    exact ⟨rfl, hpool, hdevice, hout⟩
  | none =>
    rw [hm] at hout
    cases hs : ok (happens o n (.bufferMapRange buf.halBuffer 7 0 buf.size)) with
    | true =>
      simp [HrxBufferS.getDevicePtr, hm, hs, mappingAfter]
      exact ⟨rfl, hpool, hdevice, rfl⟩
    | false =>
      simp [HrxBufferS.getDevicePtr, hm, hs, mappingAfter, run_hrxError_made hc, payload]
      exact ⟨rfl, hpool, hdevice, by rw [hm, ← hout]⟩

end Object

theorem mappingOut_append (hal : Obj) (t es : Trace) :
    mappingOut hal (t ++ es) = es.foldl (mappingAfter hal) (mappingOut hal t) := List.foldl_append

/-- Virtual buffer `b` has `k` references, of which the last one goes with the buffer. -/
def HeldBy (b : BufferPtr) (device : DevicePtr) (k : ℕ) (t : Trace) (mem : Memory) : Prop :=
  (k = 0 ∧ mem.buffers.cell b.addr = none) ∨ 0 < k ∧
    ∃ buf, mem.buffers.cell b.addr = some ⟨k, buf⟩ ∧
    IsVirtual b.hal device (mappingOut b.hal t) buf

section Calls

variable {b : BufferPtr} {device : DevicePtr} {k : ℕ} {t : Trace} {mem : Memory} {buf : HrxBufferS}
  {o : Outside}

theorem onBuffer_held {m : Hrx HrxBufferS Returned} (n : ℕ) (hk : 0 < k)
    (hcell : mem.buffers.cell b.addr = some ⟨k, buf⟩)
    (hm : IsVirtual b.hal device
      ((m.run o n buf).events.foldl (mappingAfter b.hal) (mappingOut b.hal t))
      (m.run o n buf).state) :
    HeldBy b device k (t ++ ((onBuffer b.addr m).run o n mem).events)
      ((onBuffer b.addr m).run o n mem).state := by
  have hrun : (onBuffer b.addr m).run o n mem = ⟨(m.run o n buf).val,
      { mem with buffers := mem.buffers.modify b.addr fun _ ↦ (m.run o n buf).state },
      (m.run o n buf).events⟩ := by simp [onBuffer, hcell]
  refine .inr ⟨hk, (m.run o n buf).state, ?_, ?_⟩
  · rw [hrun]
    simp [Heap.modify, hcell]
  · rw [hrun, mappingOut_append]
    exact hm

theorem refused_held {code : HrxStatusCode} (hc : code ≠ .ok) (message : String) (n : ℕ)
    (h : HeldBy b device k t mem) :
    HeldBy b device k
      (t ++ ((return ⟨← hrxError code message, .nothing⟩ : Hrx Memory Returned).run o n mem).events)
      ((return ⟨← hrxError code message, .nothing⟩ : Hrx Memory Returned).run o n mem).state := by
  have hrun : (return ⟨← hrxError code message, .nothing⟩ : Hrx Memory Returned).run o n mem =
      ⟨⟨made o n ⟨code.toInt, some message⟩, .nothing⟩, mem, [payload o n]⟩ := by
    simp [run_hrxError_made hc]
  have hsame : mappingOut b.hal (t ++ [payload o n]) = mappingOut b.hal t := by
    rw [mappingOut_append]
    rfl
  rw [hrun]
  unfold HeldBy
  rw [hsame]
  exact h

theorem retain_held (n : ℕ) (h : HeldBy b device k t mem) (hk : 0 < k) :
    HeldBy b device (k + 1) (t ++ ((BufferCall.retain b.addr).run.run o n mem).events)
      ((BufferCall.retain b.addr).run.run o n mem).state := by
  obtain ⟨rfl, -⟩ | ⟨-, buf, hcell, hbuf⟩ := h
  · omega
  have hrun : (BufferCall.retain b.addr).run.run o n mem =
      ⟨⟨hrxOkStatus, .nothing⟩, { mem with buffers := mem.buffers.retain b.addr }, []⟩ := by
    simp [BufferCall.run, hrxBufferRetain, handleRetain, Kind.buffers]
  rw [hrun, List.append_nil]
  refine .inr ⟨Nat.succ_pos k, buf, ?_, hbuf⟩
  simp [Heap.retain, hcell]

theorem run_bufferRelease_shared (n : ℕ) (hcell : mem.buffers.cell b.addr = some ⟨k + 2, buf⟩) :
    (BufferCall.release b.addr).run.run o n mem =
      ⟨⟨hrxOkStatus, .nothing⟩, { mem with buffers := mem.buffers.put b.addr (some ⟨k + 1, buf⟩) },
        []⟩ := by
  simp [BufferCall.run, hrxBufferRelease, handleRelease, Kind.buffers, Heap.release, hcell]

theorem dropMap_buffers (map : Option MappedRange) :
    Confined Memory.buffers (fun _ ↦ True) (HrxBufferS.dropMap map) := by
  cases map with
  | none => exact .pure _
  | some m => exact .bind (.call trivial) fun _ ↦ .pure _

theorem dropPool_buffers (pool : Option PoolPtr) :
    Confined Memory.buffers (fun _ ↦ True) (HrxBufferS.dropPool pool) := by
  cases pool with
  | none => exact .pure _
  | some p =>
    exact halPoolRelease_calls (fun _ ↦ trivial) (fun _ ↦ trivial) (fun _ ↦ trivial)
      (fun _ ↦ trivial) _

theorem drop_buffers (x : HrxBufferS) : Confined Memory.buffers (fun _ ↦ True) x.drop := by
  refine .bind (dropMap_buffers x.map) fun _ ↦ .bind (.call trivial) fun _ ↦
    .bind (dropPool_buffers x.halPool) fun _ ↦ ?_
  exact hrxDeviceRelease_calls (fun _ ↦ trivial) (fun _ ↦ trivial) (fun _ ↦ trivial)
    (fun _ _ ↦ rfl) _

theorem release_held (n : ℕ) (h : HeldBy b device k t mem) (hk : 0 < k) :
    HeldBy b device (k - 1) (t ++ ((BufferCall.release b.addr).run.run o n mem).events)
      ((BufferCall.release b.addr).run.run o n mem).state := by
  obtain ⟨rfl, -⟩ | ⟨-, buf, hcell, hbuf⟩ := h
  · omega
  match k, hk with
  | k + 2, _ =>
    rw [run_bufferRelease_shared n hcell, List.append_nil]
    exact .inr ⟨Nat.succ_pos k, buf, Heap.put_cell_self _ _ _, hbuf⟩
  | 1, _ =>
    refine .inl ⟨rfl, ?_⟩
    have hrun : ((BufferCall.release b.addr).run.run o n mem).state =
        (buf.drop.run o n { mem with buffers := mem.buffers.put b.addr none }).state := by
      simp [BufferCall.run, hrxBufferRelease, handleRelease, Kind.buffers, Heap.release, hcell]
    rw [hrun, (drop_buffers buf o n _).1]
    exact Heap.put_cell_self _ _ _

def BufferCall.counts (c : BufferCall) (k : ℕ) : ℕ :=
  if c.isRetain then k + 1 else if c.isRelease then k - 1 else k

theorem BufferCall.counts_add (c : BufferCall) (hk : 0 < k) :
    c.counts k + (if c.isRelease then 1 else 0) = k + if c.isRetain then 1 else 0 := by
  unfold counts
  cases c <;> simp [isRetain, isRelease]
  omega

theorem BufferCall.On.buffer_eq {c : BufferCall} (h : c.On b) : c.buffer = some b.addr := by
  cases c with
  | retain a | release a => exact congrArg some h
  | map buffer flags offset size mappedPtr => exact congrArg (Option.map BufferPtr.addr) h
  | unmap buffer => exact congrArg (Option.map BufferPtr.addr) h
  | getDevicePtr buffer devicePtr => exact congrArg (Option.map BufferPtr.addr) h
  | _ => exact h.elim

theorem BufferCall.run_held {c : BufferCall} (n : ℕ) (hc : c.On b) (h : HeldBy b device k t mem)
    (hk : 0 < k) :
    HeldBy b device (c.counts k) (t ++ (c.run.run o n mem).events) (c.run.run o n mem).state := by
  have hinvalid : HrxStatusCode.invalidArgument ≠ .ok := by decide
  have hbuf : ∃ buf, mem.buffers.cell b.addr = some ⟨k, buf⟩ ∧
      IsVirtual b.hal device (mappingOut b.hal t) buf := by
    obtain ⟨rfl, -⟩ | ⟨-, hbuf⟩ := h
    · omega
    · exact hbuf
  obtain ⟨buf, hcell, hbuf⟩ := hbuf
  cases c with
  | retain a =>
    obtain rfl : a = b.addr := hc
    exact retain_held n h hk
  | release a =>
    obtain rfl : a = b.addr := hc
    exact release_held n h hk
  | map buffer flags offset size mappedPtr =>
    obtain rfl : buffer = some b := hc
    cases mappedPtr with
    | true => exact onBuffer_held n hk hcell (mapRange_virtual flags offset size hbuf)
    | false => exact refused_held hinvalid "buffer or mapped_ptr is NULL" n h
  | unmap buffer =>
    obtain rfl : buffer = some b := hc
    exact onBuffer_held n hk hcell (unmap_virtual hbuf)
  | getDevicePtr buffer devicePtr =>
    obtain rfl : buffer = some b := hc
    cases devicePtr with
    | true => exact onBuffer_held n hk hcell (getDevicePtr_virtual hbuf)
    | false => exact refused_held hinvalid "buffer or device_ptr is NULL" n h
  | _ => exact hc.elim

theorem reserve_held {al : DevicePtr} {affinity size n : ℕ}
    (h : ((hrxAllocatorVirtualMemoryReserve (some al) affinity size true).run o n mem).val.written =
      .buffer b) :
    HeldBy b al 1
      ((hrxAllocatorVirtualMemoryReserve (some al) affinity size true).run o n mem).events
      ((hrxAllocatorVirtualMemoryReserve (some al) affinity size true).run o n mem).state := by
  cases hs : ok (happens o n (.virtualMemoryReserve al.halAllocator affinity size)) with
  | false => simp [hrxAllocatorVirtualMemoryReserve, wrapBuffer, hs] at h
  | true =>
    simp only [hrxAllocatorVirtualMemoryReserve, wrapBuffer, run_bind, run_call, hs,
      hrxDeviceRetain, handleRetain,
      intoHandle, run_update, run_state, run_pure, Outcome.after_mk, Bool.not_true,
      Bool.false_eq_true, if_false,
      Written.buffer.injEq, List.append_nil, List.length_singleton, happens_pos] at h ⊢
    subst h
    refine .inr ⟨Nat.one_pos, _, Heap.put_cell_self _ _ _, ⟨rfl, rfl, rfl, ?_⟩⟩
    rfl

end Calls

/-- A run that reserves virtual buffer `b` and then only makes calls of its holders. -/
structure Reserves (b : BufferPtr) (al : DevicePtr)
    (e₀ : Entry Call Answer Memory Returned BufferCall) (l : BufferLog) : Prop where
  call : ∃ affinity size, e₀.call = .virtualMemoryReserve (some al) affinity size true
  written : e₀.result.val.written = .buffer b
  calls : ∀ e ∈ l, e.call.On b

theorem taken_append (l l' : BufferLog) : taken (l ++ l') = taken l + taken l' := List.countP_append

theorem given_append (l l' : BufferLog) : given (l ++ l') = given l + given l' := List.countP_append

theorem held_of_run {b : BufferPtr} {al : DevicePtr} {mem₀ mem : Memory} {l₀ l : BufferLog}
    {e₀ : Entry Call Answer Memory Returned BufferCall} (h : BufferRuns mem₀ mem l₀)
    (hl₀ : l₀ = e₀ :: l) (hres : Reserves b al e₀ l) :
    ∃ k, k + given l = 1 + taken l ∧ HeldBy b al k (trace l₀) mem := by
  induction h generalizing l with
  | start => cases hl₀
  | @call mem l₁ c o hrun hlive ih =>
    rcases List.eq_nil_or_concat l with rfl | ⟨l₂, f, rfl⟩
    · obtain ⟨rfl, he⟩ : l₁ = [] ∧ _ = e₀ := by
        rcases l₁ with _ | ⟨e₁, l₁⟩
        · simpa using hl₀
        · simp at hl₀
      obtain ⟨affinity, size, hcall⟩ := hres.call
      have hwritten := hres.written
      subst he
      obtain rfl : c = _ := hcall
      refine ⟨1, rfl, ?_⟩
      rw [List.nil_append, trace_single]
      exact reserve_held hwritten
    · rw [List.concat_eq_append, ← List.cons_append] at hl₀
      obtain ⟨rfl, hf⟩ := List.append_inj' hl₀ rfl
      obtain rfl : _ = f := by simpa using hf
      have hcalls : ∀ e ∈ l₂, e.call.On b := fun e he ↦ hres.calls e (by simp [he])
      obtain ⟨k, hk, hheld⟩ := ih rfl ⟨hres.call, hres.written, hcalls⟩
      have hon : c.On b := hres.calls ⟨mem, c, c.run.run o (trace (e₀ :: l₂)).length mem⟩ (by simp)
      have hpos : 0 < k := by
        rcases hheld with ⟨-, hnone⟩ | ⟨hpos, -⟩
        · obtain ⟨arc, harc⟩ := hlive b.addr (hon.buffer_eq)
          rw [hnone] at harc
          cases harc
        · exact hpos
      refine ⟨c.counts k, ?_, ?_⟩
      · rw [List.concat_eq_append, taken_append, given_append]
        have hcounts := c.counts_add hpos
        simp only [taken, given, List.countP_singleton] at hcounts hk ⊢
        omega
      · rw [trace_append, trace_single]
        exact BufferCall.run_held _ hon hheld hpos

section Release

variable {b : BufferPtr} {device allocator : DevicePtr} {k : ℕ} {mem : Memory} {buf : HrxBufferS}

theorem hrxDeviceRelease_devices (d : ℕ) (o : Outside) (n : ℕ) (mem : Memory) :
    ((hrxDeviceRelease d).run o n mem).state.devices = (mem.devices.release d).2 := by
  cases h : (mem.devices.release d).1 with
  | none => simp [hrxDeviceRelease, handleRelease, Kind.devices, h]
  | some x => simp [hrxDeviceRelease, handleRelease, Kind.devices, h, HrxDeviceS.drop]

/-- The calls that hand no HAL buffer back. -/
def KeepsBuffers (c : Call) : Prop :=
  (∀ a b, c ≠ .virtualMemoryRelease a b) ∧ ∀ b, c ≠ .bufferRelease b

theorem hrxDeviceRelease_keepsBuffers (d : ℕ) (o : Outside) (n : ℕ) (mem : Memory) :
    ∀ e ∈ ((hrxDeviceRelease d).run o n mem).events, KeepsBuffers e.call := by
  have hcalls : Confined (fun _ : Memory ↦ ()) KeepsBuffers (hrxDeviceRelease d) :=
    hrxDeviceRelease_calls (fun _ ↦ ⟨nofun, nofun⟩) (fun _ ↦ ⟨nofun, nofun⟩)
      (fun _ ↦ ⟨nofun, nofun⟩)
      (fun _ _ ↦ rfl) d
  exact (hcalls o n mem).2

theorem payloads_keepsBuffers (o : Outside) (n : ℕ) (e : Happened) :
    ∀ f ∈ payloads o n e, KeepsBuffers f.call := by
  intro f hf
  rw [payloads_calls o n e f hf]
  exact ⟨nofun, nofun⟩

theorem run_dropMap (map : Option MappedRange) (o : Outside) (n : ℕ) (mem : Memory) :
    ∃ unmaps : Trace, (HrxBufferS.dropMap map).run o n mem = ⟨(), mem, unmaps⟩ ∧
      unmaps.map Event.call = (map.map MappedRange.mapping).toList.map Call.bufferUnmapRange := by
  cases map with
  | none => exact ⟨[], rfl, rfl⟩
  | some m => exact ⟨[happens o n (.bufferUnmapRange m.mapping)], rfl, rfl⟩

theorem releaseVirtual_once {out : Option Obj} (hbuf : IsVirtual b.hal device out buf)
    (allocator : DevicePtr) (mem : Memory) (o : Outside) (n : ℕ) :
    VirtualReleased allocator b.hal out device.addr mem o n
      ((releaseVirtual allocator buf).run o n mem) := by
  obtain ⟨hhal, hpool, hdevice, hmap⟩ := hbuf
  obtain ⟨unmaps, hrun, hunmaps⟩ := run_dropMap buf.map o n mem
  have hpool' : ∀ m, (HrxBufferS.dropPool buf.halPool).run o m mem = ⟨(), mem, []⟩ := by
    intro m
    rw [hpool]
    rfl
  rw [hmap] at hunmaps
  obtain ⟨s, hs⟩ :
    ∃ s, s = happens o (n + unmaps.length) (.virtualMemoryRelease allocator.halAllocator b.hal) :=
    ⟨_, rfl⟩
  obtain ⟨q, hq⟩ : ∃ q, q = (hrxDeviceRelease device.addr).run o (n + unmaps.length + 1) mem :=
    ⟨_, rfl⟩
  have hall : (releaseVirtual allocator buf).run o n mem =
      ⟨⟨converted o (n + unmaps.length + 1 + q.events.length) s, .nothing⟩, q.state,
        unmaps ++ s :: (q.events ++ payloads o (n + unmaps.length + 1 + q.events.length) s)⟩ := by
    simp [releaseVirtual, hrun, hpool', hhal, hdevice, run_hrxStatusFromIree_made, hs, hq]
  rw [hall]
  refine ⟨⟨unmaps,
    q.events ++ payloads o (n + unmaps.length + 1 + q.events.length) s, by rw [hs], hunmaps, ?_,
    n + unmaps.length + 1 + q.events.length, by rw [hs]⟩, ?_⟩
  · intro e he
    rcases List.mem_append.mp he with he | he
    · exact hrxDeviceRelease_keepsBuffers _ _ _ _ e (hq ▸ he)
    · exact payloads_keepsBuffers _ _ _ e he
  · change q.state.devices = (mem.devices.release device.addr).2
    rw [hq, hrxDeviceRelease_devices]

theorem run_virtualMemoryRelease_last (hcell : mem.buffers.cell b.addr = some ⟨1, buf⟩)
    (o : Outside) (n : ℕ) :
    (hrxAllocatorVirtualMemoryRelease (some allocator) (some b)).run o n mem =
      (releaseVirtual allocator buf).run o n
        { mem with buffers := mem.buffers.put b.addr none } := by
  simp [hrxAllocatorVirtualMemoryRelease, handleRelease, Kind.buffers, Heap.release, hcell]

theorem run_virtualMemoryRelease_shared (hcell : mem.buffers.cell b.addr = some ⟨k + 2, buf⟩)
    (o : Outside) (n : ℕ) :
    (hrxAllocatorVirtualMemoryRelease (some allocator) (some b)).run o n mem =
      ⟨⟨none, .panicked⟩, { mem with buffers := mem.buffers.put b.addr (some ⟨k + 1, buf⟩) },
        []⟩ := by
  simp [hrxAllocatorVirtualMemoryRelease, handleRelease, Kind.buffers, Heap.release, hcell]

end Release

/-- Virtual memory with one reference is released once and in order, and a release with more panics
before it reaches IREE. -/
theorem virtual_memory_released_once {b : BufferPtr} {al : DevicePtr} {mem₀ mem : Memory}
    {l : BufferLog} {e₀ : Entry Call Answer Memory Returned BufferCall}
    (h : BufferRuns mem₀ mem (e₀ :: l)) (hres : Reserves b al e₀ l) (hheld : given l ≤ taken l)
    (allocator : DevicePtr) (o : Outside) (n : ℕ) :
    (given l = taken l →
      VirtualReleased allocator b.hal (mappingOut b.hal (trace (e₀ :: l))) al.addr mem o n
      ((hrxAllocatorVirtualMemoryRelease (some allocator) (some b)).run o n mem)) ∧
    (given l < taken l →
      ((hrxAllocatorVirtualMemoryRelease (some allocator) (some b)).run o n mem).val.written =
        .panicked ∧
      ((hrxAllocatorVirtualMemoryRelease (some allocator) (some b)).run o n mem).events = []) := by
  obtain ⟨k, hk, hstate⟩ := held_of_run h rfl hres
  rcases hstate with ⟨rfl, -⟩ | ⟨-, buf, hcell, hbuf⟩
  · omega
  constructor
  · intro heq
    obtain rfl : k = 1 := by omega
    rw [run_virtualMemoryRelease_last hcell]
    obtain ⟨hevents, hdevice⟩ := releaseVirtual_once hbuf allocator
      { mem with buffers := mem.buffers.put b.addr none } o n
    exact ⟨hevents, hdevice⟩
  · intro hlt
    obtain ⟨j, rfl⟩ : ∃ j, k = j + 2 := ⟨k - 2, by omega⟩
    rw [run_virtualMemoryRelease_shared hcell]
    exact ⟨rfl, rfl⟩

theorem on_of_calls {b : BufferPtr} {l : BufferLog} {cs : List BufferCall}
    (hcs : l.map Entry.call = cs) (h : ∀ c ∈ cs, c.On b) : ∀ e ∈ l, e.call.On b :=
  fun _ he ↦ h _ (hcs ▸ List.mem_map_of_mem he)

def sharedProgram : List (BufferCall × Outside) :=
  [(.virtualMemoryReserve (some ⟨1, 4, 2, 3⟩) 0 64 true, fun _ _ ↦ {}), (.retain 1, fun _ _ ↦ {}),
    (.map (some ⟨1, 0⟩) 1 0 64 true, fun _ _ ↦ {}), (.release 1, fun _ _ ↦ {})]

theorem virtual_memory_released_mapped :
    mappingOut 0 (trace (play BufferCall.run Memory.initial [] sharedProgram).2) = some 2 ∧
      VirtualReleased ⟨1, 4, 2, 3⟩ 0 (some 2) 1
        (play BufferCall.run Memory.initial [] sharedProgram).1 (fun _ _ ↦ {}) 3
        ((hrxAllocatorVirtualMemoryRelease (some ⟨1, 4, 2, 3⟩) (some ⟨1, 0⟩)).run (fun _ _ ↦ {}) 3
          (play BufferCall.run Memory.initial [] sharedProgram).1) := by
  have hrun : BufferRuns Memory.initial _ (play BufferCall.run Memory.initial [] sharedProgram).2 :=
    Runs.play .start sharedProgram (by
      refine ⟨nofun, ?_, ?_, ?_, trivial⟩
      all_goals
        intro a h
        cases h
        exact ⟨_, rfl⟩)
  have hout : mappingOut 0 (trace (play BufferCall.run Memory.initial [] sharedProgram).2) =
      some 2 := by decide
  have hreleased := (virtual_memory_released_once (b := ⟨1, 0⟩) hrun ⟨⟨0, 64, rfl⟩, rfl,
    on_of_calls (show _ = [.retain 1, .map (some ⟨1, 0⟩) 1 0 64 true, .release 1] from rfl)
      (by simp [BufferCall.On])⟩ (by decide) ⟨1, 4, 2, 3⟩ (fun _ _ ↦ {}) 3).1 (by decide)
  refine ⟨hout, ?_⟩
  rw [← hout]
  exact hreleased

def retainedProgram : List (BufferCall × Outside) :=
  [(.virtualMemoryReserve (some ⟨1, 4, 2, 3⟩) 0 64 true, fun _ _ ↦ {}), (.retain 1, fun _ _ ↦ {})]

theorem virtual_memory_release_panics :
    ¬ ∀ b al mem₀ mem l e₀ allocator o n, BufferRuns mem₀ mem (e₀ :: l) → Reserves b al e₀ l →
    given l ≤ taken l →
      ((hrxAllocatorVirtualMemoryRelease (some allocator) (some b)).run o n mem).val.written ≠
        .panicked := by
  intro h
  have hrun :
      BufferRuns Memory.initial _ (play BufferCall.run Memory.initial [] retainedProgram).2 :=
    Runs.play .start retainedProgram (by
      refine ⟨nofun, ?_, trivial⟩
      intro a h
      cases h
      exact ⟨_, rfl⟩)
  refine h ⟨1, 0⟩ ⟨1, 4, 2, 3⟩ _ _ _ _ ⟨1, 4, 2, 3⟩ (fun _ _ ↦ {}) 2 hrun ⟨⟨0, 64, rfl⟩, rfl, ?_⟩
    (by decide) rfl
  exact on_of_calls (show _ = [.retain 1] from rfl) (by simp [BufferCall.On])

end HrxSystem.Libhrx
