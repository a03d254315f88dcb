import HrxSystem.Libhrx.Buffer
import HrxSystem.Libhrx.Executable
import HrxSystem.Libhrx.Module
import HrxSystem.Libhrx.Ownership

namespace HrxSystem.Libhrx

open External Program Counting

variable {a b h : Multiset Res} {e : Multiset Ref} {F : Globals → Prop} {v : Watch}
  {p : Outside → Prop}

section Device

variable {mem : Memory} {d : ℕ} {x : HrxDeviceS} {k : ℕ}

theorem run_hrxDeviceRelease_last (hcell : mem.devices.cell d = some ⟨1, x⟩) (o : Outside) (n : ℕ) :
    (hrxDeviceRelease d).run o n mem = ⟨(), { mem with devices := mem.devices.put d none },
      [happens o n (.allocatorRelease x.halAllocator),
        happens o (n + 1) (.deviceGroupRelease x.halDeviceGroup),
        happens o (n + 2) (.halDeviceRelease x.halDevice)]⟩ := by
  simp [hrxDeviceRelease, handleRelease, Kind.devices, Heap.release, hcell, HrxDeviceS.drop]

theorem run_hrxDeviceRelease_shared (hcell : mem.devices.cell d = some ⟨k + 2, x⟩) (o : Outside)
    (n : ℕ) :
    (hrxDeviceRelease d).run o n mem =
      ⟨(), { mem with devices := mem.devices.put d (some ⟨k + 1, x⟩) }, []⟩ := by
  simp [hrxDeviceRelease, handleRelease, Kind.devices, Heap.release, hcell]

theorem releases_device (x : HrxDeviceS) (o : Outside) (n : ℕ) :
    allAcquired [happens o n (.allocatorRelease x.halAllocator),
      happens o (n + 1) (.deviceGroupRelease x.halDeviceGroup),
      happens o (n + 2) (.halDeviceRelease x.halDevice)] = 0 ∧
    allReleased [happens o n (.allocatorRelease x.halAllocator),
      happens o (n + 1) (.deviceGroupRelease x.halDeviceGroup),
      happens o (n + 2) (.halDeviceRelease x.halDevice)] = x.parts := by
  constructor
  · simp [allAcquired, acquired]
  · simp only [allReleased, List.map_cons, List.map_nil, List.sum_cons, List.sum_nil, released,
      happens_call, add_zero, HrxDeviceS.parts, Multiset.insert_eq_cons, ← Multiset.singleton_add]

/-- A device that is given up is dropped with its last reference, as one piece. -/
theorem hrxDeviceRelease_named (d : ℕ) (obj : HrxDeviceS) :
    Triple p (Accounted a b h (e + {.device (obj.ptr d)}) F v) (hrxDeviceRelease d)
      (fun _ ↦ Accounted a b h e F v) := by
  rintro o t mem - ⟨hentries, hO⟩
  obtain ⟨n, x, hcell, -⟩ := Owner.devices.live_cell hO.balanced (a := d) (x := obj)
    (Multiset.mem_add.mpr (.inr (Multiset.mem_add.mpr (.inr (Multiset.mem_singleton_self _)))))
  have hb := Owner.devices.release_balanced (x := obj) hO.balanced
  have hestate := Owner.devices.release_estate mem d
  change mem.devices.cell d = some ⟨n + 1, x⟩ at hcell
  change Balanced (e + (mem.devices.release d).1.elim 0 Owner.devices.refs)
    { mem with devices := (mem.devices.release d).2 } at hb
  change estate { mem with devices := (mem.devices.release d).2 } +
    (mem.devices.release d).1.elim 0 HrxDeviceS.parts = estate mem at hestate
  cases n with
  | zero =>
    have hrel : mem.devices.release d = (some x, mem.devices.put d none) := by
      simp [Heap.release, hcell]
    rw [hrel] at hb hestate
    rw [run_hrxDeviceRelease_last hcell]
    obtain ⟨hacq, hreleased⟩ := releases_device x o t.length
    refine ⟨?_, (add_zero e) ▸ hb, hO.globals, ⟨hO.known.null, hO.known.functions⟩, ?_, ?_⟩
    · rw [Entries, allAcquired_append, allReleased_append, hacq, hreleased, add_zero]
      rw [Entries, ← hestate] at hentries
      rw [hentries, Option.elim_some]
      abel
    · rw [List.length_append]
      exact Nat.le_add_right_of_le hO.since
    · intro d' x' hd'
      rcases hO.kept d' x' hd' with ⟨k, hk⟩ | hdropped
      · by_cases hd : d' = d
        · rw [hd, hcell] at hk
          cases hk
          exact .inr ⟨t, _, _, _, [], rfl, hO.since, rfl, rfl, rfl⟩
        · exact .inl ⟨k, (Heap.put_cell_of_ne _ _ hd).trans hk⟩
      · have hsnoc := ((hdropped.snoc (happens o t.length (.allocatorRelease x.halAllocator))).snoc
          (happens o (t.length + 1) (.deviceGroupRelease x.halDeviceGroup))).snoc
          (happens o (t.length + 2) (.halDeviceRelease x.halDevice))
        simp only [List.append_assoc, List.cons_append, List.nil_append] at hsnoc
        exact .inr hsnoc
  | succ n =>
    have hrel : mem.devices.release d = (none, mem.devices.put d (some ⟨n + 1, x⟩)) := by
      simp [Heap.release, hcell]
    rw [hrel, Option.elim_none, add_zero] at hb hestate
    rw [run_hrxDeviceRelease_shared hcell, List.append_nil]
    refine ⟨by rw [Entries, hestate]; exact hentries,
      Owner.devices.owning_store hO hb (fun _ _ _ ↦ .inl trivial)
      (.inr (Heap.within_put ?_))⟩
    intro arc harc
    have hsame := harc.symm.trans hcell
    cases hsame
    exact ⟨n + 1, rfl⟩

theorem hrxDeviceRelease_accounted (d : DevicePtr) :
    Triple p (Accounted a b h (e + {.device d}) F v) (hrxDeviceRelease d.addr)
      (fun _ ↦ Accounted a b h e F v) :=
  hrxDeviceRelease_named d.addr ⟨0, 0, d.halAllocator, d.halDeviceGroup, d.halDevice, [], []⟩

end Device

theorem accounted_release {c : Call} {r : Res}
    (hrel : ∀ e : Happened, e.call = c → released e = {r}) :
    Triple p (Accounted a b ({r} + h) e F v) (call c) (fun _ ↦ Accounted a b h e F v) :=
  booked_give hrel

theorem hrxSemaphoreRelease_accounted (s : SemaphorePtr) :
    Triple p (Accounted a b h (e + {.semaphore s}) F v) (hrxSemaphoreRelease s.addr)
      (fun _ ↦ Accounted a b h e F v) := by
  refine (Owner.semaphores.handleRelease_accounted (fun _ _ ↦ rfl) s.addr
    ⟨s.hal, ⟨0, 0, 0, 0⟩⟩).bind fun r ↦ ?_
  cases r with
  | none => exact .pure fun _ _ hA ↦ hA
  | some obj =>
    refine .bind
      (accounted_release (r := .semaphore obj.hal) fun e he ↦ by simp only [released, he])
      fun _ ↦ hrxDeviceRelease_accounted obj.device

theorem hrxSemaphoreRelease_null :
    Triple p (Accounted a b h e F v) (hrxSemaphoreRelease 0) (fun _ ↦ Accounted a b h e F v) := by
  rintro o t mem - hA
  have hnull : mem.semaphores.release 0 = (none, mem.semaphores) := by
    simp only [Heap.release, hA.2.known.null]
  have hrun : (hrxSemaphoreRelease 0).run o t.length mem = ⟨(), mem, []⟩ := by
    simp [hrxSemaphoreRelease, handleRelease, Kind.semaphores, hnull]
  rw [hrun, List.append_nil]
  exact hA

section Streams

open HrxStreamS

/-- A program on a stream that keeps its semaphore and its device, and hands out or takes back
nothing. -/
abbrev Settled {α : Type} (m : Hrx HrxStreamS α) : Prop :=
  Confined (fun st ↦ (st.semaphore, st.device)) (fun c ↦ idle c = true) m

theorem status_settled (s : IreeStatus) : Settled (hrxStatusFromIree s) :=
  hrxStatusFromIree_calls (fun _ ↦ rfl) s

theorem flushInner_settled : Settled flushInner := by
  refine .bind .state fun self ↦ .ite (.pure _)
    (.bind (.call rfl) fun e ↦ .ite (status_settled _) ?_)
  refine .bind (.call rfl) fun x ↦ .ite (status_settled _) (.bind (.update fun _ ↦ rfl) fun _ ↦ ?_)
  exact .bind (.call rfl) fun _ ↦ .bind (.update fun _ ↦ rfl) fun _ ↦ .pure _

theorem semaphoreWait_settled (s : SemaphorePtr) (value timeout : ℕ) :
    Settled (hrxSemaphoreWait (some s) value timeout) :=
  .bind (.call rfl) fun _ ↦ status_settled _

theorem settle_settled : Settled settle := by
  have hwait : Settled awaitTimeline := .bind .state fun _ ↦
    .ite (.bind (semaphoreWait_settled _ _ _) fun _ ↦ .pure _) (.pure _)
  exact .bind .state fun _ ↦ .ite (.bind flushInner_settled fun _ ↦ hwait) hwait

theorem drop_settled : Settled HrxStreamS.drop := by
  refine settle_settled.bind fun _ ↦ .bind .state fun st ↦ ?_
  split
  · exact .pure _
  · exact .bind (.call rfl) fun _ ↦ .pure _

theorem booked_apart {σ τ α : Type} {W : σ → Multiset Res} {R : Standing σ} {x : τ} {m : Hrx τ α}
    {g : τ → SemaphorePtr × DevicePtr} (hm : Confined g (fun c ↦ idle c = true) m) :
    Triple p (Booked W a b h R) (focus x (fun _ s ↦ s) m) (fun _ ↦ Booked W a b h R) :=
  booked_confined fun o n _ ↦ ⟨rfl, (hm o n x).2⟩

theorem hrxStreamRelease_accounted (s : ℕ) :
    Triple p (Accounted a b h (e + {.stream s}) F v) (hrxStreamRelease s)
      (fun _ ↦ Accounted a b h e F v) := by
  refine (Owner.streams.handleRelease_accounted (fun _ _ ↦ rfl) s
    ⟨0, none, false, 0, .null, ⟨0, 0, 0, 0⟩⟩).bind
    fun r ↦ ?_
  cases r with
  | none => exact .pure fun _ _ hA ↦ hA
  | some st =>
    have hparts : Owner.streams.parts st + h = h := zero_add h
    have hpre :
        ∀ t mem, Accounted a b (Owner.streams.parts st + h) (e + Owner.streams.refs st) F v t mem →
        Accounted a b h
          (e + {.device st.device} + if st.semaphore.addr = 0 then 0 else {.semaphore st.semaphore})
          F v t mem := by
      intro t mem hA
      rw [hparts] at hA
      rw [add_assoc]
      exact hA
    refine Triple.mono (P := _) ?_ hpre fun _ _ _ hA ↦ hA
    refine (booked_apart drop_settled).bind fun _ ↦ ?_
    refine .bind (Q := fun _ ↦ Accounted a b h (e + {.device st.device}) F v) ?_ fun _ ↦
      hrxDeviceRelease_accounted st.device
    by_cases hs : st.semaphore.addr = 0
    · rw [if_pos hs, add_zero, hs]
      exact hrxSemaphoreRelease_null
    · rw [if_neg hs]
      exact hrxSemaphoreRelease_accounted st.semaphore

end Streams

section Buffers

theorem dropMap_accounted (map : Option MappedRange) :
    Triple p (Accounted a b h e F v) (HrxBufferS.dropMap map) (fun _ ↦ Accounted a b h e F v) := by
  cases map with
  | none => exact .pure fun _ _ hA ↦ hA
  | some m => exact (booked_idle rfl).bind fun _ ↦ .pure fun _ _ hA ↦ hA

theorem poolDestroy_booked {σ : Type} {W : σ → Multiset Res} {R : Standing σ} (pool : PoolPtr) :
    Triple p (Booked W a b (pool.parts + h) R) (poolDestroy pool) (fun _ ↦ Booked W a b h R) := by
  have hparts : pool.parts + h = {.notification pool.notification} + ({.allocator pool.allocator} +
      ({.block pool.addr} + h)) := by
    simp only [PoolPtr.parts, Multiset.insert_eq_cons, ← Multiset.singleton_add, add_assoc]
  rw [hparts]
  refine .bind (booked_give fun e he ↦ by simp only [released, he]) fun _ ↦ ?_
  refine .bind (booked_give fun e he ↦ by simp only [released, he]) fun _ ↦ ?_
  exact .bind (booked_give fun e he ↦ by simp only [released, he]) fun _ ↦ .pure fun _ _ hA ↦ hA

theorem halPoolRelease_booked {σ : Type} {W : σ → Multiset Res} {R : Standing σ}
    (pool : Option PoolPtr) :
    Triple p (Booked W a b (pool.elim 0 PoolPtr.parts + h) R) (halPoolRelease pool)
      (fun _ ↦ Booked W a b h R) := by
  refine (booked_idle rfl).bind fun _ ↦ ?_
  cases pool with
  | none => exact .pure fun _ _ hA ↦ by simpa only [Option.elim_none, zero_add] using hA
  | some pool => exact poolDestroy_booked pool

theorem dropPool_accounted (pool : Option PoolPtr) :
    Triple p (Accounted a b (pool.elim 0 PoolPtr.parts + h) e F v) (HrxBufferS.dropPool pool)
      (fun _ ↦ Accounted a b h e F v) := by
  cases pool with
  | none => exact .pure fun _ _ hA ↦ by simpa only [Option.elim_none, zero_add] using hA
  | some pool => exact halPoolRelease_booked (some pool)

theorem HrxBufferS.drop_accounted (obj : HrxBufferS) :
    Triple p (Accounted a b (obj.parts + h) (e + obj.refs) F v) obj.drop
      (fun _ ↦ Accounted a b h e F v) := by
  have hparts : obj.parts + h = {.buffer obj.halBuffer} + (obj.halPool.elim 0 PoolPtr.parts + h) :=
    add_assoc _ _ _
  rw [hparts]
  refine (dropMap_accounted obj.map).bind fun _ ↦ ?_
  refine .bind (accounted_release fun e he ↦ by simp only [released, he]) fun _ ↦ ?_
  exact (dropPool_accounted obj.halPool).bind fun _ ↦ hrxDeviceRelease_accounted obj.device

theorem hrxBufferRelease_accounted (x : BufferPtr) :
    Triple p (Accounted a b h (e + {.buffer x}) F v) (hrxBufferRelease x.addr)
      (fun _ ↦ Accounted a b h e F v) := by
  refine (Owner.buffers.handleRelease_accounted (fun _ _ ↦ rfl) x.addr
    ⟨none, x.hal, none, ⟨0, 0, 0, 0⟩, 0, 0⟩).bind fun r ↦ ?_
  cases r with
  | none => exact .pure fun _ _ hA ↦ hA
  | some obj => exact obj.drop_accounted

theorem releaseVirtual_accounted (allocator : DevicePtr) (obj : HrxBufferS) :
    Triple p (Accounted a b (obj.parts + h) (e + obj.refs) F v) (releaseVirtual allocator obj)
      (fun _ ↦ Accounted a b h e F v) := by
  have hparts :
      obj.parts + h = obj.halPool.elim 0 PoolPtr.parts + ({.buffer obj.halBuffer} + h) := by
    rw [HrxBufferS.parts]
    abel
  rw [hparts]
  refine (dropMap_accounted obj.map).bind fun _ ↦ (dropPool_accounted obj.halPool).bind fun _ ↦ ?_
  refine .bind
    (accounted_release (r := .buffer obj.halBuffer) fun e he ↦ by simp only [released, he])
    fun _ ↦ ?_
  exact (hrxDeviceRelease_accounted obj.device).bind fun _ ↦ (booked_status _).bind fun _ ↦
    .pure fun _ _ hA ↦ hA

theorem virtualMemoryRelease_accounted (allocator : DevicePtr) (x : BufferPtr) :
    Triple p (Accounted a b h (e + {.buffer x}) F v)
      (hrxAllocatorVirtualMemoryRelease (some allocator) (some x))
      (fun _ ↦ Accounted a b h e F v) := by
  refine (Owner.buffers.handleRelease_accounted (fun _ _ ↦ rfl) x.addr
    ⟨none, x.hal, none, ⟨0, 0, 0, 0⟩, 0, 0⟩).bind fun r ↦ ?_
  cases r with
  | none => exact .pure fun _ _ hA ↦ hA
  | some obj => exact releaseVirtual_accounted allocator obj

end Buffers

theorem hrxExecutableRelease_accounted (x : ExecutablePtr) :
    Triple p (Accounted a b h (e + {.executable x}) F v) (hrxExecutableRelease x.addr)
      (fun _ ↦ Accounted a b h e F v) := by
  refine (Owner.executables.handleRelease_accounted (fun _ _ ↦ rfl) x.addr
    ⟨x.hal, 0, ⟨0, 0, 0, 0⟩⟩).bind fun r ↦ ?_
  cases r with
  | none => exact .pure fun _ _ hA ↦ hA
  | some obj =>
    have hparts : Owner.executables.parts obj + h = {.executable obj.halExecutable} +
        ({.executableCache obj.halExecutableCache} + h) := by
      change obj.parts + h = _
      simp only [HrxExecutableS.parts, Multiset.insert_eq_cons, ← Multiset.singleton_add, add_assoc]
    rw [Owner.handed, hparts]
    refine .bind (accounted_release fun e he ↦ by simp only [released, he]) fun _ ↦ ?_
    exact .bind (accounted_release fun e he ↦ by simp only [released, he]) fun _ ↦
      hrxDeviceRelease_accounted obj.device

theorem hrxModuleRelease_accounted (m : ModulePtr) :
    Triple p (Accounted a b h (e + {.module_ m}) F v) (hrxModuleRelease m.addr)
      (fun _ ↦ Accounted a b h e F v) := by
  refine (Owner.modules.handleRelease_accounted (fun _ _ ↦ rfl) m.addr
    ⟨m.context, 0, 0, ⟨0, 0, 0, 0⟩⟩).bind fun r ↦ ?_
  cases r with
  | none => exact .pure fun _ _ hA ↦ hA
  | some obj =>
    have hparts :
        Owner.modules.parts obj + h = {.context obj.context} + ({.vmModule obj.halModule} +
        ({.vmModule obj.bytecodeModule} + h)) := by
      change obj.parts + h = _
      simp only [HrxModuleS.parts, Multiset.insert_eq_cons, ← Multiset.singleton_add, add_assoc]
    rw [Owner.handed, hparts]
    refine .bind (accounted_release fun e he ↦ by simp only [released, he]) fun _ ↦ ?_
    refine .bind (accounted_release fun e he ↦ by simp only [released, he]) fun _ ↦ ?_
    exact .bind (accounted_release fun e he ↦ by simp only [released, he]) fun _ ↦
      hrxDeviceRelease_accounted obj.device

theorem hrxFunctionRelease_accounted (f : ℕ) :
    Triple p (Accounted a b h (e + {.function f}) F v) (hrxFunctionRelease f)
      (fun _ ↦ Accounted a b h e F v) := by
  refine (Owner.functions.handleRelease_accounted (fun _ _ ↦ rfl) f ⟨⟨0, 0⟩, 0⟩).bind fun r ↦ ?_
  cases r with
  | none => exact .pure fun _ _ hA ↦ hA
  | some obj =>
    have hparts : Owner.functions.parts obj + h = h := zero_add h
    rw [Owner.handed, hparts]
    exact hrxModuleRelease_accounted obj.module_

/-- The caller of `hrx_allocator_release` gives back both references that `hrx_allocator_retain`
took. -/
theorem hrxAllocatorRelease_accounted (d : DevicePtr) :
    Triple p (Accounted a b ({.allocator d.halAllocator} + h) (e + {.device d}) F v)
      (hrxAllocatorRelease d)
      (fun _ ↦ Accounted a b h e F v) :=
  .bind (accounted_release fun e he ↦ by simp only [released, he]) fun _ ↦
    hrxDeviceRelease_accounted d

end HrxSystem.Libhrx
