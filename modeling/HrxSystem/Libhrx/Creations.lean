import HrxSystem.Libhrx.Uses

namespace HrxSystem.Libhrx

open External Program Counting

def Written.refs : Written → Multiset Ref
  | .semaphore s => {.semaphore s}
  | .stream a => {.stream a}
  | .buffer b => {.buffer b}
  | .executable x => {.executable x}
  | .module_ m => {.module_ m}
  | .function a => {.function a}
  | _ => 0

variable {a b h : Multiset Res} {e : Multiset Ref} {F : Globals → Prop} {v : Watch}
  {p : Outside → Prop}

def created (a b h : Multiset Res) (e : Multiset Ref) (F : Globals → Prop) (v : Watch)
    (r : Returned) :
    Trace → Memory → Prop := Accounted a b h (e + r.written.refs) F v

theorem created_nothing {t : Trace} {mem : Memory} {s : HrxStatus}
    (hA : Accounted a b h e F v t mem) :
    created a b h e F v ⟨s, .nothing⟩ t mem := by
  have hzero : e + (Returned.mk s .nothing).written.refs = e := add_zero e
  rw [created, hzero]
  exact hA

section Rules

variable {α : Type} {r : Ref} {R : Standing Memory} {m : Hrx Memory α}
  {Q : α → Trace → Memory → Prop}

theorem booked_forget (hm : Triple p (Booked estate a b h R) m Q) :
    Triple p (Booked estate a b h (alive r R)) m Q :=
  booked_mono hm rfl fun _ _ hA ↦ hA.2

theorem created_status (s : IreeStatus) :
    Triple p (Accounted a b h e F v) (do return ⟨← hrxStatusFromIree s, .nothing⟩)
      (created a b h e F v) := by
  refine (booked_status s).bind fun _ ↦ .pure fun _ _ hA ↦ created_nothing hA

theorem created_error (code : HrxStatusCode) (message : String) :
    Triple p (Accounted a b h e F v) (do return ⟨← hrxError code message, .nothing⟩)
      (created a b h e F v) := by
  refine (booked_confined (hrxError_calls (fun _ ↦ rfl) code message)).bind fun _ ↦
    .pure fun _ _ hA ↦ created_nothing hA

theorem hrxDeviceRetain_accounted (d : DevicePtr) :
    Triple p (Booked estate a b h (alive (.device d) (owning e F v))) (hrxDeviceRetain d.addr)
      (fun _ ↦ Accounted a b h (e + {.device d}) F v) :=
  Owner.devices.handleRetain_accounted d.addr
    ⟨0, 0, d.halAllocator, d.halDeviceGroup, d.halDevice, [], []⟩

theorem hrxAllocatorRetain_accounted (d : DevicePtr) :
    Triple p (Booked estate a b h (alive (.device d) (owning e F v))) (hrxAllocatorRetain d)
      (fun _ ↦ Accounted a b ({.allocator d.halAllocator} + h) (e + {.device d}) F v) :=
  .bind (booked_take (r := fun _ ↦ {Res.allocator d.halAllocator})
    (fun e he ↦ by simp only [acquired, he])
    fun e he ↦ by simp only [released, he]) fun _ ↦ hrxDeviceRetain_accounted d

end Rules

/-- The semaphore is NULL where the call reports an error. -/
theorem hrxSemaphoreCreate_accounted (d : DevicePtr) (initialValue : ℕ) :
    Triple p (Booked estate a b h (alive (.device d) (owning e F v)))
      (hrxSemaphoreCreate (some d) initialValue true)
      (fun r t mem ↦ (r.1.isSome → r.2 = none) ∧ (∀ s, r.2 = some s → 0 < s.addr) ∧
        Accounted a b h (e + r.2.elim 0 fun s ↦ {.semaphore s}) F v t mem) := by
  refine booked_try (r := fun e ↦ {Res.semaphore e.pos}) (fun e he ↦ by simp only [acquired, he])
    (fun e he ↦ by simp only [released, he]) (fun s _ ↦ ?_) fun s _ ↦ ?_
  · refine (booked_forget (booked_status _)).bind fun _ ↦ .pure fun _ _ hA ↦
      ⟨fun _ ↦ rfl, (fun _ h ↦ by cases h), ?_⟩
    rw [Option.elim_none, add_zero]
    exact hA
  · refine (hrxDeviceRetain_accounted d).bind fun _ ↦ ?_
    refine (Owner.semaphores.intoHandle_accounted ⟨s.pos, d⟩ fun _ hx ↦ hx).bind fun x ↦
      .pure fun _ _ hA ↦ ?_
    refine ⟨(fun h ↦ by cases h), ?_, hA.2.2⟩
    intro s' hs'
    obtain rfl := Option.some.inj hs'
    exact hA.2.1

theorem hrxStreamCreate_accounted (d : DevicePtr) (flags : ℕ) :
    Triple p (Booked estate a b h (alive (.device d) (owning e F v)))
      (hrxStreamCreate (some d) flags true)
      (created a b h e F v) := by
  refine (hrxDeviceRetain_accounted d).bind fun _ ↦ ?_
  have hout : Ref.device d ∈ e + {.device d} :=
    Multiset.mem_add.mpr (.inr (Multiset.mem_singleton_self _))
  refine .bind (alive_of_out hout (fun _ _ hO ↦ hO.balanced) (hrxSemaphoreCreate_accounted d 0))
    fun r ↦ ?_
  refine .assume fun herror ↦ .assume fun hpos ↦ .ite (fun hs ↦ ?_) fun hs ↦ ?_
  · have hnone : r.2 = none := herror (by simpa [hrxStatusIsOk] using hs)
    rw [hnone, Option.elim_none, add_zero]
    refine (hrxDeviceRelease_accounted d).bind fun _ ↦ .pure fun _ _ hA ↦ created_nothing hA
  · have hrefs : e + {.device d} + r.2.elim 0 (fun s ↦ {Ref.semaphore s}) =
        e + Owner.streams.refs ⟨0, none, false, flags, r.2.getD .null, d⟩ := by
      change _ = e + HrxStreamS.refs _
      rw [HrxStreamS.refs, add_assoc]
      cases hr : r.2 with
      | none => rfl
      | some s =>
        have hne : ¬ s.addr = 0 := (hpos s hr).ne'
        simp only [Option.elim_some, Option.getD_some, hne, if_false]
    have hparts : h = Owner.streams.parts ⟨0, none, false, flags, r.2.getD .null, d⟩ + h :=
      (zero_add h).symm
    rw [hrefs]
    exact .bind
      (booked_mono (Owner.streams.intoHandle_accounted _ fun _ _ ↦ trivial) hparts fun _ _ hO ↦ hO)
      fun x ↦
      .pure fun _ _ hA ↦ hA.2.2

section Buffers

theorem wrapBuffer_accounted (d : DevicePtr) (s : Happened) (memType size : ℕ) :
    Triple p
      (Booked estate a b ((if ok s then {.buffer s.pos} else 0) + h)
        (alive (.device d) (owning e F v)))
      (wrapBuffer d s memType size) (created a b h e F v) := by
  cases hs : ok s with
  | false =>
    simp only [wrapBuffer, hs, Bool.not_false, Bool.false_eq_true, if_true, if_false, zero_add]
    exact booked_forget (created_status _)
  | true =>
    simp only [wrapBuffer, hs, Bool.not_true, Bool.false_eq_true, if_true, if_false]
    refine (hrxDeviceRetain_accounted d).bind fun _ ↦ ?_
    refine .bind
      (booked_mono
        (Owner.buffers.intoHandle_accounted ⟨none, s.pos, none, d, memType, size⟩ fun _ _ ↦ trivial)
        ?_
      fun _ _ hO ↦ hO) fun x ↦ .pure fun _ _ hA ↦ hA.2.2
    change _ = HrxBufferS.parts _ + h
    rw [HrxBufferS.parts, Option.elim_none, add_zero]

theorem allocateBuffer_accounted (d : DevicePtr) (params : HrxBufferParams) (size : ℕ) :
    Triple p (Booked estate a b h (alive (.device d) (owning e F v)))
      (hrxAllocatorAllocateBuffer (some d) params size true) (created a b h e F v) :=
  .bind (booked_take (r := fun s ↦ if ok s then {Res.buffer s.pos} else 0)
    (fun s hs ↦ by simp only [acquired, hs])
    fun s hs ↦ by simp only [released, hs]) fun s ↦ wrapBuffer_accounted d s params.type size

theorem importBuffer_accounted (d : DevicePtr) (params : HrxBufferParams) (hostPtr size : ℕ) :
    Triple p (Booked estate a b h (alive (.device d) (owning e F v)))
      (hrxAllocatorImportBuffer (some d) params (some hostPtr) size true) (created a b h e F v) :=
  .bind (booked_take (r := fun s ↦ if ok s then {Res.buffer s.pos} else 0)
    (fun s hs ↦ by simp only [acquired, hs])
    fun s hs ↦ by simp only [released, hs]) fun s ↦ wrapBuffer_accounted d s params.type size

theorem virtualMemoryReserve_accounted (d : DevicePtr) (affinity size : ℕ) :
    Triple p (Booked estate a b h (alive (.device d) (owning e F v)))
      (hrxAllocatorVirtualMemoryReserve (some d) affinity size true) (created a b h e F v) :=
  .bind (booked_take (r := fun s ↦ if ok s then {Res.buffer s.pos} else 0)
    (fun s hs ↦ by simp only [acquired, hs])
    fun s hs ↦ by simp only [released, hs]) fun s ↦ wrapBuffer_accounted d s 0x30 size

variable {σ : Type} {W : σ → Multiset Res} {R : Standing σ}

/-- The failure exit of `hrx_iree_exact_pool_create` gives back what it took. -/
theorem hrxIreeExactPoolCreate_booked (shared : SharedState) (allocator : Obj)
    (params : BufferParams) :
    Triple p (Booked W a b h R) (hrxIreeExactPoolCreate shared allocator params)
      (fun r ↦ Booked W a b (r.2.elim 0 PoolPtr.parts + h) R) := by
  have hnone : ∀ {t x}, Booked W a b h R t x →
      Booked W a b ((none : Option PoolPtr).elim 0 PoolPtr.parts + h) R t x := by
    intro t x hA
    rw [Option.elim_none, zero_add]
    exact hA
  unfold hrxIreeExactPoolCreate
  split
  · exact .pure fun _ _ hA ↦ hnone hA
  refine (booked_idle rfl).bind fun g ↦ .ite (fun _ ↦ .pure fun _ _ hA ↦ hnone hA) fun _ ↦ ?_
  refine booked_try (r := fun m ↦ {Res.block m.pos}) (fun m hm ↦ by simp only [acquired, hm])
    (fun m hm ↦ by simp only [released, hm]) (fun _ _ ↦ .pure fun _ _ hA ↦ hnone hA) fun m _ ↦ ?_
  refine .bind
    (booked_take (r := fun _ ↦ {Res.allocator allocator}) (fun e he ↦ by simp only [acquired, he])
    fun e he ↦ by simp only [released, he]) fun _ ↦ ?_
  refine booked_try (r := fun c ↦ {Res.notification c.pos}) (fun c hc ↦ by simp only [acquired, hc])
    (fun c hc ↦ by simp only [released, hc]) (fun c _ ↦ ?_) fun c _ ↦ .pure fun _ _ hA ↦ ?_
  · refine .bind (booked_give fun e he ↦ by simp only [released, he]) fun _ ↦ ?_
    exact .bind (booked_give fun e he ↦ by simp only [released, he]) fun _ ↦
      .pure fun _ _ hA ↦ hnone hA
  · have hparts : Option.elim (some (PoolPtr.mk m.pos allocator params c.pos)) 0 PoolPtr.parts + h =
        {.notification c.pos} + ({.allocator allocator} + ({.block m.pos} + h)) := by
      simp only [Option.elim_some, PoolPtr.parts, Multiset.insert_eq_cons,
        ← Multiset.singleton_add, add_assoc]
    rw [hparts]
    exact hA

def allocated (r : Option (Obj × PoolPtr)) : Multiset Res :=
  r.elim 0 fun q ↦ {.buffer q.1} + q.2.parts

theorem abandonAlloca_booked {W : HrxStreamS → Multiset Res} {R : Standing HrxStreamS}
    (rawBuffer : Option Obj) (rawPool : Option PoolPtr) (status : IreeStatus) :
    Triple p
      (Booked W a b (rawBuffer.elim 0 (fun q ↦ {.buffer q}) + (rawPool.elim 0 PoolPtr.parts + h)) R)
      (HrxStreamS.abandonAlloca rawBuffer rawPool status)
      (fun r ↦ Booked W a b (allocated r.2 + h) R) := by
  refine .bind (Q := fun _ ↦ Booked W a b (rawPool.elim 0 PoolPtr.parts + h) R) ?_ fun _ ↦
    (halPoolRelease_booked rawPool).bind fun _ ↦ (booked_status status).bind fun _ ↦
    .pure fun _ _ hA ↦ ?_
  · refine booked_release (fun e he ↦ ?_) fun e he ↦ by simp only [acquired, he]
    cases rawBuffer <;> simp only [released, he, Option.elim_none, Option.elim_some]
  · rw [allocated, Option.elim_none, zero_add]
    exact hA

variable {mem : Memory} {x : ℕ} {st : HrxStreamS} {w : Multiset Res} {R : Standing Memory}

theorem queueAlloca_booked (shared : SharedState) (params : BufferParams) (size : ℕ) :
    Triple p (Booked (fun _ ↦ w) a b h (beside .streams mem x st R))
      (HrxStreamS.queueAlloca shared params size)
      (fun r ↦ Booked (fun _ ↦ w) a b (allocated r.2 + h) (beside .streams mem x st R)) := by
  refine booked_state.bind fun self ↦ booked_known fun _ ↦ ?_
  refine (hrxIreeExactPoolCreate_booked shared self.device.halAllocator params).bind fun q ↦ ?_
  cases q.2 with
  | none => exact booked_mono (abandonAlloca_booked none none q.1) (zero_add _).symm fun _ _ hA ↦ hA
  | some pool =>
    refine booked_try (r := fun s ↦ {Res.buffer s.pos}) (fun s hs ↦ by simp only [acquired, hs])
      (fun s hs ↦ by simp only [released, hs]) (fun s _ ↦ ?_) fun s _ ↦ ?_
    · exact booked_mono (abandonAlloca_booked none (some pool) s.answer.status) (zero_add _).symm
        fun _ _ hA ↦ hA
    · refine (booked_idle rfl).bind fun wait ↦ .ite (fun _ ↦ ?_) fun _ ↦ ?_
      · exact abandonAlloca_booked (some s.pos) (some pool) wait.answer.status
      · refine .bind (booked_update (S := beside .streams mem x st R) fun t y hy ↦ ⟨hy, rfl⟩)
          fun _ ↦ .pure fun _ _ hA ↦ ?_
        have hparts : allocated (some (s.pos, pool)) + h = {.buffer s.pos} + (pool.parts + h) :=
          add_assoc _ _ _
        rw [hparts]
        exact hA

theorem bufferAllocate_booked (shared : SharedState) (size memType usage : ℕ) :
    Triple p (Booked (fun _ ↦ w) a b h (beside .streams mem x st R))
      (HrxStreamS.bufferAllocate shared size memType usage)
      (fun r ↦ Booked (fun _ ↦ w) a b (allocated r.2 + h) (beside .streams mem x st R)) := by
  have hnone : allocated none + h = h := zero_add h
  refine booked_state.bind fun self ↦ booked_known fun _ ↦ (booked_idle rfl).bind fun q ↦
    .ite (fun _ ↦ ?_) fun _ ↦ ?_
  · refine (booked_confined (hrxError_calls (fun _ ↦ rfl) _ _)).bind fun _ ↦ .pure fun _ _ hA ↦ ?_
    rw [hnone]
    exact hA
  · refine (beside_confined .streams streams_keep flushInner_settled).bind fun s ↦
      .ite (fun _ ↦ ?_) fun _ ↦ ?_
    · refine .pure fun _ _ hA ↦ ?_
      rw [hnone]
      exact hA
    · exact queueAlloca_booked shared _ size

theorem device_of_stream {t : Trace} {arc : Arc HrxStreamS} (hO : Owning e F v t mem)
    (hcell : mem.streams.cell x = some arc) : (cellOf mem (.device arc.data.device)).isSome := by
  have hmem : Ref.device arc.data.device ∈ refsIn mem :=
    Multiset.mem_of_le (Owner.streams.refs_le hcell)
      (Multiset.mem_add.mpr (.inl (Multiset.mem_singleton_self _)))
  obtain ⟨n, hn⟩ :=
    hO.balanced.live (r := .device arc.data.device) (Multiset.mem_add.mpr (.inl hmem))
  rw [hn]
  rfl

theorem hrxBufferAllocate_accounted (s size memType usage : ℕ) :
    Triple p (Accounted a b h e F v) (hrxBufferAllocate (some s) size memType usage true)
      (created a b h e F v) := by
  refine .ite (fun _ ↦ created_error _ _) fun _ ↦ booked_state.bind fun mem ↦
    booked_read fun ⟨t, hO⟩ ↦ ?_
  cases hcell : mem.streams.cell s with
  | none =>
    refine (onStream_dead hcell (none, none)).bind fun r ↦ .assume fun hr ↦ ?_
    rw [hr]
    exact .pure fun _ _ hA ↦ created_nothing hA
  | some arc =>
    have hlive : ∀ t x, ((owning e F v).at_ mem).holds t x →
        (alive (.device arc.data.device) (owning e F v)).holds t x := by
      rintro t x ⟨rfl, hx⟩
      exact ⟨device_of_stream hx hcell, hx⟩
    refine .bind
      (booked_mono
        (onStream_booked (q := fun r : HrxStatus × Option (Obj × PoolPtr) ↦ allocated r.2) s
          (none, none) (alive_lasting _ streams_lasting) rfl
          fun mem' st ↦ bufferAllocate_booked _ _ _ _)
        rfl hlive) fun r ↦ ?_
    cases r.2 with
    | none =>
      refine booked_forget (.pure fun t x hA ↦ created_nothing ?_)
      have hnone : allocated none + h = h := zero_add h
      rw [hnone] at hA
      exact hA
    | some made =>
      refine (hrxDeviceRetain_accounted arc.data.device).bind fun _ ↦ ?_
      exact (Owner.buffers.intoHandle_accounted
        ⟨none, made.1, some made.2, arc.data.device, memType, size⟩
        fun _ _ ↦ trivial).bind fun y ↦ .pure fun _ _ hA ↦ hA.2.2

end Buffers

section Executables

variable {d : DevicePtr}

theorem wrapExecutable_accounted (d : DevicePtr) (cache exe : Obj) :
    Triple p (Booked estate a b ({.executable exe} + ({.executableCache cache} + h))
      (alive (.device d) (owning e F v)))
      (wrapExecutable d cache exe) (created a b h e F v) := by
  refine (hrxDeviceRetain_accounted d).bind fun _ ↦ ?_
  refine .bind
    (booked_mono (Owner.executables.intoHandle_accounted ⟨exe, cache, d⟩ fun _ _ ↦ trivial) ?_
    fun _ _ hO ↦ hO) fun x ↦ .pure fun _ _ hA ↦ hA.2.2
  change _ = HrxExecutableS.parts _ + h
  simp only [HrxExecutableS.parts, Multiset.insert_eq_cons, ← Multiset.singleton_add, add_assoc]

theorem executableCacheRelease_booked {σ : Type} {W : σ → Multiset Res} {R : Standing σ}
    (cache : Obj) :
    Triple p (Booked W a b ({.executableCache cache} + h) R) (call (.executableCacheRelease cache))
      (fun _ ↦ Booked W a b h R) :=
  booked_give fun e he ↦ by simp only [released, he]

theorem prepareExecutable_accounted (cache : Obj) (data size : ℕ) (format : FormatText) :
    Triple p (Booked estate a b ({.executableCache cache} + h) (alive (.device d) (owning e F v)))
      (prepareExecutable d cache data size format) (created a b h e F v) := by
  refine booked_try (r := fun s ↦ {Res.executable s.pos}) (fun s hs ↦ by simp only [acquired, hs])
    (fun s hs ↦ by simp only [released, hs]) (fun s _ ↦ ?_) fun s _ ↦
    wrapExecutable_accounted d cache s.pos
  exact (executableCacheRelease_booked cache).bind fun _ ↦ booked_forget (created_status _)

theorem executableLoadData_accounted (data size : ℕ) (format : Option FormatText) :
    Triple p (Booked estate a b h (alive (.device d) (owning e F v)))
      (hrxExecutableLoadData (some d) (some data) size format true) (created a b h e F v) := by
  refine .ite (fun _ ↦ booked_forget (created_error _ _)) fun _ ↦ ?_
  refine booked_try (r := fun s ↦ {Res.executableCache s.pos})
    (fun s hs ↦ by simp only [acquired, hs])
    (fun s hs ↦ by simp only [released, hs]) (fun s _ ↦ booked_forget (created_status _))
    fun cache _ ↦ ?_
  cases format.filter fun format ↦ !format.empty with
  | none =>
    exact (executableCacheRelease_booked cache.pos).bind fun _ ↦ booked_forget (created_error _ _)
  | some format => exact prepareExecutable_accounted cache.pos data size format

variable {R : Standing Memory}

theorem fclose_booked (file : Obj) :
    Triple p (Booked estate a b ({.file file} + h) R) (call (.fclose file))
      (fun _ ↦ Booked estate a b h R) :=
  booked_give fun e he ↦ by simp only [released, he]

theorem fileDataFree_booked (fileData : Obj) :
    Triple p (Booked estate a b ({.block fileData} + h) R) (call (.allocatorFree (some fileData)))
      (fun _ ↦ Booked estate a b h R) :=
  booked_give fun e he ↦ by simp only [released, he]

theorem closeAndFail_accounted (file : Obj) (code : HrxStatusCode) (message : String) :
    Triple p (Accounted a b ({.file file} + h) e F v) (closeAndFail file code message)
      (created a b h e F v) :=
  (fclose_booked file).bind fun _ ↦ created_error code message

theorem loadFileData_accounted (file fileData : Obj) (fileSize : ℕ) (format : Option FormatText) :
    Triple p
      (Booked estate a b ({.block fileData} + ({.file file} + h))
        (alive (.device d) (owning e F v)))
      (loadFileData (some d) file fileData fileSize format) (created a b h e F v) := by
  refine (booked_idle rfl).bind fun r ↦ ?_
  refine .bind (booked_mono (fclose_booked file) (add_left_comm _ _ _) fun _ _ hA ↦ hA) fun _ ↦
    .ite (fun _ ↦ ?_) fun _ ↦ ?_
  · exact (fileDataFree_booked fileData).bind fun _ ↦ booked_forget (created_error _ _)
  · refine (executableLoadData_accounted fileData fileSize format).bind fun status ↦ ?_
    exact (fileDataFree_booked fileData).bind fun _ ↦ .pure fun _ _ hA ↦ hA

def createdUnless (a b h : Multiset Res) (e : Multiset Ref) (F : Globals → Prop) (v : Watch)
    (r : Returned) (t : Trace) (mem : Memory) :
    Prop := r.written ≠ .panicked → created a b h e F v r t mem

theorem loadOpenFile_accounted (file : Obj) (fileSize : ℕ) (format : Option FormatText) :
    Triple p (Booked estate a b ({.file file} + h) (alive (.device d) (owning e F v)))
      (loadOpenFile (some d) file fileSize format) (createdUnless a b h e F v) := by
  refine booked_try (r := fun s ↦ {Res.block s.pos}) (fun s hs ↦ by simp only [acquired, hs])
    (fun s hs ↦ by simp only [released, hs]) (fun s _ ↦ ?_) fun s _ ↦ ?_
  · refine (booked_forget (booked_status _)).bind fun status ↦
      .ite (fun _ ↦ .pure fun _ _ _ hne ↦ absurd rfl hne) fun _ ↦ ?_
    exact (fclose_booked file).bind fun _ ↦ .pure fun _ _ hA _ ↦ created_nothing hA
  · exact (loadFileData_accounted file s.pos fileSize format).mono (fun _ _ hA ↦ hA)
      fun _ _ _ hA _ ↦ hA

theorem executableLoadFile_accounted (path : ℕ) (format : Option FormatText) :
    Triple p (Booked estate a b h (alive (.device d) (owning e F v)))
      (hrxExecutableLoadFile (some d) (some path) format true) (createdUnless a b h e F v) := by
  have hunless : ∀ {h : Multiset Res} {m : Hrx Memory Returned} {P : Trace → Memory → Prop},
      Triple p P m (created a b h e F v) → Triple p P m (createdUnless a b h e F v) :=
    fun hm ↦ hm.mono (fun _ _ hA ↦ hA) fun _ _ _ hA _ ↦ hA
  refine booked_try (r := fun s ↦ {Res.file s.pos}) (fun s hs ↦ by simp only [acquired, hs])
    (fun s hs ↦ by simp only [released, hs]) (fun s _ ↦ hunless (booked_forget (created_error _ _)))
    fun file _ ↦ ?_
  refine (booked_idle rfl).bind fun _ ↦
    .ite (fun _ ↦ hunless (booked_forget (closeAndFail_accounted _ _ _))) fun _ ↦ ?_
  refine (booked_idle rfl).bind fun _ ↦
    .ite (fun _ ↦ hunless (booked_forget (closeAndFail_accounted _ _ _))) fun _ ↦ ?_
  refine (booked_idle rfl).bind fun _ ↦
    .ite (fun _ ↦ hunless (booked_forget (closeAndFail_accounted _ _ _))) fun _ ↦ ?_
  exact loadOpenFile_accounted file.pos _ format

end Executables

section Modules

variable {R : Standing Memory}

theorem vmModuleRelease_booked (module_ : Obj) :
    Triple p (Booked estate a b ({.vmModule module_} + h) R) (call (.vmModuleRelease module_))
      (fun _ ↦ Booked estate a b h R) :=
  booked_give fun e he ↦ by simp only [released, he]

theorem createContext_accounted (d : DevicePtr) (vmInstance bytecode hal : Obj) :
    Triple p
      (Booked estate a b ({.vmModule hal} + ({.vmModule bytecode} + h))
        (alive (.device d) (owning e F v)))
      (createContext d vmInstance bytecode hal) (created a b h e F v) := by
  refine booked_try (r := fun s ↦ {Res.context s.pos}) (fun s hs ↦ by simp only [acquired, hs])
    (fun s hs ↦ by simp only [released, hs]) (fun s _ ↦ ?_) fun s _ ↦ ?_
  · refine (booked_forget (booked_status _)).bind fun _ ↦ (vmModuleRelease_booked hal).bind
      fun _ ↦ ?_
    exact (vmModuleRelease_booked bytecode).bind fun _ ↦ .pure fun _ _ hA ↦ created_nothing hA
  · refine (hrxDeviceRetain_accounted d).bind fun _ ↦ ?_
    refine .bind
      (booked_mono (Owner.modules.intoHandle_accounted ⟨s.pos, hal, bytecode, d⟩ fun _ _ ↦ trivial)
        ?_
      fun _ _ hO ↦ hO) fun x ↦ .pure fun _ _ hA ↦ hA.2.2
    change _ = HrxModuleS.parts _ + h
    simp only [HrxModuleS.parts, Multiset.insert_eq_cons, ← Multiset.singleton_add, add_assoc]

theorem loadBytecode_accounted (d : DevicePtr) (vmInstance data size : ℕ) :
    Triple p (Booked estate a b h (alive (.device d) (owning e F v)))
      (loadBytecode d vmInstance data size)
      (created a b h e F v) := by
  refine booked_try (r := fun s ↦ {Res.vmModule s.pos}) (fun s hs ↦ by simp only [acquired, hs])
    (fun s hs ↦ by simp only [released, hs]) (fun s _ ↦ booked_forget (created_status _))
    fun bytecode _ ↦ ?_
  refine .bind
    (booked_take (r := fun _ ↦ {Res.group d.halDeviceGroup})
      (fun e he ↦ by simp only [acquired, he])
    fun e he ↦ by simp only [released, he]) fun _ ↦ ?_
  refine .bind (booked_take (r := fun s ↦ if ok s then {Res.vmModule s.pos} else 0)
    (fun e he ↦ by simp only [acquired, he])
    fun e he ↦ by simp only [released, he]) fun hal ↦ ?_
  refine .bind
    (booked_mono
      (booked_give (r := .group d.halDeviceGroup) fun e he ↦ by simp only [released, he])
      (add_left_comm _ _ _) fun _ _ hA ↦ hA) fun _ ↦ ?_
  cases hhal : ok hal with
  | false =>
    simp only [Bool.not_false, Bool.false_eq_true, if_true, if_false, zero_add]
    refine (booked_forget (booked_status _)).bind fun _ ↦ ?_
    exact (vmModuleRelease_booked bytecode.pos).bind fun _ ↦ .pure fun _ _ hA ↦ created_nothing hA
  | true =>
    simp only [Bool.not_true, Bool.false_eq_true, if_true, if_false]
    exact createContext_accounted d vmInstance bytecode.pos hal.pos

theorem moduleLoadVmfb_accounted (d : DevicePtr) (data size : ℕ) :
    Triple p (Booked estate a b h (alive (.device d) (owning e F v)))
      (hrxModuleLoadVmfb (some d) (some data) size true) (created a b h e F v) := by
  refine .ite (fun _ ↦ booked_forget (created_error _ _)) fun _ ↦ booked_state.bind fun mem ↦
    booked_known fun _ ↦ ?_
  cases mem.globals.shared.usableInstance with
  | none => exact booked_forget (created_error _ _)
  | some vmInstance => exact loadBytecode_accounted d vmInstance data size

theorem hrxModuleRetain_accounted (m : ModulePtr) :
    Triple p (Booked estate a b h (alive (.module_ m) (owning e F v))) (hrxModuleRetain m.addr)
      (fun _ ↦ Accounted a b h (e + {.module_ m}) F v) :=
  Owner.modules.handleRetain_accounted m.addr ⟨m.context, 0, 0, ⟨0, 0, 0, 0⟩⟩

/-- The function is one of those to know, as it was looked up in `m`. -/
theorem lookupFunction_accounted (m : ModulePtr) (name : ℕ)
    (hknown : ∀ f vmFunction, v.known f ⟨m, vmFunction⟩) :
    Triple p (Booked estate a b h (alive (.module_ m) (owning e F v)))
      (hrxModuleLookupFunction (some m) (some name) true) (created a b h e F v) := by
  refine (booked_idle rfl).bind fun f ↦ .ite (fun _ ↦ booked_forget (created_status _)) fun _ ↦ ?_
  refine (hrxModuleRetain_accounted m).bind fun _ ↦ ?_
  have hparts : h = Owner.functions.parts ⟨m, f.answer.value⟩ + h := (zero_add h).symm
  refine .bind
    (booked_mono (Owner.functions.intoHandle_accounted ⟨m, f.answer.value⟩ fun x _ ↦ hknown x _)
      hparts
    fun _ _ hO ↦ hO) fun x ↦ .pure fun _ _ hA ↦ hA.2.2

end Modules

end HrxSystem.Libhrx
