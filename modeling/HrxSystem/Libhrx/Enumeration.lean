import HrxSystem.Libhrx.Runtime

namespace HrxSystem.Libhrx

open External Program Counting

/-- A driver that reports the devices `infos`, where no call of IREE fails. -/
structure Reports (o : Outside) (infos : List DeviceInfo) : Prop where
  succeeds : ∀ n c, (∀ k, c ≠ .malloc k) → (o n c).status = none
  infos : ∀ n driver, (o n (.driverQueryAvailableDevices driver)).infos = infos

/-- The physical devices of a device-info array, each with its index, counted from `index` on. -/
def physicalFrom (l : List DeviceInfo) (index : ℕ) : List (DeviceInfo × ℕ) :=
  (l.zipIdx index).filter fun p ↦ p.1.path ≠ []

def Call.ordinal? : Call → Option ℕ
  | driverCreateDeviceByOrdinal _ index _ => some index
  | _ => none

def openedOrdinals (t : Trace) : List ℕ := t.filterMap fun e ↦ e.call.ordinal?

/-- The device that entry `p` of the array became, as number `i`. -/
def IsDevice (driver : Obj) (i : ℕ) (p : DeviceInfo × ℕ) (d : DevicePtr) (t : Trace)
    (mem : Memory) : Prop :=
  ∃ e ∈ t, ∃ pool obj, e.call = .driverCreateDeviceByOrdinal driver p.2 pool ∧ ok e = true ∧
    d.halDevice = e.pos ∧
    mem.devices.cell d.addr = some ⟨1, obj⟩ ∧ obj.halDevice = e.pos ∧ obj.type = Which.gpu.type ∧
    obj.ordinal = i ∧
    obj.name = cstrArray 128 p.1.name

structure Built (driver : Obj) (chosen : List (DeviceInfo × ℕ)) (ds : List DevicePtr) (t : Trace)
    (mem : Memory) :
    Prop where
  ordinals : openedOrdinals t = chosen.map Prod.snd
  length : ds.length = chosen.length
  devices : ∀ i d p, ds[i]? = some d → chosen[i]? = some p → IsDevice driver i p d t mem

theorem happens_answer (o : Outside) (n : ℕ) (c : Call) : (happens o n c).answer = o n c := rfl

theorem openedOrdinals_append (t u : Trace) :
    openedOrdinals (t ++ u) = openedOrdinals t ++ openedOrdinals u :=
  List.filterMap_append ..

theorem physicalFrom_cons (info : DeviceInfo) (rest : List DeviceInfo) (index : ℕ) :
    physicalFrom (info :: rest) index =
      (if info.path = [] then [] else [(info, index)]) ++ physicalFrom rest (index + 1) := by
  rw [physicalFrom, List.zipIdx_cons, List.filter_cons]
  by_cases hpath : info.path = [] <;> simp [hpath, physicalFrom]

section Built

variable {driver : Obj} {i a : ℕ} {p : DeviceInfo × ℕ} {d : DevicePtr} {t : Trace} {mem : Memory}
  {obj : HrxDeviceS}

theorem IsDevice.extend (h : IsDevice driver i p d t mem) (u : Trace) :
    IsDevice driver i p d (t ++ u)
      { mem with devices := mem.devices.put (mem.devices.fresh a) (some ⟨1, obj⟩) } := by
  obtain ⟨e, he, pool, obj', hcall, hok, hd, hcell, hobj⟩ := h
  have hne : d.addr ≠ mem.devices.fresh a := by
    intro heq
    rw [heq, Heap.fresh_cell] at hcell
    cases hcell
  refine ⟨e, List.mem_append_left u he, pool, obj', hcall, hok, hd, ?_, hobj⟩
  rw [Heap.put_cell_of_ne _ _ hne, hcell]

theorem Built.congr {chosen : List (DeviceInfo × ℕ)} {ds : List DevicePtr}
    (h : Built driver chosen ds t mem) {t' : Trace} {mem' : Memory} (ht : ∀ e ∈ t, e ∈ t')
    (hordinals : openedOrdinals t' = openedOrdinals t) (hmem : mem'.devices = mem.devices) :
    Built driver chosen ds t' mem' := by
  refine ⟨hordinals.trans h.ordinals, h.length, fun i d p hd hp ↦ ?_⟩
  obtain ⟨e, he, hdevice⟩ := h.devices i d p hd hp
  rw [← hmem] at hdevice
  exact ⟨e, ht e he, hdevice⟩

theorem built_nil : Built driver [] [] [] mem := ⟨rfl, rfl, by simp⟩

theorem Built.snoc {chosen : List (DeviceInfo × ℕ)} {ds : List DevicePtr}
    (h : Built driver chosen ds t mem) {o : Outside} {pool : Option Obj} {n : ℕ} {es : Trace}
    (hok : ok (happens o n (.driverCreateDeviceByOrdinal driver p.2 pool)) = true)
    (hdevice : obj.halDevice = n) (htype : obj.type = Which.gpu.type)
    (hordinal : obj.ordinal = ds.length) (hname : obj.name = cstrArray 128 p.1.name)
    (hes : openedOrdinals es = []) :
    Built driver (chosen ++ [p])
      (ds ++ [⟨mem.devices.fresh a, n, obj.halAllocator, obj.halDeviceGroup⟩])
      (t ++ happens o n (.driverCreateDeviceByOrdinal driver p.2 pool) :: es)
      { mem with devices := mem.devices.put (mem.devices.fresh a) (some ⟨1, obj⟩) } := by
  refine ⟨?_, by simp [h.length], ?_⟩
  · have hnew : openedOrdinals (happens o n (.driverCreateDeviceByOrdinal driver p.2 pool) :: es) =
        [p.2] := by
      rw [← hes]
      rfl
    rw [openedOrdinals_append, h.ordinals, hnew, List.map_append, List.map_singleton]
  · intro i d q hd hq
    by_cases hi : i < ds.length
    · rw [List.getElem?_append_left hi] at hd
      rw [List.getElem?_append_left (h.length ▸ hi)] at hq
      exact (h.devices i d q hd hq).extend _
    · have hlast : i = ds.length := by
        have hlt := (List.getElem?_eq_some_iff.mp hd).1
        rw [List.length_append, List.length_singleton] at hlt
        omega
      subst hlast
      rw [List.getElem?_concat_length] at hd
      rw [h.length, List.getElem?_concat_length] at hq
      obtain rfl := Option.some.inj hd
      obtain rfl := Option.some.inj hq
      exact ⟨_, List.mem_append_right t List.mem_cons_self, pool, obj, rfl, hok, rfl,
        Heap.put_cell_self .., hdevice, htype, hordinal, hname⟩

end Built

section Loop

variable {o : Outside} {infos : List DeviceInfo} (ho : Reports o infos)

include ho

theorem Reports.ok (n : ℕ) {c : Call} (hc : ∀ k, c ≠ .malloc k) : ok (happens o n c) = true := by
  simp [Libhrx.ok, happens, ho.succeeds n c hc]

theorem run_createSingleDeviceGroup (device : Obj) (n : ℕ) (mem : Memory) :
    (createSingleDeviceGroup device).run o n mem =
      ⟨(none, n + 1), mem, [happens o n .frontierTrackerCreate,
        happens o (n + 1) (.deviceGroupCreateFromDevice device n),
        happens o (n + 2) (.frontierTrackerRelease n)]⟩ := by
  have hgroup : (o (n + 1) (.deviceGroupCreateFromDevice device n)).status = none :=
    ho.succeeds _ _ nofun
  simp [createSingleDeviceGroup, ho.ok n (c := .frontierTrackerCreate) nofun,
    happens_answer, hgroup]

omit ho in
theorem run_gpuArchitecture (device : Obj) (n : ℕ) (mem : Memory) :
    ∃ arch, (gpuArchitecture device).run o n mem =
      ⟨arch, mem, [happens o n (.deviceQueryI64 device)]⟩ := by
  cases hquery : ok (happens o n (.deviceQueryI64 device)) <;> simp [gpuArchitecture, hquery]

theorem run_createGpuDevice (driver block : Obj) (pool : Option Obj) (index : ℕ) (info : DeviceInfo)
    (ds : List DevicePtr) (n : ℕ) (mem : Memory) : ∃ obj a es,
      (createGpuDevice driver block pool index info ds).run o n mem =
        ⟨.ok ⟨mem.devices.fresh a, n, obj.halAllocator, obj.halDeviceGroup⟩,
          { mem with devices := mem.devices.put (mem.devices.fresh a) (some ⟨1, obj⟩) },
          happens o n (.driverCreateDeviceByOrdinal driver index pool) :: es⟩ ∧
      obj.halDevice = n ∧ obj.type = Which.gpu.type ∧ obj.ordinal = ds.length ∧
        obj.name = cstrArray 128 info.name ∧
      openedOrdinals es = [] := by
  obtain ⟨arch, harch⟩ := @run_gpuArchitecture o n (n + 6) mem
  refine ⟨⟨Which.gpu.type, ds.length, (o (n + 4) (.halDeviceAllocator n)).value, n + 2, n,
    cstrArray 128 info.name, arch⟩,
    (o (n + 7) .arcNew).value, [happens o (n + 1) .frontierTrackerCreate,
      happens o (n + 2) (.deviceGroupCreateFromDevice n (n + 1)),
      happens o (n + 3) (.frontierTrackerRelease (n + 1)),
      happens o (n + 4) (.halDeviceAllocator n),
      happens o (n + 5) (.allocatorRetain (o (n + 4) (.halDeviceAllocator n)).value),
      happens o (n + 6) (.deviceQueryI64 n), happens o (n + 7) .arcNew], ?_, rfl, rfl,
      rfl, rfl, rfl⟩
  have hopen : ok (happens o n (.driverCreateDeviceByOrdinal driver index pool)) = true :=
    ho.ok n nofun
  simp [createGpuDevice, hopen, run_createSingleDeviceGroup ho, intoHandle, Kind.devices, harch,
    happens_answer]

theorem run_createGpuDevices (driver block : Obj) (pool : Option Obj) {count : ℕ}
    (l : List DeviceInfo) (index : ℕ) {chosen : List (DeviceInfo × ℕ)} {ds : List DevicePtr}
    {t : Trace} {mem : Memory} (h : Built driver chosen ds t mem) (hcount : ds.length ≤ count)
    (n : ℕ) : ∃ ds' mem' es,
      (createGpuDevices driver block pool count l index ds).run o n mem = ⟨.ok ds', mem', es⟩ ∧
      Built driver (chosen ++ (physicalFrom l index).take (count - ds.length)) ds'
        (t ++ es) mem' := by
  induction l generalizing index chosen ds t mem n with
  | nil => exact ⟨ds, mem, [], rfl, by simpa [physicalFrom] using h⟩
  | cons info rest ih =>
    by_cases hfull : ds.length < count
    · rw [createGpuDevices, if_pos hfull, physicalFrom_cons]
      by_cases hpath : info.path = []
      · rw [if_pos hpath, if_pos hpath, List.nil_append]
        exact ih (index + 1) h hcount n
      · rw [if_neg hpath, if_neg hpath]
        obtain ⟨obj, a, es, hrun, hdevice, htype, hordinal, hname, hes⟩ :=
          run_createGpuDevice ho driver block pool index info ds n mem
        have hopen : ok (happens o n (.driverCreateDeviceByOrdinal driver index pool)) = true :=
          ho.ok n nofun
        have hnext :=
          @Built.snoc driver a (info, index) t mem obj _ _ h o pool n es hopen hdevice htype
            hordinal hname
          hes
        obtain ⟨ds', mem', es', hrun', hbuilt⟩ :=
          ih (index + 1) hnext (by simpa using Nat.succ_le_of_lt hfull)
          (n + (happens o n (.driverCreateDeviceByOrdinal driver index pool) :: es).length)
        refine ⟨ds', mem', (happens o n (.driverCreateDeviceByOrdinal driver index pool) :: es) ++
          es', ?_, ?_⟩
        · rw [run_bind, hrun, hrun']
          rfl
        · have htake : count - ds.length = count - (ds.length + 1) + 1 := by omega
          rw [List.length_append, List.length_singleton] at hbuilt
          rw [htake, List.singleton_append, List.take_succ_cons]
          simpa using hbuilt
    · rw [createGpuDevices, if_neg hfull, Nat.sub_eq_zero_of_le (Nat.le_of_not_lt hfull),
        List.take_zero, List.append_nil]
      exact ⟨ds, mem, [], rfl, by simpa using h⟩

theorem ensureSharedState_ok (n : ℕ) (mem : Memory) :
    (ensureSharedState.run o n mem).val = hrxOkStatus := by
  have hinst : ok (happens o n .vmInstanceCreate) = true := ho.ok n nofun
  have htypes : ok (happens o (n + 1) (.halModuleRegisterAllTypes n)) = true := ho.ok _ nofun
  have hpool : ok (happens o (n + 2) .proactorPoolCreate) = true := ho.ok _ nofun
  by_cases hi : mem.globals.shared.initialized =
    true <;> simp [ensureSharedState, hi, hinst, htypes, hpool]

end Loop

section Aside

abbrev OpensNothing {α : Type} (m : Hrx Memory α) : Prop :=
  Confined Memory.devices (fun c ↦ c.ordinal? = none) m

theorem OpensNothing.ordinals {α : Type} {m : Hrx Memory α} (h : OpensNothing m) (o : Outside)
    (n : ℕ) (mem : Memory) :
    openedOrdinals (m.run o n mem).events = [] := List.filterMap_eq_nil_iff.mpr (h o n mem).2

theorem ensureSharedState_opensNothing : OpensNothing ensureSharedState := by
  have hfail : ∀ s, OpensNothing (hrxStatusFromIree s) := hrxStatusFromIree_calls fun _ ↦ rfl
  refine .bind .state fun mem ↦ .ite (.bind (.update fun _ ↦ rfl) fun _ ↦ .pure _)
    (.bind (.update fun _ ↦ rfl) fun _ ↦
    .bind (.call rfl) fun inst ↦ .ite (hfail _) (.bind (.call rfl) fun s ↦ .ite ?_ ?_))
  · exact .bind (.call rfl) fun _ ↦ hfail _
  refine .bind (.update fun _ ↦ rfl) fun _ ↦ .bind (.call rfl) fun pool ↦ .ite ?_ ?_
  · exact .bind (.call rfl) fun _ ↦ .bind (.update fun _ ↦ rfl) fun _ ↦ hfail _
  · exact .bind (.update fun _ ↦ rfl) fun _ ↦ .bind (.update fun _ ↦ rfl) fun _ ↦ .pure _

theorem releaseSharedState_opensNothing : OpensNothing releaseSharedState := by
  have hpool : ∀ pool, OpensNothing (releaseProactorPool pool) := by
    intro pool
    cases pool with
    | none => exact .pure _
    | some p => exact .bind (.call rfl) fun _ ↦ .update fun _ ↦ rfl
  have hinst : ∀ inst, OpensNothing (releaseVmInstance inst) := by
    intro inst
    cases inst with
    | none => exact .pure _
    | some i => exact .bind (.call rfl) fun _ ↦ .update fun _ ↦ rfl
  exact .bind .state fun mem ↦ .ite (.pure _) (.bind (.update fun _ ↦ rfl) fun _ ↦ .ite (.pure _)
    (.bind (hpool _) fun _ ↦ .bind (hinst _) fun _ ↦ .update fun _ ↦ rfl))

end Aside

theorem physicalFrom_fst (l : List DeviceInfo) (index : ℕ) :
    (physicalFrom l index).map Prod.fst = l.filter fun info ↦ info.path ≠ [] := by
  induction l generalizing index with
  | nil => rfl
  | cons info rest ih =>
    rw [physicalFrom_cons, List.map_append, ih, List.filter_cons]
    by_cases hpath : info.path = [] <;> simp [hpath]

theorem physicalFrom_length (l : List DeviceInfo) (index : ℕ) :
    (physicalFrom l index).length = (l.filter fun info ↦ info.path ≠ []).length := by
  rw [← physicalFrom_fst l index, List.length_map]

/-- What an initialization returns and leaves: an error and no device where no entry is physical,
and else the first devices that are. -/
structure Enumerates (o : Outside) (infos : List DeviceInfo) (mem : Memory)
    (r : Outcome Call Answer Memory HrxStatus) :
    Prop where
  unavailable : physicalFrom infos 0 = [] → (∃ m text, payload o m ∈ r.events ∧
    r.val = made o m ⟨HrxStatusCode.unavailable.toInt, some text⟩) ∧ openedOrdinals r.events = [] ∧
      r.state.devices = mem.devices
  available : physicalFrom infos 0 ≠ [] → r.val = hrxOkStatus ∧ ∃ driver ds,
    r.state.globals.gpu = ⟨ds, ds.length, true, some driver⟩ ∧
      Built driver ((physicalFrom infos 0).take maxDevices) ds r.events r.state

theorem Enumerates.after {o : Outside} {infos : List DeviceInfo} {mem mem' : Memory}
    {r : Outcome Call Answer Memory HrxStatus} (h : Enumerates o infos mem' r) {es : Trace}
    (hes : openedOrdinals es = []) (hmem : mem'.devices = mem.devices) :
    Enumerates o infos mem (r.after es) := by
  have hordinals : openedOrdinals (es ++ r.events) = openedOrdinals r.events := by
    rw [openedOrdinals_append, hes, List.nil_append]
  refine ⟨fun hnone ↦ ?_, fun hsome ↦ ?_⟩
  · obtain ⟨⟨m, text, hpayload, hval⟩, hopened, hdevices⟩ := h.unavailable hnone
    exact ⟨⟨m, text, List.mem_append_right es hpayload, hval⟩, hordinals.trans hopened,
      hdevices.trans hmem⟩
  · obtain ⟨hval, driver, ds, hgpu, hbuilt⟩ := h.available hsome
    exact ⟨hval, driver, ds, hgpu,
      hbuilt.congr (fun e he ↦ List.mem_append_right es he) hordinals rfl⟩

section Main

variable {o : Outside} {infos : List DeviceInfo} (ho : Reports o infos)

include ho

theorem run_enumerateGpus (driver : Obj) {q : Happened} (hq : q.answer.infos = infos) (n : ℕ)
    (mem : Memory) :
    Enumerates o infos mem ((enumerateGpus driver q).run o n mem) := by
  have hlen := physicalFrom_length infos 0
  refine ⟨fun hnone ↦ ?_, fun hsome ↦ ?_⟩
  · have hphys : q.answer.infos.filter (fun info ↦ info.path ≠ []) = [] := by
      rw [hnone, List.length_nil] at hlen
      rw [hq]
      exact List.length_eq_zero_iff.mp hlen.symm
    have hexit : OpensNothing (do
        let _ ← call (.allocatorFree (some q.pos))
        let _ ← call (.driverRelease driver)
        releaseSharedState
        hrxError .unavailable
          (if q.answer.infos = [] then "no GPU devices found"
            else "no physical GPU devices found")) :=
      .bind (.call rfl) fun _ ↦ .bind (.call rfl) fun _ ↦
        .bind releaseSharedState_opensNothing fun _ ↦
        hrxError_calls (fun _ ↦ rfl) _ _
    have hordinals := hexit.ordinals o n mem
    have hdevices := (hexit o n mem).1
    rw [enumerateGpus, run_bind, run_state, if_pos hphys]
    refine ⟨?_, hordinals, hdevices⟩
    simp only [run_bind, run_call,
      run_hrxError_made (show HrxStatusCode.unavailable ≠ .ok by decide),
      Outcome.after_val, Outcome.after_events]
    exact ⟨_, _, by simp, rfl⟩
  · have hphys : q.answer.infos.filter (fun info ↦ info.path ≠ []) ≠ [] := by
      intro hnil
      rw [hq] at hnil
      rw [hnil, List.length_nil] at hlen
      exact hsome (List.length_eq_zero_iff.mp hlen)
    rw [enumerateGpus, run_bind, run_state, if_neg hphys]
    obtain ⟨ds, mem', es, hrun, hbuilt⟩ :=
      run_createGpuDevices ho driver q.pos mem.globals.shared.proactorPool infos 0
      (@built_nil driver mem) (Nat.zero_le (min (physicalFrom infos 0).length maxDevices)) n
    rw [hq, ← hlen, run_bind]
    simp only [List.length_nil, Nat.add_zero, Outcome.after_nil]
    rw [hrun]
    refine ⟨rfl, driver, ds, rfl, ?_⟩
    have htake : (physicalFrom infos 0).take (min (physicalFrom infos 0).length maxDevices) =
        (physicalFrom infos 0).take maxDevices := by
      rw [← List.take_take]
      exact List.take_of_length_le (List.length_take_le' ..)
    rw [List.length_nil, Nat.sub_zero, htake, List.nil_append, List.nil_append] at hbuilt
    refine hbuilt.congr (fun e he ↦ List.mem_append_left _ he) ?_ rfl
    exact (openedOrdinals_append ..).trans (List.append_nil _)

theorem run_hrxGpuInitialize {mem : Memory} (hgpu : mem.globals.gpu.initialized = false) (n : ℕ) :
    Enumerates o infos mem (hrxGpuInitialize.run o n mem) := by
  have hok := ensureSharedState_ok ho n mem
  have hshared := ensureSharedState_opensNothing o n mem
  have hordinals := ensureSharedState_opensNothing.ordinals o n mem
  rw [hrxGpuInitialize, run_bind, run_state, if_neg (by simp [hgpu]), run_bind]
  simp only [List.length_nil, Nat.add_zero, Outcome.after_nil]
  generalize ensureSharedState.run o n mem = r at hok hshared hordinals
  obtain ⟨s, mem', es⟩ := r
  obtain rfl : s = hrxOkStatus := hok
  simp only
  generalize n + es.length = k
  have hregister : ok (happens o k .amdgpuDriverModuleRegister) = true := ho.ok _ nofun
  have hdriver : ok (happens o (k + 1) .driverRegistryTryCreate) = true := ho.ok _ nofun
  have hquery : ok (happens o (k + 2) (.driverQueryAvailableDevices (k + 1))) = true :=
    ho.ok _ nofun
  have hinfos : (happens o (k + 2) (.driverQueryAvailableDevices (k + 1))).answer.infos = infos :=
    ho.infos ..
  have hrest := run_enumerateGpus ho (k + 1) hinfos (k + 3) mem'
  have hes : openedOrdinals (es ++ [happens o k .amdgpuDriverModuleRegister,
      happens o (k + 1) .driverRegistryTryCreate,
      happens o (k + 2) (.driverQueryAvailableDevices (k + 1))]) = [] := by
    rw [openedOrdinals_append, hordinals]
    rfl
  simpa [hrxStatusIsOk, hrxOkStatus, hregister, hdriver, hquery] using hrest.after hes hshared.1

/-- The devices of the GPU accelerator are the first physical entries of the driver's array, in its
order, each opened by its index in the array. -/
theorem gpu_ordinals_map {mem : Memory} (hgpu : mem.globals.gpu.initialized = false) (n : ℕ) :
    (physicalFrom infos 0 = [] → (∃ m text, payload o m ∈ (hrxGpuInitialize.run o n mem).events ∧
        (hrxGpuInitialize.run o n mem).val = made o m
          ⟨HrxStatusCode.unavailable.toInt, some text⟩) ∧
      openedOrdinals (hrxGpuInitialize.run o n mem).events = [] ∧
      (hrxGpuInitialize.run o n mem).state.devices = mem.devices) ∧
    (physicalFrom infos 0 ≠ [] → (hrxGpuInitialize.run o n mem).val = hrxOkStatus ∧
      openedOrdinals (hrxGpuInitialize.run o n mem).events =
        ((physicalFrom infos 0).take 64).map Prod.snd ∧
      (hrxGpuInitialize.run o n mem).state.globals.gpu.deviceCount =
        (min (physicalFrom infos 0).length 64 : ℕ) ∧
      ∃ driver, ∀ (i : ℕ) p, ((physicalFrom infos 0).take 64)[i]? = some p → ∃ d,
        (∀ o' n' mem', mem'.globals.gpu = (hrxGpuInitialize.run o n mem).state.globals.gpu →
          (hrxGpuDeviceGet i true).run o' n' mem' = ⟨⟨hrxOkStatus, .device d⟩, mem', []⟩) ∧
        IsDevice driver i p d (hrxGpuInitialize.run o n mem).events
          (hrxGpuInitialize.run o n mem).state) := by
  have hrun := run_hrxGpuInitialize ho hgpu n
  refine ⟨hrun.unavailable, fun hsome ↦ ?_⟩
  obtain ⟨hval, driver, ds, hstate, hbuilt⟩ := hrun.available hsome
  have hlen : ds.length = min (physicalFrom infos 0).length 64 := by
    rw [hbuilt.length, List.length_take, min_comm, maxDevices]
  refine ⟨hval, hbuilt.ordinals, ?_, driver, fun i p hp ↦ ?_⟩
  · rw [hstate, hlen]
  · have hi : i < ds.length := by
      have hlt := (List.getElem?_eq_some_iff.mp hp).1
      rw [hbuilt.length]
      exact hlt
    refine ⟨ds[i], fun o' n' mem' hgpu' ↦ ?_, hbuilt.devices i _ p (List.getElem?_eq_getElem hi) hp⟩
    rw [hstate] at hgpu'
    have hnot : ¬ (ds.length : ℤ) ≤ i := by omega
    simp [hrxGpuDeviceGet, acceleratorDeviceGet, Which.get, hgpu', hi, hnot]

end Main

def fourEntries : List DeviceInfo := [⟨[], [76]⟩, ⟨[1], [65]⟩, ⟨[], [76]⟩, ⟨[2], [66]⟩]

theorem gpu_ordinals_map_fourEntries : ∃ driver d,
    (hrxGpuDeviceGet 1 true).run (fun _ _ ↦ { infos := fourEntries }) 0
        (hrxGpuInitialize.run (fun _ _ ↦ { infos := fourEntries }) 0 Memory.initial).state =
      ⟨⟨hrxOkStatus, .device d⟩,
        (hrxGpuInitialize.run (fun _ _ ↦ { infos := fourEntries }) 0 Memory.initial).state, []⟩ ∧
    IsDevice driver 1 (⟨[2], [66]⟩, 3) d
      (hrxGpuInitialize.run (fun _ _ ↦ { infos := fourEntries }) 0 Memory.initial).events
      (hrxGpuInitialize.run (fun _ _ ↦ { infos := fourEntries }) 0 Memory.initial).state := by
  have hreports : Reports (fun _ _ ↦ { infos := fourEntries }) fourEntries :=
    ⟨fun _ _ _ ↦ rfl, fun _ _ ↦ rfl⟩
  obtain ⟨-, -, -, driver, hdevices⟩ :=
    (@gpu_ordinals_map _ _ hreports Memory.initial rfl 0).2 (by decide)
  obtain ⟨d, hget, hdevice⟩ := hdevices 1 (⟨[2], [66]⟩, 3) (by decide)
  exact ⟨driver, d, hget _ _ _ rfl, hdevice⟩

end HrxSystem.Libhrx
