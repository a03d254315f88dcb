import HrxSystem.Libhrx.Drivers
import HrxSystem.Libhrx.RuntimeBooks

namespace HrxSystem.Libhrx

open External Program Counting

section Drivers

variable {a b h : Multiset Res} {R : Memory → Prop} {p : Outside → Prop}

def madeDevice (a b h : Multiset Res) (R : Memory → Prop) :
    Except HrxStatus (Obj × Obj) → Trace → Memory → Prop
  | .error s => fun t mem ↦ s.isSome ∧ Account a b h R t mem
  | .ok (driver, device) => Account a b ({.halDevice device} + ({.driver driver} + h)) R

theorem createSingleDeviceGroup_account (device : Obj) :
    Triple p (Account a b h R) (createSingleDeviceGroup device)
      (fun r ↦ Account a b ((if r.1.isSome then 0 else {.group r.2}) + h) R) :=
  createSingleDeviceGroup_booked (W := holdings) (R := .of R) device

theorem createLocalTaskDevice_account (groupCount : ℕ) :
    Triple Roomy (Account a b h R) (createLocalTaskDevice groupCount) (madeDevice a b h R) := by
  refine (createLocalTaskDevice_booked (W := holdings) (R := .of R) groupCount).mono
    (fun _ _ hA ↦ hA) ?_
  intro r t mem hr
  cases r with
  | error s => exact ⟨hr.1 fun _ ho ↦ ho, hr.2⟩
  | ok d => exact hr

theorem halDeviceRelease_account (device : Obj) :
    Triple p (Account a b ({.halDevice device} + h) R) (call (.halDeviceRelease device))
      (fun _ ↦ Account a b h R) :=
  halDeviceRelease_booked (W := holdings) (R := .of R) device

theorem driverRelease_account (driver : Obj) :
    Triple p (Account a b ({.driver driver} + h) R) (call (.driverRelease driver))
      (fun _ ↦ Account a b h R) :=
  driverRelease_booked (W := holdings) (R := .of R) driver

end Drivers

section Devices

variable {a b h : Multiset Res} {g : Globals} {cell : DeviceCells} {P : SharedState → Prop}
  {p : Outside → Prop}

theorem intoHandle_account (obj : HrxDeviceS) :
    Triple p (Account a b (obj.parts + h) (Rest g cell P)) (intoHandle .devices obj)
      (fun d t mem ↦ cell d = none ∧
        Account a b h (Rest g (Function.update cell d (some ⟨1, obj⟩)) P) t mem) := by
  refine (account_idle rfl).bind fun e ↦ account_state.bind fun mem ↦ account_read fun hmem ↦ ?_
  have hfree : cell (mem.devices.fresh e.answer.value) = none := by
    rw [← hmem.cells]
    exact mem.devices.fresh_cell _
  refine .bind (Q := fun _ ↦ Account a b h
    (Rest g (Function.update cell (mem.devices.fresh e.answer.value) (some ⟨1, obj⟩)) P))
    (account_update ?_)
    fun _ ↦ .pure fun _ _ hA ↦ ⟨hfree, hA⟩
  rintro s ⟨rfl, hR⟩
  refine ⟨⟨hR.cpu, hR.gpu, congrArg (Function.update · _ _) hR.cells, hR.shared⟩, ?_⟩
  have htotal :=
    s.devices.total_put HrxDeviceS.parts (s.devices.fresh e.answer.value) (some ⟨1, obj⟩)
  rw [hR.cells, hfree, Heap.share_none, add_zero, Heap.share_some] at htotal
  simp only [holdings, Kind.devices, htotal]
  abel

theorem hrxDeviceRelease_account {d : ℕ} {obj : HrxDeviceS} (hd : cell d = some ⟨1, obj⟩) :
    Triple p (Account a b h (Rest g cell P)) (hrxDeviceRelease d)
      (fun _ ↦ Account a b h (Rest g (Function.update cell d none) P)) := by
  have hdrop :
      Triple p (Account a b (obj.parts + h) (Rest g (Function.update cell d none) P)) obj.drop
      (fun _ ↦ Account a b h (Rest g (Function.update cell d none) P)) := by
    refine .bind (account_mono (account_release (r := .allocator obj.halAllocator)
      (h := {Res.group obj.halDeviceGroup} + ({Res.halDevice obj.halDevice} + h))
      fun e he ↦ by simp only [released, he]) ?_ fun _ h ↦ h) fun _ ↦ ?_
    · simp only [HrxDeviceS.parts, Multiset.insert_eq_cons, ← Multiset.singleton_add, add_assoc]
    · refine .bind (account_release fun e he ↦ by simp only [released, he]) fun _ ↦ ?_
      exact .bind (account_release fun e he ↦ by simp only [released, he]) fun _ ↦
        .pure fun _ _ hA ↦ hA
  have hrelease : Triple p (Account a b h (Rest g cell P)) (handleRelease .devices d)
      (fun r t mem ↦ r = some obj ∧
        Account a b (obj.parts + h) (Rest g (Function.update cell d none) P) t mem) := by
    refine account_state.bind fun mem ↦ account_read fun hmem ↦ ?_
    have hr : mem.devices.release d = (some obj, mem.devices.put d none) := by
      rw [Heap.release, hmem.cells, hd]
      simp
    refine .bind (Q := fun _ ↦ Account a b (obj.parts + h) (Rest g (Function.update cell d none) P))
      (account_update ?_)
      fun _ ↦ .pure fun _ _ hA ↦ ⟨by simp [Kind.devices, hr], hA⟩
    rintro s ⟨rfl, hR⟩
    simp only [Kind.devices, hr]
    refine ⟨⟨hR.cpu, hR.gpu, congrArg (Function.update · _ _) hR.cells, hR.shared⟩, ?_⟩
    have htotal := s.devices.total_put HrxDeviceS.parts d none
    rw [hR.cells, hd, Heap.share_none, add_zero, Heap.share_some] at htotal
    simp only [holdings, ← htotal]
    abel
  refine hrelease.bind fun r ↦ .assume fun hr ↦ ?_
  rw [hr]
  exact hdrop

/-- The devices of a list are live, with one reference each, beside those of `cell₀`. -/
structure OwnedDevices (cell₀ : DeviceCells) (ds : List DevicePtr) (cell : DeviceCells) : Prop where
  nodup : (ds.map DevicePtr.addr).Nodup
  live : ∀ d ∈ ds, cell₀ d.addr = none ∧ ∃ obj, cell d.addr = some ⟨1, obj⟩
  rest : ∀ x, x ∉ ds.map DevicePtr.addr → cell x = cell₀ x

theorem OwnedDevices.tail {cell₀ : DeviceCells} {d : DevicePtr} {ds : List DevicePtr}
    (ho : OwnedDevices cell₀ (d :: ds) cell) :
    OwnedDevices cell₀ ds (Function.update cell d.addr none) := by
  obtain ⟨hmem, hnodup⟩ := List.nodup_cons.mp ho.nodup
  refine ⟨hnodup, fun d' hd' ↦ ?_, fun x hx ↦ ?_⟩
  · have hne : d'.addr ≠ d.addr := fun heq ↦ hmem (heq ▸ List.mem_map_of_mem hd')
    rw [Function.update_of_ne hne]
    exact ho.live d' (List.mem_cons_of_mem _ hd')
  · by_cases hxd : x = d.addr
    · rw [hxd, Function.update_self, (ho.live d (List.mem_cons_self ..)).1]
    · rw [Function.update_of_ne hxd]
      exact ho.rest x (by simpa [hxd] using hx)

theorem releaseDevices_account {cell₀ : DeviceCells} {ds : List DevicePtr}
    (ho : OwnedDevices cell₀ ds cell) :
    Triple p (Account a b h (Rest g cell P)) (releaseDevices ds)
      (fun _ ↦ Account a b h (Rest g cell₀ P)) := by
  induction ds generalizing cell with
  | nil =>
    obtain rfl : cell = cell₀ := funext fun x ↦ ho.rest x (by simp)
    exact .pure fun _ _ hA ↦ hA
  | cons d ds ih =>
    obtain ⟨obj, hobj⟩ := (ho.live d (List.mem_cons_self ..)).2
    exact (hrxDeviceRelease_account hobj).bind fun _ ↦ ih ho.tail

def Ordered (w : Which) (ds : List DevicePtr) (cell : DeviceCells) : Prop :=
  ∀ i d, ds[i]? = some d → ∃ obj, cell d.addr = some ⟨1, obj⟩ ∧ obj.ordinal = i ∧ obj.type = w.type

theorem OwnedDevices.snoc {cell₀ : DeviceCells} {ds : List DevicePtr} {d : DevicePtr}
    (ho : OwnedDevices cell₀ ds cell) (hd : cell d.addr = none) (obj : HrxDeviceS) :
    OwnedDevices cell₀ (ds ++ [d]) (Function.update cell d.addr (some ⟨1, obj⟩)) := by
  have hnew : d.addr ∉ ds.map DevicePtr.addr := by
    intro hmem
    obtain ⟨d', hd', heq⟩ := List.mem_map.mp hmem
    obtain ⟨obj', hobj'⟩ := (ho.live d' hd').2
    rw [heq, hd] at hobj'
    cases hobj'
  refine ⟨?_, fun d' hd' ↦ ?_, fun x hx ↦ ?_⟩
  · rw [List.map_append, List.map_singleton]
    exact List.nodup_append.mpr ⟨ho.nodup, List.nodup_singleton _, fun x hx y hy ↦ by
      rw [List.mem_singleton.mp hy]
      exact fun heq ↦ hnew (heq ▸ hx)⟩
  · obtain hd' | hd' := List.mem_append.mp hd'
    · have hne : d'.addr ≠ d.addr := fun heq ↦ hnew (heq ▸ List.mem_map_of_mem hd')
      rw [Function.update_of_ne hne]
      exact ho.live d' hd'
    · rw [List.mem_singleton.mp hd']
      exact ⟨(ho.rest _ hnew).symm.trans hd, obj, Function.update_self ..⟩
  · simp only [List.map_append, List.map_singleton, List.mem_append, List.mem_singleton, not_or]
      at hx
    rw [Function.update_of_ne hx.2]
    exact ho.rest x hx.1

theorem Ordered.snoc {w : Which} {ds : List DevicePtr} {d : DevicePtr} (hord : Ordered w ds cell)
    (hd : cell d.addr = none) {obj : HrxDeviceS} (hobj : obj.ordinal = ds.length)
    (htype : obj.type = w.type) :
    Ordered w (ds ++ [d]) (Function.update cell d.addr (some ⟨1, obj⟩)) := by
  intro i d' hi
  rw [List.getElem?_append] at hi
  split at hi
  case isTrue hlt =>
    obtain ⟨obj', hcell, hrest⟩ := hord i d' hi
    have hne : d'.addr ≠ d.addr := by
      intro heq
      rw [heq, hd] at hcell
      cases hcell
    exact ⟨obj', by rw [Function.update_of_ne hne, hcell], hrest⟩
  case isFalse hge =>
    have hi' : i - ds.length = 0 := by
      by_contra hne
      rw [List.getElem?_eq_none (by simp; omega)] at hi
      cases hi
    rw [hi'] at hi
    obtain rfl : d = d' := by simpa using hi
    exact ⟨obj, Function.update_self .., by omega, htype⟩

end Devices

def initialized (a b h : Multiset Res) (w : Which) (g : Globals) (cell : DeviceCells) :
    HrxStatus → Trace → Memory → Prop
  | some _ => Account a b h (Rest g cell (Unchanged g.shared))
  | none => fun t mem ↦ (w.get g).initialized = false ∧
      ∃ ds driver cell', ds ≠ [] ∧ OwnedDevices cell ds cell' ∧ Ordered w ds cell' ∧
        Account a b h (Rest (w.set ⟨ds, ds.length, true, some driver⟩ g) cell' (JoinedBy g.shared))
        t mem

/-- An accelerator is complete or empty. -/
structure AcceleratorOk (x : Accelerator) : Prop where
  used : x.initialized = true → x.driver.isSome ∧ x.deviceCount = x.devices.length ∧ x.devices ≠ []
  unused : x.initialized = false → x.devices = [] ∧ x.deviceCount = 0 ∧ x.driver = none

section Initialize

variable {a b h : Multiset Res} {w : Which} {g : Globals} {cell : DeviceCells}
  {P : SharedState → Prop}

theorem initialized_error {s : HrxStatus} (hs : s.isSome) {t : Trace} {mem : Memory}
    (hA : Account a b h (Rest g cell (Unchanged g.shared)) t mem) :
    initialized a b h w g cell s t mem := by
  cases s with
  | none => cases hs
  | some e => exact hA

theorem withAccelerator_account {p : Outside → Prop} {ds : List DevicePtr} {driver : Obj}
    {count : ℤ} (hw : (w.get g).driver = none) :
    Triple p (Account a b ({.driver driver} + h) (Rest g cell P))
      (update (withAccelerator w ⟨ds, count, true, some driver⟩))
      (fun _ ↦ Account a b h (Rest (w.set ⟨ds, count, true, some driver⟩ g) cell P)) := by
  refine account_update fun mem hR ↦ ?_
  cases w with
  | cpu =>
    refine ⟨⟨rfl, hR.gpu, hR.cells, hR.shared⟩, ?_⟩
    rw [Which.get, ← hR.cpu] at hw
    simp only [holdings, withAccelerator, Which.set, Accelerator.parts, hw, Option.elim_none,
      Option.elim_some]
    abel
  | gpu =>
    refine ⟨⟨hR.cpu, rfl, hR.cells, hR.shared⟩, ?_⟩
    rw [Which.get, ← hR.gpu] at hw
    simp only [holdings, withAccelerator, Which.set, Accelerator.parts, hw, Option.elim_none,
      Option.elim_some]
    abel

theorem ownedDevices_nil : OwnedDevices cell [] cell := ⟨List.nodup_nil, by simp, fun _ _ ↦ rfl⟩

theorem ordered_nil : Ordered w [] cell := by
  intro i d hd
  cases hd

theorem hrxCpuInitialize_account (hs : SharedOk g.shared) (hx : AcceleratorOk g.cpu) :
    Triple Roomy (Account a b h (Rest g cell (Unchanged g.shared))) hrxCpuInitialize
      (initialized a b h .cpu g cell) := by
  refine account_state.bind fun mem ↦ account_known fun hmem ↦ .ite (fun hi ↦ ?_) fun hi ↦ ?_
  · exact (account_error (by decide) _).mono (fun _ _ hA ↦ hA) fun _ _ _ hA ↦
      initialized_error hA.1 hA.2
  rw [hmem.cpu, Bool.not_eq_true] at hi
  obtain ⟨-, -, hdriver⟩ := hx.unused hi
  refine (ensureSharedState_account hs).bind fun s ↦ ?_
  cases s with
  | some e => exact .pure fun _ _ hA ↦ hA
  | none =>
    refine .bind (Q := fun _ ↦ Account a b h (Rest g cell (JoinedBy g.shared)))
      (account_update fun mem hR ↦ ?_)
      fun _ ↦ ?_
    · exact ⟨⟨hR.cpu, hR.gpu, hR.cells, hR.shared⟩, rfl⟩
    refine (createLocalTaskDevice_account 4).bind fun r ↦ ?_
    cases r with
    | error e =>
      refine .assume fun he ↦ (releaseSharedState_account hs).bind fun _ ↦ .pure fun _ _ hA ↦ ?_
      exact initialized_error he hA
    | ok p =>
      obtain ⟨driver, halDevice⟩ := p
      refine (createSingleDeviceGroup_account halDevice).bind fun group ↦
        .ite (fun hg ↦ ?_) fun hg ↦ ?_
      · simp only [hg, if_true, zero_add]
        refine (halDeviceRelease_account halDevice).bind fun _ ↦
          (driverRelease_account driver).bind fun _ ↦ ?_
        refine (releaseSharedState_account hs).bind fun _ ↦ (account_fromError hg).mono
          (fun _ _ hA ↦ hA) ?_
        exact fun _ _ _ hA ↦ initialized_error hA.1 hA.2
      · simp only [hg, Bool.false_eq_true, if_false]
        refine (account_idle rfl).bind fun allocator ↦ .bind (account_take
          (r := fun _ ↦ {Res.allocator allocator.answer.value})
          (fun e he ↦ by simp only [acquired, he])
          fun e he ↦ by simp only [released, he]) fun _ ↦ ?_
        refine .bind
          (account_mono (intoHandle_account (h := {.driver driver} + h) _) ?_ fun _ h ↦ h)
          fun dev ↦ .assume fun hdev ↦ ?_
        · simp only [HrxDeviceS.parts, Multiset.insert_eq_cons, ← Multiset.singleton_add, add_assoc]
        refine (withAccelerator_account (w := .cpu) hdriver).bind fun _ ↦ .pure fun _ _ hA ↦ ?_
        exact ⟨hi, _, driver, _, List.cons_ne_nil _ _,
          ownedDevices_nil.snoc (d := ⟨dev, _, _, _⟩) hdev _,
          ordered_nil.snoc (d := ⟨dev, _, _, _⟩) hdev rfl rfl, hA⟩

end Initialize

section Enumerate

variable {a b h : Multiset Res} {g : Globals} {cell₀ cell : DeviceCells} {ds : List DevicePtr}
  {driver infos : Obj}

def enumerated (a b h : Multiset Res) (driver infos : Obj) (g : Globals) (cell₀ : DeviceCells)
    (ds : List DevicePtr) (t : Trace) (mem : Memory) : Prop :=
  ∃ cell, OwnedDevices cell₀ ds cell ∧ Ordered .gpu ds cell ∧
    Account a b ({.block infos} + ({.driver driver} + h)) (Rest g cell (JoinedBy g.shared)) t mem

theorem allocatorFree_account {R : Memory → Prop} {p : Outside → Prop} (infos : Obj) :
    Triple p (Account a b ({.block infos} + h) R) (call (.allocatorFree (some infos)))
      (fun _ ↦ Account a b h R) :=
  account_release fun e he ↦ by simp only [released, he]

theorem abandonDevices_account {p : Outside → Prop} (hs : SharedOk g.shared)
    (ho : OwnedDevices cell₀ ds cell) :
    Triple p
      (Account a b ({.block infos} + ({.driver driver} + h)) (Rest g cell (JoinedBy g.shared)))
      (abandonDevices driver infos ds)
      (fun _ ↦ Account a b h (Rest g cell₀ (Unchanged g.shared))) :=
  (releaseDevices_account ho).bind fun _ ↦ (allocatorFree_account infos).bind fun _ ↦
    (driverRelease_account driver).bind fun _ ↦ releaseSharedState_account hs

theorem gpuArchitecture_aside (halDevice : Obj) :
    Aside (fun c ↦ idle c = true) (gpuArchitecture halDevice : Hrx Memory (List UInt8)) :=
  .bind (.call rfl) fun _ ↦ .ite (.pure _) (.pure _)

theorem gpuArchitecture_account {R : Memory → Prop} {p : Outside → Prop} (halDevice : Obj) :
    Triple p (Account a b h R) (gpuArchitecture halDevice) (fun _ ↦ Account a b h R) :=
  account_confined (gpuArchitecture_aside halDevice)

theorem createGpuDevice_account (hs : SharedOk g.shared) (pool : Option Obj) (index : ℕ)
    (info : DeviceInfo) :
    Triple Roomy (enumerated a b h driver infos g cell₀ ds)
      (createGpuDevice driver infos pool index info ds)
      (fun
        | .error s => fun t mem ↦ s.isSome ∧ Account a b h (Rest g cell₀ (Unchanged g.shared)) t mem
        | .ok d => enumerated a b h driver infos g cell₀ (ds ++ [d])) := by
  refine .of_exists fun cell ↦ .assume fun ho ↦ .assume fun hord ↦ ?_
  refine account_try (r := fun e ↦ {Res.halDevice e.pos}) (fun e he ↦ by simp only [acquired, he])
    (fun e he ↦ by simp only [released, he]) (fun e he ↦ ?_) fun halDevice _ ↦ ?_
  · refine (abandonDevices_account hs ho).bind fun _ ↦ (account_failed he).bind fun _ ↦
      .pure fun _ _ hA ↦ hA
  refine (createSingleDeviceGroup_account halDevice.pos).bind fun group ↦
    .ite (fun hg ↦ ?_) fun hg ↦ ?_
  · simp only [hg, if_true, zero_add]
    refine (halDeviceRelease_account halDevice.pos).bind fun _ ↦
      (abandonDevices_account hs ho).bind fun _ ↦ ?_
    exact (account_fromError hg).bind fun _ ↦ .pure fun _ _ hA ↦ hA
  simp only [hg, Bool.false_eq_true, if_false]
  refine (account_idle rfl).bind fun allocator ↦ .bind (account_take
    (r := fun _ ↦ {Res.allocator allocator.answer.value}) (fun e he ↦ by simp only [acquired, he])
    fun e he ↦ by
      simp only [released, he]) fun _ ↦ (gpuArchitecture_account halDevice.pos).bind fun arch ↦ ?_
  refine .bind
    (account_mono (intoHandle_account (h := {.block infos} + ({.driver driver} + h)) _) ?_
      fun _ h ↦ h)
    fun dev ↦ .assume fun hdev ↦ .pure fun _ _ hA ↦ ?_
  · simp only [HrxDeviceS.parts, Multiset.insert_eq_cons, ← Multiset.singleton_add, add_assoc]
  · exact ⟨_, ho.snoc (d := ⟨dev, _, _, _⟩) hdev _, hord.snoc (d := ⟨dev, _, _, _⟩) hdev rfl rfl,
      hA⟩

def physical (l : List DeviceInfo) : List DeviceInfo := l.filter fun info ↦ info.path ≠ []

theorem createGpuDevices_account (hs : SharedOk g.shared) (pool : Option Obj) {count : ℕ}
    (l : List DeviceInfo) (index : ℕ) (hcount : ds.length ≤ count) :
    Triple Roomy (enumerated a b h driver infos g cell₀ ds)
      (createGpuDevices driver infos pool count l index ds)
      (fun
        | .error s => fun t mem ↦ s.isSome ∧ Account a b h (Rest g cell₀ (Unchanged g.shared)) t mem
        | .ok ds' => fun t mem ↦ ds'.length = min count (ds.length + (physical l).length) ∧
            enumerated a b h driver infos g cell₀ ds' t mem) := by
  induction l generalizing ds index with
  | nil => exact .pure fun _ _ hA ↦ ⟨by simp [physical, hcount], hA⟩
  | cons info rest ih =>
    refine .ite (fun hlt ↦ .ite (fun hpath ↦ ?_) fun hpath ↦ ?_) fun hge ↦ .pure fun _ _ hA ↦
      ⟨by omega, hA⟩
    · have hphys : physical (info :: rest) = physical rest := by simp [physical, hpath]
      rw [hphys]
      exact ih (index + 1) hcount
    · have hphys : (physical (info :: rest)).length = (physical rest).length + 1 := by
        simp [physical, hpath]
      refine (createGpuDevice_account hs pool index info).bind fun r ↦ ?_
      cases r with
      | error s => exact .pure fun _ _ hA ↦ hA
      | ok d =>
        have hnext : (ds ++ [d]).length ≤ count := by
          rw [List.length_append, List.length_singleton]
          omega
        refine (ih (index + 1) hnext).mono (fun _ _ hA ↦ hA) fun r t mem hr ↦ ?_
        cases r with
        | error s => exact hr
        | ok ds' =>
          refine ⟨hr.1.trans ?_, hr.2⟩
          rw [hphys, List.length_append, List.length_singleton, add_assoc, add_comm 1]

theorem enumerateGpus_account (hs : SharedOk g.shared) (hi : g.gpu.initialized = false)
    (hdriver : g.gpu.driver = none) (q : Happened) :
    Triple Roomy
      (Account a b ({.block q.pos} + ({.driver driver} + h)) (Rest g cell (JoinedBy g.shared)))
      (enumerateGpus driver q) (initialized a b h .gpu g cell) := by
  refine account_state.bind fun mem ↦ account_known fun _ ↦ .ite (fun _ ↦ ?_) fun hphys ↦ ?_
  · refine (allocatorFree_account q.pos).bind fun _ ↦ (driverRelease_account driver).bind fun _ ↦
      (releaseSharedState_account hs).bind fun _ ↦ (account_error (by decide) _).mono
        (fun _ _ hA ↦ hA) ?_
    exact fun _ _ _ hA ↦ initialized_error hA.1 hA.2
  have hnone : ([] : List DevicePtr).length ≤ min (physical q.answer.infos).length maxDevices :=
    Nat.zero_le _
  refine .bind ((createGpuDevices_account hs _ q.answer.infos 0 hnone).mono
    (fun _ _ hA ↦ ⟨cell, ownedDevices_nil, ordered_nil, hA⟩) fun _ _ _ hr ↦ hr) fun r ↦ ?_
  cases r with
  | error s => exact .pure fun _ _ hA ↦ initialized_error hA.1 hA.2
  | ok ds =>
    refine .assume fun hlen ↦ .of_exists fun cell' ↦ .assume fun ho ↦ .assume fun hord ↦ ?_
    refine (allocatorFree_account q.pos).bind fun _ ↦
      (withAccelerator_account (w := .gpu) hdriver).bind fun _ ↦
      .pure fun _ _ hA ↦ ⟨hi, ds, driver, cell', ?_, ho, hord, hA⟩
    have hpos : 0 < (physical q.answer.infos).length := List.length_pos_iff.mpr hphys
    have hmin : 0 < min (min (physical q.answer.infos).length maxDevices)
        (0 + (physical q.answer.infos).length) := by
      rw [maxDevices]
      omega
    exact List.length_pos_iff.mp (hlen.symm ▸ hmin)

theorem hrxGpuInitialize_account (hs : SharedOk g.shared) (hx : AcceleratorOk g.gpu) :
    Triple Roomy (Account a b h (Rest g cell (Unchanged g.shared))) hrxGpuInitialize
      (initialized a b h .gpu g cell) := by
  refine account_state.bind fun mem ↦ account_known fun hmem ↦ .ite (fun hi ↦ ?_) fun hi ↦ ?_
  · exact (account_error (by decide) _).mono (fun _ _ hA ↦ hA) fun _ _ _ hA ↦
      initialized_error hA.1 hA.2
  rw [hmem.gpu, Bool.not_eq_true] at hi
  obtain ⟨-, -, hdriver⟩ := hx.unused hi
  have hleave : ∀ e : Happened, ok e = false →
      Triple Roomy (Account a b h (Rest g cell (JoinedBy g.shared)))
        (do
          releaseSharedState
          return ← hrxStatusFromIree e.answer.status) (initialized a b h .gpu g cell) := fun e he ↦
    (releaseSharedState_account hs).bind fun _ ↦ (account_failed he).mono (fun _ _ hA ↦ hA)
      fun _ _ _ hA ↦ initialized_error hA.1 hA.2
  refine (ensureSharedState_account hs).bind fun s ↦ ?_
  cases s with
  | some e => exact .pure fun _ _ hA ↦ hA
  | none =>
    refine (account_idle rfl).bind fun r ↦ .ite (fun hr ↦ ?_) fun _ ↦ ?_
    · exact hleave r (by simp only [Bool.and_eq_true, Bool.not_eq_true'] at hr; exact hr.1)
    refine account_try (r := fun e ↦ {Res.driver e.pos}) (fun e he ↦ by simp only [acquired, he])
      (fun e he ↦ by simp only [released, he]) hleave fun driver _ ↦ ?_
    refine account_try (r := fun e ↦ {Res.block e.pos}) (fun e he ↦ by simp only [acquired, he])
      (fun e he ↦ by simp only [released, he]) (fun e he ↦ ?_) fun q _ ↦
      enumerateGpus_account hs hi hdriver q
    exact (driverRelease_account driver.pos).bind fun _ ↦ hleave e he

end Enumerate

end HrxSystem.Libhrx
