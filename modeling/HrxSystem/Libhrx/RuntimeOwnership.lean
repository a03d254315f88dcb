import HrxSystem.Libhrx.Creations
import HrxSystem.Libhrx.RuntimeRuns

namespace HrxSystem.Libhrx

open External Program Counting

def Statics (P : SharedState → Prop) (Q : Accelerator → Accelerator → Prop) (g : Globals) : Prop :=
  P g.shared ∧ Q g.cpu g.gpu

def SharedState.Clear (s : SharedState) : Prop :=
  s.initialized = false → s.vmInstance = none ∧ s.proactorPool = none

def Accelerator.Clear (x : Accelerator) : Prop :=
  x.initialized = false → x.devices = [] ∧ x.driver = none

variable {a b h : Multiset Res} {e : Multiset Ref} {v : Watch} {p : Outside → Prop}
variable {P P' : SharedState → Prop} {Q Q' : Accelerator → Accelerator → Prop}

section Statics

variable {F G : Globals → Prop} {t : Trace} {mem : Memory} {g : Globals}

/-- The statics may change as long as they name the same devices. -/
theorem Owning.statics (hO : Owning e F v t mem) (hrefs : g.deviceRefs = mem.globals.deviceRefs)
    (hg : G g) :
    Owning e G v t { mem with globals := g } := by
  refine ⟨hO.balanced.congr (fun r ↦ ?_) ?_, hg, ⟨hO.known.null, hO.known.functions⟩,
    hO.since, hO.kept⟩
  · cases r <;> rfl
  · simp only [refsIn, hrefs]

theorem accounted_weaken {α : Type} {m : Hrx Memory α} {R : α → Trace → Memory → Prop}
    (hF : ∀ g, F g → G g) (hm : Triple p (Accounted a b h e G v) m R) :
    Triple p (Accounted a b h e F v) m R :=
  booked_mono hm rfl fun _ _ hO ↦ ⟨hO.balanced, hF _ hO.globals, hO.known, hO.since, hO.kept⟩

end Statics

section Shared

theorem estate_shared {h' : Multiset Res} {mem : Memory} {s : SharedState}
    (hh : h + mem.globals.shared.parts = h' + s.parts) :
    h + estate mem = h' + estate { mem with globals := { mem.globals with shared := s } } := by
  simp only [estate, holdings]
  calc _ = h + mem.globals.shared.parts + (mem.globals.cpu.parts + mem.globals.gpu.parts +
        mem.devices.total HrxDeviceS.parts + mem.semaphores.total HrxSemaphoreS.parts +
        mem.buffers.total HrxBufferS.parts + mem.executables.total HrxExecutableS.parts +
        mem.modules.total HrxModuleS.parts) := by abel
    _ = _ := by rw [hh]; abel

theorem accounted_shared {h' : Multiset Res} {f : SharedState → SharedState}
    (hf : ∀ s, P s → P' (f s) ∧ h + s.parts = h' + (f s).parts) :
    Triple p (Accounted a b h e (Statics P Q) v) (update (withShared f))
      (fun _ ↦ Accounted a b h' e (Statics P' Q) v) := by
  refine booked_update fun t mem hO ↦ ?_
  obtain ⟨hP, hh⟩ := hf _ hO.globals.1
  exact ⟨hO.statics rfl ⟨hP, hO.globals.2⟩, estate_shared hh⟩

theorem accounted_unshare {r h' : Multiset Res} {f : SharedState → SharedState}
    (hf : ∀ s, P s → P' (f s) ∧ h + s.parts = r + (h' + (f s).parts)) :
    Triple p (Accounted (r + a) b h e (Statics P Q) v) (update (withShared f))
      (fun _ ↦ Accounted a b h' e (Statics P' Q) v) := by
  refine booked_settle fun t mem hO ↦ ?_
  obtain ⟨hP, hh⟩ := hf _ hO.globals.1
  refine ⟨hO.statics rfl ⟨hP, hO.globals.2⟩, ?_⟩
  rw [← add_assoc] at hh ⊢
  exact estate_shared hh

/-- The shared state before it is initialized, with what it holds so far. -/
structure Unfinished (vm pool : Option Obj) (s : SharedState) : Prop where
  initialized : s.initialized = false
  vmInstance : s.vmInstance = vm
  proactorPool : s.proactorPool = pool

theorem ensureSharedState_accounted :
    Triple p (Accounted a b h e (Statics SharedState.Clear Q) v) ensureSharedState
      (fun _ ↦ Accounted a b h e (Statics SharedState.Clear Q) v) := by
  refine booked_state.bind fun mem ↦ .ite (fun hi ↦ ?_) fun hi ↦ ?_
  · refine .bind (Q := fun _ ↦ Accounted a b h e (Statics SharedState.Clear Q) v)
      (booked_mono (accounted_shared (P := fun s ↦ s.initialized = true) fun s hs ↦
        ⟨fun hfalse ↦ ?_, rfl⟩) rfl ?_)
      fun _ ↦ .pure fun _ _ hA ↦ hA
    · rw [show s.initialized = false from hfalse] at hs
      cases hs
    · rintro t x ⟨rfl, hO⟩
      exact hO.statics (G := Statics _ Q) rfl ⟨hi, hO.globals.2⟩
  have hleave :
      ∀ s, Triple p (Accounted a b h e (Statics (Unfinished none none) Q) v) (hrxStatusFromIree s)
      (fun _ ↦ Accounted a b h e (Statics SharedState.Clear Q) v) := fun s ↦
    accounted_weaken (fun g hg ↦ ⟨fun _ ↦ ⟨hg.1.vmInstance, hg.1.proactorPool⟩, hg.2⟩)
      (booked_status s)
  have hstart : ∀ t x, ((owning e (Statics SharedState.Clear Q) v).at_ mem).holds t x →
      (owning e (Statics (Unfinished none none) Q) v).holds t x := by
    rintro t x ⟨rfl, hO⟩
    rw [Bool.not_eq_true] at hi
    obtain ⟨hvm, hpool⟩ := hO.globals.1 hi
    exact hO.statics (G := Statics _ Q) rfl ⟨⟨hi, hvm, hpool⟩, hO.globals.2⟩
  refine .bind (Q := fun _ ↦ Accounted a b h e (Statics (Unfinished none none) Q) v)
    (booked_mono
      (accounted_shared fun s hs ↦ ⟨⟨hs.initialized, hs.vmInstance, hs.proactorPool⟩, rfl⟩) rfl
      hstart)
    fun _ ↦ ?_
  refine booked_try (r := fun e ↦ {Res.vmInstance e.pos}) (fun e he ↦ by simp only [acquired, he])
    (fun e he ↦ by simp only [released, he]) (fun e _ ↦ hleave _) fun inst _ ↦ ?_
  refine booked_try (r := fun _ ↦ 0) (fun e he ↦ by simp [acquired, he])
    (fun e he ↦ by simp only [released, he]) (fun e _ ↦ ?_) fun _ _ ↦ ?_
  · exact .bind (booked_give fun e he ↦ by simp only [released, he]) fun _ ↦ hleave _
  rw [zero_add]
  refine .bind (Q := fun _ ↦ Accounted a b h e (Statics (Unfinished (some inst.pos) none) Q) v)
    (accounted_shared fun s hs ↦ ⟨⟨hs.initialized, rfl, hs.proactorPool⟩, ?_⟩) fun _ ↦ ?_
  · simp only [SharedState.parts, hs.vmInstance, hs.proactorPool, Option.elim_none,
      Option.elim_some, add_zero]
    abel
  refine booked_try (r := fun e ↦ {Res.proactorPool e.pos}) (fun e he ↦ by simp only [acquired, he])
    (fun e he ↦ by simp only [released, he]) (fun _ _ ↦ ?_) fun pool _ ↦ ?_
  · refine (booked_ahead (r := {.vmInstance inst.pos}) (fun e he ↦ by simp only [released, he])
      fun e he ↦ by simp only [acquired, he]).bind fun _ ↦ ?_
    refine .bind (Q := fun _ ↦ Accounted a b h e (Statics (Unfinished none none) Q) v)
      (accounted_unshare fun s hs ↦ ⟨⟨hs.initialized, rfl, hs.proactorPool⟩, ?_⟩) fun _ ↦ hleave _
    simp only [SharedState.parts, hs.vmInstance, hs.proactorPool, Option.elim_none,
      Option.elim_some, add_zero]
    abel
  · refine .bind
      (Q := fun _ ↦ Accounted a b h e (Statics (Unfinished (some inst.pos) (some pool.pos)) Q) v)
      (accounted_shared fun s hs ↦ ⟨⟨hs.initialized, hs.vmInstance, rfl⟩, ?_⟩) fun _ ↦ ?_
    · simp only [SharedState.parts, hs.vmInstance, hs.proactorPool, Option.elim_none,
        Option.elim_some, add_zero]
      abel
    · exact .bind (accounted_shared fun s _ ↦ ⟨(fun h ↦ by cases h), rfl⟩) fun _ ↦
        .pure fun _ _ hA ↦ hA

/-- The shared state while its last user leaves, with what it still holds. -/
structure Closing (vm pool : Option Obj) (s : SharedState) : Prop where
  vmInstance : s.vmInstance = vm
  proactorPool : s.proactorPool = pool

theorem releaseProactorPool_accounted (vm pool : Option Obj) :
    Triple p (Accounted a b h e (Statics (Closing vm pool) Q) v) (releaseProactorPool pool)
      (fun _ ↦ Accounted a b h e (Statics (Closing vm none) Q) v) := by
  cases pool with
  | none => exact .pure fun _ _ hA ↦ hA
  | some x =>
    refine (booked_ahead (r := {.proactorPool x}) (fun e he ↦ by simp only [released, he])
      fun e he ↦ by simp only [acquired, he]).bind fun _ ↦ accounted_unshare fun s hs ↦ ?_
    refine ⟨⟨hs.vmInstance, rfl⟩, ?_⟩
    simp only [SharedState.parts, hs.vmInstance, hs.proactorPool, Option.elim_none,
      Option.elim_some, add_zero]
    abel

theorem releaseVmInstance_accounted (vm : Option Obj) :
    Triple p (Accounted a b h e (Statics (Closing vm none) Q) v) (releaseVmInstance vm)
      (fun _ ↦ Accounted a b h e (Statics (Closing none none) Q) v) := by
  cases vm with
  | none => exact .pure fun _ _ hA ↦ hA
  | some x =>
    refine (booked_ahead (r := {.vmInstance x}) (fun e he ↦ by simp only [released, he])
      fun e he ↦ by simp only [acquired, he]).bind fun _ ↦ accounted_unshare fun s hs ↦ ?_
    refine ⟨⟨rfl, hs.proactorPool⟩, ?_⟩
    simp only [SharedState.parts, hs.vmInstance, hs.proactorPool, Option.elim_none,
      Option.elim_some, add_zero]
    abel

theorem releaseSharedState_accounted :
    Triple p (Accounted a b h e (Statics SharedState.Clear Q) v) releaseSharedState
      (fun _ ↦ Accounted a b h e (Statics SharedState.Clear Q) v) := by
  refine booked_state.bind fun mem ↦ .ite (fun _ ↦ .pure fun _ _ hA ↦ ⟨hA.1, hA.2.2⟩) fun hi ↦ ?_
  have hused : ∀ t x, ((owning e (Statics SharedState.Clear Q) v).at_ mem).holds t x →
      (owning e (Statics (fun s ↦ s.initialized = true ∧
        Closing mem.globals.shared.vmInstance mem.globals.shared.proactorPool s) Q)
        v).holds t x := by
    rintro t x ⟨rfl, hO⟩
    exact hO.statics (G := Statics _ Q) rfl ⟨⟨by simpa using hi, rfl, rfl⟩, hO.globals.2⟩
  refine .bind (Q := fun _ ↦ Accounted a b h e (Statics (fun s ↦ s.initialized = true ∧
    Closing mem.globals.shared.vmInstance mem.globals.shared.proactorPool s) Q) v)
    (booked_mono (accounted_shared fun s hs ↦ ⟨⟨hs.1, hs.2.vmInstance, hs.2.proactorPool⟩, rfl⟩) rfl
      hused)
    fun _ ↦ .ite (fun _ ↦ .pure fun _ _ hA ↦ ?_) fun _ ↦ ?_
  · refine ⟨hA.1, hA.2.statics rfl ⟨fun hfalse ↦ ?_, hA.2.globals.2⟩⟩
    rw [hA.2.globals.1.1] at hfalse
    cases hfalse
  · refine accounted_weaken (fun g hg ↦ ⟨hg.1.2, hg.2⟩)
      ((releaseProactorPool_accounted _ _).bind fun _ ↦ ?_)
    refine (releaseVmInstance_accounted _).bind fun _ ↦ accounted_shared fun s hs ↦ ?_
    exact ⟨fun _ ↦ ⟨hs.vmInstance, hs.proactorPool⟩, rfl⟩

end Shared

section Devices

def Which.of : Which → Accelerator → Accelerator → Accelerator
  | cpu, c, _ => c
  | gpu, _, g => g

structure Steady (c g : Accelerator) : Prop where
  cpu : c.Clear
  gpu : g.Clear
  nodup : (c.devices ++ g.devices).Nodup

/-- Accelerator `w` is being initialized, and has the devices `ds` so far. -/
structure Opening (w : Which) (ds : List DevicePtr) (c g : Accelerator) : Prop where
  steady : Steady c g
  unused : (w.of c g).initialized = false
  nodup : (c.devices ++ g.devices ++ ds).Nodup

def refsOf (ds : List DevicePtr) : Multiset Ref := (ds.map Ref.device : Multiset Ref)

variable {w : Which} {ds : List DevicePtr}

theorem refsOf_snoc (ds : List DevicePtr) (d : DevicePtr) :
    refsOf (ds ++ [d]) = refsOf ds + {.device d} := by
  simp [refsOf, ← Multiset.coe_add]

theorem refsOf_cons (d : DevicePtr) (ds : List DevicePtr) :
    refsOf (d :: ds) = refsOf ds + {.device d} := by
  rw [add_comm, Multiset.singleton_add]
  rfl

theorem mem_refsOf {d : DevicePtr} : Ref.device d ∈ refsOf ds ↔ d ∈ ds := by
  simp [refsOf]

theorem Globals.deviceRefs_eq (g : Globals) :
    g.deviceRefs = refsOf (g.cpu.devices ++ g.gpu.devices) := by
  simp [Globals.deviceRefs, refsOf, ← Multiset.coe_add]

theorem intoDevice_accounted (ds : List DevicePtr) (obj : HrxDeviceS) :
    Triple p (Accounted a b (obj.parts + h) (e + refsOf ds) (Statics P (Opening w ds)) v)
      (intoHandle .devices obj)
      (fun x ↦ Accounted a b h (e + refsOf (ds ++ [obj.ptr x]))
        (Statics P (Opening w (ds ++ [obj.ptr x]))) v) := by
  have hrefs : e + refsOf ds = e + refsOf ds + Owner.devices.refs obj := (add_zero _).symm
  rw [hrefs]
  refine (Owner.devices.intoHandle_accounted obj fun _ _ ↦ trivial).mono (fun _ _ hA ↦ hA) ?_
  rintro x t mem ⟨hnot, -, hentries, hO⟩
  have hfresh : obj.ptr x ∉ mem.globals.cpu.devices ++ mem.globals.gpu.devices ++ ds := by
    intro hmem
    refine hnot obj ?_
    rw [Globals.deviceRefs_eq]
    rcases List.mem_append.mp hmem with hmem | hmem
    · exact Multiset.mem_add.mpr (.inl (mem_refsOf.mpr hmem))
    · exact Multiset.mem_add.mpr (.inr (Multiset.mem_add.mpr (.inr (mem_refsOf.mpr hmem))))
  refine ⟨hentries, ?_, ⟨hO.globals.1, hO.globals.2.steady, hO.globals.2.unused, ?_⟩, hO.known,
    hO.since, hO.kept⟩
  · rw [refsOf_snoc, ← add_assoc]
    exact hO.balanced
  · rw [← List.append_assoc]
    exact List.nodup_append.mpr ⟨hO.globals.2.nodup, List.nodup_singleton _, fun y hy z hz ↦ by
      rw [List.mem_singleton.mp hz]
      exact fun heq ↦ hfresh (heq ▸ hy)⟩

theorem intoFirstDevice_accounted (obj : HrxDeviceS) :
    Triple p (Accounted a b (obj.parts + h) e (Statics P (Opening w [])) v)
      (intoHandle .devices obj)
      (fun x ↦ Accounted a b h (e + refsOf [obj.ptr x]) (Statics P (Opening w [obj.ptr x])) v) := by
  have hfirst := intoDevice_accounted (p := p) (a := a) (b := b) (h := h) (e := e) (v := v) (P := P)
      (w := w) [] obj
  have hnone : e + refsOf [] = e := add_zero e
  rw [hnone] at hfirst
  exact hfirst

theorem releaseDevices_accounted {F : Globals → Prop} (ds : List DevicePtr) :
    Triple p (Accounted a b h (e + refsOf ds) F v) (releaseDevices ds)
      (fun _ ↦ Accounted a b h e F v) := by
  induction ds with
  | nil => exact .pure fun _ _ hA ↦ (add_zero e) ▸ hA
  | cons d ds ih =>
    rw [refsOf_cons, ← add_assoc]
    exact (hrxDeviceRelease_accounted d).bind fun _ ↦ ih

theorem finishAccelerator_accounted (w : Which) {driver : Obj} {count : ℤ} :
    Triple p
      (Accounted a b ({.driver driver} + h) (e + refsOf ds)
        (Statics SharedState.Clear (Opening w ds)) v)
      (update (withAccelerator w ⟨ds, count, true, some driver⟩))
      (fun _ ↦ Accounted a b h e (Statics SharedState.Clear Steady) v) := by
  refine booked_update fun t mem hO ↦ ?_
  obtain ⟨hclear, hsteady, hunused, hnodup⟩ := hO.globals
  cases w with
  | cpu =>
    obtain ⟨hdevices, hdriver⟩ := hsteady.cpu hunused
    refine ⟨⟨hO.balanced.congr (fun r ↦ ?_) ?_, ⟨hclear, (fun h ↦ by cases h), hsteady.gpu, ?_⟩,
      ⟨hO.known.null, hO.known.functions⟩, hO.since, hO.kept⟩, ?_⟩
    · cases r <;> rfl
    · simp only [refsIn, Globals.deviceRefs, withAccelerator, Which.set, hdevices, refsOf,
        List.map_nil, Multiset.coe_nil]
      abel
    · rw [hdevices, List.nil_append] at hnodup
      exact List.nodup_append_comm.mp hnodup
    · simp only [estate, holdings, withAccelerator, Which.set, Accelerator.parts, hdriver,
        Option.elim_none, Option.elim_some]
      abel
  | gpu =>
    obtain ⟨hdevices, hdriver⟩ := hsteady.gpu hunused
    refine ⟨⟨hO.balanced.congr (fun r ↦ ?_) ?_, ⟨hclear, hsteady.cpu, (fun h ↦ by cases h), ?_⟩,
      ⟨hO.known.null, hO.known.functions⟩, hO.since, hO.kept⟩, ?_⟩
    · cases r <;> rfl
    · simp only [refsIn, Globals.deviceRefs, withAccelerator, Which.set, hdevices, refsOf,
        List.map_nil, Multiset.coe_nil]
      abel
    · rw [hdevices, List.append_nil] at hnodup
      exact hnodup
    · simp only [estate, holdings, withAccelerator, Which.set, Accelerator.parts, hdriver,
        Option.elim_none, Option.elim_some]
      abel

end Devices

abbrev InOrder (a b h : Multiset Res) (e : Multiset Ref) (v : Watch) : Trace → Memory → Prop :=
  Accounted a b h e (Statics SharedState.Clear Steady) v

section Initialize

variable {w : Which} {ds : List DevicePtr} {driver infos : Obj}

abbrev Starting (a b h : Multiset Res) (e : Multiset Ref) (w : Which) (v : Watch) :
    Trace → Memory → Prop :=
  Accounted a b h e (Statics SharedState.Clear (Opening w [])) v

theorem given_up {α : Type} {m : Hrx Memory α} {R : α → Trace → Memory → Prop}
    (hm : Triple p (InOrder a b h e v) m R) :
    Triple p (Accounted a b h e (Statics SharedState.Clear (Opening w ds)) v) m R :=
  accounted_weaken (fun _ hg ↦ ⟨hg.1, hg.2.steady⟩) hm

/-- The accelerator is not initialized yet, and `ensure_shared_state` came before everything
else. -/
theorem opening_accounted {mem : Memory}
    (hi : ¬ (w.of mem.globals.cpu mem.globals.gpu).initialized = true) :
    Triple p (Booked estate a b h ((owning e (Statics SharedState.Clear Steady) v).at_ mem))
      ensureSharedState
      (fun _ ↦ Starting a b h e w v) := by
  refine booked_mono ensureSharedState_accounted rfl ?_
  rintro t x ⟨rfl, hO⟩
  refine hO.statics (G := Statics _ (Opening w [])) rfl
    ⟨hO.globals.1, hO.globals.2, by simpa using hi, ?_⟩
  rw [List.append_nil]
  exact hO.globals.2.nodup

theorem leave_accounted (s : IreeStatus) :
    Triple p (InOrder a b h e v)
      (do
        releaseSharedState
        return ← hrxStatusFromIree s) (fun _ ↦ InOrder a b h e v) :=
  releaseSharedState_accounted.bind fun _ ↦ booked_status s

theorem hrxCpuInitialize_accounted :
    Triple p (InOrder a b h e v) hrxCpuInitialize (fun _ ↦ InOrder a b h e v) := by
  refine booked_state.bind fun mem ↦ .ite (fun _ ↦ ?_) fun hi ↦ ?_
  · exact booked_mono (booked_confined (hrxError_calls (fun _ ↦ rfl) _ _)) rfl fun _ _ hO ↦ hO.2
  refine (opening_accounted (w := .cpu) hi).bind fun s ↦
    .ite (fun _ ↦ given_up (.pure fun _ _ hA ↦ hA)) fun _ ↦ ?_
  refine .bind (Q := fun _ ↦ Starting a b h e .cpu v)
    (booked_update fun t mem hO ↦ ⟨hO.statics rfl hO.globals, rfl⟩)
    fun _ ↦ ?_
  refine (createLocalTaskDevice_booked 4).bind fun r ↦ ?_
  cases r with
  | error s =>
    exact .assume fun _ ↦ given_up (releaseSharedState_accounted.bind fun _ ↦ .pure fun _ _ hA ↦ hA)
  | ok made =>
    obtain ⟨driver, halDevice⟩ := made
    refine (createSingleDeviceGroup_booked halDevice).bind fun group ↦
      .ite (fun hg ↦ ?_) fun hg ↦ ?_
    · simp only [hg, if_true, zero_add]
      refine (halDeviceRelease_booked halDevice).bind fun _ ↦
        (driverRelease_booked driver).bind fun _ ↦ ?_
      exact given_up (leave_accounted _)
    · simp only [hg, Bool.false_eq_true, if_false]
      refine (booked_idle rfl).bind fun allocator ↦ .bind (booked_take
        (r := fun _ ↦ {Res.allocator allocator.answer.value})
        (fun e he ↦ by simp only [acquired, he])
        fun e he ↦ by simp only [released, he]) fun _ ↦ ?_
      refine .bind
        (booked_mono (intoFirstDevice_accounted (h := {.driver driver} + h) _) ?_ fun _ _ hO ↦ hO)
        fun dev ↦ ?_
      · simp only [HrxDeviceS.parts, Multiset.insert_eq_cons, ← Multiset.singleton_add, add_assoc]
      · exact (finishAccelerator_accounted .cpu).bind fun _ ↦ .pure fun _ _ hA ↦ hA

def enumerating (a b h : Multiset Res) (e : Multiset Ref) (driver infos : Obj) (ds : List DevicePtr)
    (v : Watch) :
    Trace → Memory → Prop :=
  Accounted a b ({.block infos} + ({.driver driver} + h)) (e + refsOf ds)
    (Statics SharedState.Clear (Opening .gpu ds)) v

theorem infosFree_booked {σ : Type} {W : σ → Multiset Res} {R : Standing σ} (infos : Obj) :
    Triple p (Booked W a b ({.block infos} + h) R) (call (.allocatorFree (some infos)))
      (fun _ ↦ Booked W a b h R) :=
  booked_give fun e he ↦ by simp only [released, he]

theorem abandonDevices_accounted :
    Triple p (enumerating a b h e driver infos ds v) (abandonDevices driver infos ds)
      (fun _ ↦ InOrder a b h e v) :=
  (releaseDevices_accounted ds).bind fun _ ↦ (infosFree_booked infos).bind fun _ ↦
    (driverRelease_booked driver).bind fun _ ↦ given_up releaseSharedState_accounted

def enumeratedAs (a b h : Multiset Res) (e : Multiset Ref) (driver infos : Obj) (v : Watch) :
    Except HrxStatus (List DevicePtr) → Trace → Memory → Prop
  | .error _ => InOrder a b h e v
  | .ok ds => enumerating a b h e driver infos ds v

def enumeratedOne (a b h : Multiset Res) (e : Multiset Ref) (driver infos : Obj)
    (ds : List DevicePtr) (v : Watch) :
    Except HrxStatus DevicePtr → Trace → Memory → Prop
  | .error _ => InOrder a b h e v
  | .ok d => enumerating a b h e driver infos (ds ++ [d]) v

theorem createGpuDevice_accounted (pool : Option Obj) (index : ℕ) (info : DeviceInfo) :
    Triple p (enumerating a b h e driver infos ds v)
      (createGpuDevice driver infos pool index info ds)
      (enumeratedOne a b h e driver infos ds v) := by
  have hfail : ∀ s, Triple p (InOrder a b h e v) (do return .error (← hrxStatusFromIree s))
      (enumeratedOne a b h e driver infos ds v) := fun s ↦
    (booked_status s).bind fun _ ↦ .pure fun _ _ hA ↦ hA
  refine booked_try (r := fun e ↦ {Res.halDevice e.pos}) (fun e he ↦ by simp only [acquired, he])
    (fun e he ↦ by simp only [released, he]) (fun x _ ↦ ?_) fun halDevice _ ↦ ?_
  · exact abandonDevices_accounted.bind fun _ ↦ hfail x.answer.status
  refine (createSingleDeviceGroup_booked halDevice.pos).bind fun group ↦
    .ite (fun hg ↦ ?_) fun hg ↦ ?_
  · simp only [hg, if_true, zero_add]
    exact (halDeviceRelease_booked halDevice.pos).bind fun _ ↦ abandonDevices_accounted.bind
      fun _ ↦ hfail group.1
  simp only [hg, Bool.false_eq_true, if_false]
  refine (booked_idle rfl).bind fun allocator ↦ .bind (booked_take
    (r := fun _ ↦ {Res.allocator allocator.answer.value}) (fun e he ↦ by simp only [acquired, he])
    fun e he ↦ by simp only [released, he]) fun _ ↦ ?_
  refine (booked_confined (gpuArchitecture_aside halDevice.pos)).bind fun arch ↦ ?_
  refine .bind
    (booked_mono (intoDevice_accounted (h := {.block infos} + ({.driver driver} + h)) ds _) ?_
    fun _ _ hO ↦ hO) fun dev ↦ ?_
  · simp only [HrxDeviceS.parts, Multiset.insert_eq_cons, ← Multiset.singleton_add, add_assoc]
  · exact .pure fun _ _ hA ↦ hA

theorem createGpuDevices_accounted (pool : Option Obj) (count : ℕ) (l : List DeviceInfo)
    (index : ℕ) :
    Triple p (enumerating a b h e driver infos ds v)
      (createGpuDevices driver infos pool count l index ds)
      (enumeratedAs a b h e driver infos v) := by
  induction l generalizing ds index with
  | nil => exact .pure fun _ _ hA ↦ hA
  | cons info rest ih =>
    refine .ite (fun _ ↦ .ite (fun _ ↦ ih (index + 1)) fun _ ↦ ?_) fun _ ↦ .pure fun _ _ hA ↦ hA
    refine (createGpuDevice_accounted pool index info).bind fun r ↦ ?_
    cases r with
    | error s => exact .pure fun _ _ hA ↦ hA
    | ok d => exact ih (index + 1)

theorem enumerateGpus_accounted (q : Happened) :
    Triple p
      (Accounted a b ({.block q.pos} + ({.driver driver} + h)) e
        (Statics SharedState.Clear (Opening .gpu [])) v)
      (enumerateGpus driver q) (fun _ ↦ InOrder a b h e v) := by
  refine booked_state.bind fun mem ↦ booked_known fun _ ↦ .ite (fun _ ↦ ?_) fun _ ↦ ?_
  · refine (infosFree_booked q.pos).bind fun _ ↦ (driverRelease_booked driver).bind
      fun _ ↦ given_up ?_
    exact releaseSharedState_accounted.bind fun _ ↦ booked_confined
      (hrxError_calls (fun _ ↦ rfl) _ _)
  have hnone : ∀ t x, (owning e (Statics SharedState.Clear (Opening .gpu [])) v).holds t x →
      (owning (e + refsOf []) (Statics SharedState.Clear (Opening .gpu [])) v).holds t x := by
    intro t x hO
    exact (add_zero e).symm ▸ hO
  refine .bind (booked_mono (createGpuDevices_accounted _ _ _ 0) rfl hnone) fun r ↦ ?_
  cases r with
  | error s => exact .pure fun _ _ hA ↦ hA
  | ok ds =>
    exact (infosFree_booked q.pos).bind fun _ ↦ (finishAccelerator_accounted .gpu).bind fun _ ↦
      .pure fun _ _ hA ↦ hA

theorem hrxGpuInitialize_accounted :
    Triple p (InOrder a b h e v) hrxGpuInitialize (fun _ ↦ InOrder a b h e v) := by
  refine booked_state.bind fun mem ↦ .ite (fun _ ↦ ?_) fun hi ↦ ?_
  · exact booked_mono (booked_confined (hrxError_calls (fun _ ↦ rfl) _ _)) rfl fun _ _ hO ↦ hO.2
  refine (opening_accounted (w := .gpu) hi).bind fun s ↦
    .ite (fun _ ↦ given_up (.pure fun _ _ hA ↦ hA)) fun _ ↦ ?_
  refine (booked_idle rfl).bind fun r ↦ .ite (fun _ ↦ given_up (leave_accounted _)) fun _ ↦ ?_
  refine booked_try (r := fun e ↦ {Res.driver e.pos}) (fun e he ↦ by simp only [acquired, he])
    (fun e he ↦ by simp only [released, he]) (fun _ _ ↦ given_up (leave_accounted _))
    fun driver _ ↦ ?_
  refine booked_try (r := fun e ↦ {Res.block e.pos}) (fun e he ↦ by simp only [acquired, he])
    (fun e he ↦ by simp only [released, he]) (fun _ _ ↦ ?_) fun q _ ↦ enumerateGpus_accounted q
  exact (driverRelease_booked driver.pos).bind fun _ ↦ given_up (leave_accounted _)

end Initialize

section Shutdown

variable {w : Which} {mem : Memory}

theorem hrxDeviceRelease_indifferent (x : Accelerator) (d : ℕ) :
    Indifferent (withAccelerator w x) (hrxDeviceRelease d) := by
  have hrelease : Indifferent (withAccelerator w x) (handleRelease .devices d) := fun _ _ _ ↦ rfl
  refine hrelease.bind fun r ↦ ?_
  cases r with
  | none => exact .pure _
  | some d => exact .bind (.call _) fun _ ↦ .bind (.call _) fun _ ↦ .bind (.call _) fun _ ↦ .pure _

theorem releaseDevices_indifferent (x : Accelerator) (ds : List DevicePtr) :
    Indifferent (withAccelerator w x) (releaseDevices ds) := by
  induction ds with
  | nil => exact .pure _
  | cons d ds ih => exact (hrxDeviceRelease_indifferent x d.addr).bind fun _ ↦ ih

theorem releaseDriver_indifferent (x : Accelerator) (driver : Option Obj) :
    Indifferent (withAccelerator w x) (releaseDriver driver) := by
  cases driver with
  | none => exact .pure _
  | some d => exact .bind (.call _) fun _ ↦ .pure _

theorem releaseDriver_booked {R : Standing Memory} (driver : Option Obj) :
    Triple p (Booked estate a b (driver.elim 0 (fun d ↦ {.driver d}) + h) R) (releaseDriver driver)
      (fun _ ↦ Booked estate a b h R) := by
  cases driver with
  | none => exact .pure fun _ _ hA ↦ by simpa only [Option.elim_none, zero_add] using hA
  | some d => exact (driverRelease_booked d).bind fun _ ↦ .pure fun _ _ hA ↦ hA

/-- An accelerator that forgets its devices and its driver leaves them in hand. -/
theorem forget_accounted {t : Trace} (w : Which) (hA : InOrder a b h e v t mem) :
    InOrder a b ((w.get mem.globals).driver.elim 0 (fun d ↦ {.driver d}) + h)
      (e + refsOf (w.get mem.globals).devices) v t
      (withAccelerator w ⟨[], 0, false, none⟩ mem) := by
  obtain ⟨hentries, hO⟩ := hA
  obtain ⟨hclear, hcpu, hgpu, hnodup⟩ := hO.globals
  cases w with
  | cpu =>
    refine ⟨?_, hO.balanced.congr (fun r ↦ ?_) ?_, ⟨hclear, fun _ ↦ ⟨rfl, rfl⟩, hgpu, ?_⟩,
      ⟨hO.known.null, hO.known.functions⟩, hO.since, hO.kept⟩
    · rw [Entries] at hentries ⊢
      rw [hentries]
      simp only [estate, holdings, withAccelerator, Which.set, Which.get, Accelerator.parts,
        Option.elim_none]
      abel
    · cases r <;> rfl
    · simp only [refsIn, Globals.deviceRefs, withAccelerator, Which.set, Which.get, refsOf,
        List.map_nil, Multiset.coe_nil]
      abel
    · exact (List.nodup_append.mp hnodup).2.1
  | gpu =>
    refine ⟨?_, hO.balanced.congr (fun r ↦ ?_) ?_, ⟨hclear, hcpu, fun _ ↦ ⟨rfl, rfl⟩, ?_⟩,
      ⟨hO.known.null, hO.known.functions⟩, hO.since, hO.kept⟩
    · rw [Entries] at hentries ⊢
      rw [hentries]
      simp only [estate, holdings, withAccelerator, Which.set, Which.get, Accelerator.parts,
        Option.elim_none]
      abel
    · cases r <;> rfl
    · simp only [refsIn, Globals.deviceRefs, withAccelerator, Which.set, Which.get, refsOf,
        List.map_nil, Multiset.coe_nil]
      abel
    · change (mem.globals.cpu.devices ++ []).Nodup
      rw [List.append_nil]
      exact (List.nodup_append.mp hnodup).1

/-- A shutdown gives back the devices and the driver before the accelerator forgets them, which
comes to the same as after. -/
theorem acceleratorShutdown_accounted (w : Which) :
    Triple p (InOrder a b h e v) (acceleratorShutdown w) (fun _ ↦ InOrder a b h e v) := by
  refine booked_state.bind fun mem ↦ .ite (fun _ ↦ ?_) fun _ ↦ ?_
  · exact booked_mono (booked_confined (hrxError_calls (fun _ ↦ rfl) _ _)) rfl fun _ _ hO ↦ hO.2
  have hstart :
      ∀ t x, Booked estate a b h ((owning e (Statics SharedState.Clear Steady) v).at_ mem) t x →
      InOrder a b ((w.get mem.globals).driver.elim 0 (fun d ↦ {.driver d}) + h)
        (e + refsOf (w.get mem.globals).devices)
        v t (withAccelerator w ⟨[], 0, false, none⟩ x) := by
    rintro t x ⟨hentries, rfl, hO⟩
    exact forget_accounted w ⟨hentries, hO⟩
  refine Triple.mono ?_ hstart fun _ _ _ hA ↦ hA
  refine ((releaseDevices_indifferent _ _).through (releaseDevices_accounted _)).bind fun _ ↦ ?_
  refine ((releaseDriver_indifferent _ _).through (releaseDriver_booked _)).bind fun _ ↦ ?_
  refine .bind (Q := fun _ ↦ InOrder a b h e v) (.update fun _ _ hA ↦ hA) fun _ ↦ ?_
  exact releaseSharedState_accounted.bind fun _ ↦ .pure fun _ _ hA ↦ hA

end Shutdown

theorem RuntimeCall.run_accounted (k : RuntimeCall) :
    Triple p (InOrder a b h e v) k.run (fun _ ↦ InOrder a b h e v) := by
  cases k with
  | init w =>
    cases w with
    | cpu => exact hrxCpuInitialize_accounted.bind fun _ ↦ .pure fun _ _ hA ↦ hA
    | gpu => exact hrxGpuInitialize_accounted.bind fun _ ↦ .pure fun _ _ hA ↦ hA
  | shutdown w => exact (acceleratorShutdown_accounted w).bind fun _ ↦ .pure fun _ _ hA ↦ hA
  | deviceCount w count => exact booked_confined (acceleratorDeviceCount_aside w count)
  | deviceGet w index device => exact booked_confined (acceleratorDeviceGet_aside w index device)

end HrxSystem.Libhrx
