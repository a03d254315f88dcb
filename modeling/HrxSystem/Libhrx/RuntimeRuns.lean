import HrxSystem.External.Runs
import HrxSystem.Libhrx.RuntimeInit

namespace HrxSystem.Libhrx

open External Program Counting

def Accelerator.empty : Accelerator := ⟨[], 0, false, none⟩

theorem AcceleratorOk.eq_empty {x : Accelerator} (hx : AcceleratorOk x)
    (hi : x.initialized = false) :
    x = .empty := by
  obtain ⟨hdevices, hcount, hdriver⟩ := hx.unused hi
  obtain ⟨devices, count, initialized, driver⟩ := x
  simp only at hdevices hcount hdriver hi
  rw [hdevices, hcount, hdriver, hi, Accelerator.empty]

theorem Rest.get {g : Globals} {cell : DeviceCells} {P : SharedState → Prop} {mem : Memory}
    (h : Rest g cell P mem) (w : Which) : w.get mem.globals = w.get g := by
  cases w with
  | cpu => exact h.cpu
  | gpu => exact h.gpu

section Shutdown

variable {a b h : Multiset Res} {w : Which} {g : Globals} {cell₀ cell : DeviceCells}
  {s₀ : SharedState}
variable {p : Outside → Prop}

theorem releaseDriver_account {R : Memory → Prop} (d : Obj) :
    Triple p (Account a b h R) (releaseDriver (some d)) (fun _ ↦ Account ({.driver d} + a) b h R) :=
  (account_ahead (fun e he ↦ by simp only [released, he])
    fun e he ↦ by simp only [acquired, he]).bind
    fun _ ↦ .pure fun _ _ hA ↦ hA

theorem forgetDriver_account {P : SharedState → Prop} {d : Obj} (hd : (w.get g).driver = some d) :
    Triple p (Account ({.driver d} + a) b h (Rest g cell P)) (update (withAccelerator w .empty))
      (fun _ ↦ Account a b h (Rest (w.set .empty g) cell P)) := by
  refine account_settle fun mem hR ↦ ?_
  cases w with
  | cpu =>
    refine ⟨⟨rfl, hR.gpu, hR.cells, hR.shared⟩, ?_⟩
    rw [Which.get, ← hR.cpu] at hd
    simp only [holdings, withAccelerator, Which.set, Accelerator.parts, Accelerator.empty, hd,
      Option.elim_none, Option.elim_some]
    abel
  | gpu =>
    refine ⟨⟨hR.cpu, rfl, hR.cells, hR.shared⟩, ?_⟩
    rw [Which.get, ← hR.gpu] at hd
    simp only [holdings, withAccelerator, Which.set, Accelerator.parts, Accelerator.empty, hd,
      Option.elim_none, Option.elim_some]
    abel

/-- A shutdown takes back the devices, the driver and the shared state. -/
theorem acceleratorShutdown_account (hs : SharedOk s₀) (hi : (w.get g).initialized = true) {d : Obj}
    (hd : (w.get g).driver = some d) (ho : OwnedDevices cell₀ (w.get g).devices cell) :
    Triple p (Account a b h (Rest g cell (JoinedBy s₀))) (acceleratorShutdown w)
      (fun s t mem ↦ s = none ∧
        Account a b h (Rest (w.set .empty g) cell₀ (Unchanged s₀)) t mem) := by
  refine account_state.bind fun mem ↦ account_known fun hmem ↦ ?_
  rw [hmem.get w]
  refine .ite (fun hi' ↦ ?_) fun _ ↦ (releaseDevices_account ho).bind fun _ ↦ ?_
  · simp [hi] at hi'
  rw [hd]
  refine (releaseDriver_account d).bind fun _ ↦ (forgetDriver_account hd).bind fun _ ↦ ?_
  have hleave :
      Triple p (Account a b h (Rest { w.set .empty g with shared := s₀ } cell₀ (JoinedBy s₀)))
      releaseSharedState
        (fun _ ↦ Account a b h (Rest { w.set .empty g with shared := s₀ } cell₀ (Unchanged s₀))) :=
    releaseSharedState_account (g := { w.set .empty g with shared := s₀ }) hs
  refine .bind (hleave.mono (fun _ _ hA ↦ ⟨hA.1, ⟨hA.2.cpu, hA.2.gpu, hA.2.cells, hA.2.shared⟩⟩)
    fun _ _ _ hA ↦ hA) fun _ ↦ .pure fun _ _ hA ↦ ?_
  exact ⟨rfl, hA.1, ⟨hA.2.cpu, hA.2.gpu, hA.2.cells, hA.2.shared⟩⟩

theorem acceleratorShutdown_unused {P : SharedState → Prop} (hi : (w.get g).initialized = false) :
    Triple p (Account a b h (Rest g cell P)) (acceleratorShutdown w)
      (fun _ ↦ Account a b h (Rest g cell P)) := by
  refine account_state.bind fun mem ↦ account_known fun hmem ↦ .ite (fun _ ↦ ?_) fun hi' ↦ ?_
  · exact account_confined (hrxError_calls (fun _ ↦ rfl) _ _)
  · rw [hmem.get w, hi] at hi'
    simp at hi'

end Shutdown

section Queries

variable {a b h : Multiset Res} {R : Memory → Prop} {p : Outside → Prop}

theorem refused_aside (code : HrxStatusCode) (message : String) : Aside (fun c ↦ idle c = true)
    (do return ⟨← hrxError code message, .nothing⟩ : Hrx Memory Returned) :=
  .bind (hrxError_calls (fun _ ↦ rfl) code message) fun _ ↦ .pure _

theorem acceleratorDeviceCount_aside (w : Which) (count : Bool) :
    Aside (fun c ↦ idle c = true) (acceleratorDeviceCount w count) :=
  .ite (refused_aside _ _) (.bind .state fun _ ↦ .ite (refused_aside _ _) (.pure _))

theorem acceleratorDeviceGet_aside (w : Which) (index : ℤ) (device : Bool) :
    Aside (fun c ↦ idle c = true) (acceleratorDeviceGet w index device) := by
  refine .ite (refused_aside _ _)
    (.bind .state fun mem ↦ .ite (refused_aside _ _) (.ite (refused_aside _ _) ?_))
  cases (w.get mem.globals).devices[index.toNat]? with
  | none => exact .pure _
  | some d => exact .pure _

theorem acceleratorDeviceCount_account (w : Which) (count : Bool) :
    Triple p (Account a b h R) (acceleratorDeviceCount w count) (fun _ ↦ Account a b h R) :=
  account_confined (acceleratorDeviceCount_aside w count)

theorem acceleratorDeviceGet_account (w : Which) (index : ℤ) (device : Bool) :
    Triple p (Account a b h R) (acceleratorDeviceGet w index device) (fun _ ↦ Account a b h R) :=
  account_confined (acceleratorDeviceGet_aside w index device)

end Queries

/-- The entry points that lock `G`. -/
inductive RuntimeCall
  | init (w : Which)
  | shutdown (w : Which)
  | deviceCount (w : Which) (count : Bool)
  | deviceGet (w : Which) (index : ℤ) (device : Bool)
deriving DecidableEq

def acceleratorInitialize : Which → Hrx Memory HrxStatus
  | .cpu => hrxCpuInitialize
  | .gpu => hrxGpuInitialize

def RuntimeCall.run : RuntimeCall → Hrx Memory Returned
  | .init w => do return ⟨← acceleratorInitialize w, .nothing⟩
  | .shutdown w => do return ⟨← acceleratorShutdown w, .nothing⟩
  | .deviceCount w count => acceleratorDeviceCount w count
  | .deviceGet w index device => acceleratorDeviceGet w index device

abbrev RuntimeLog := List (Entry Call Answer Memory Returned RuntimeCall)

/-- The runs of the runtime: each call holds the lock on `G` for its whole body, and whatever IREE
refuses, the payloads of the statuses can be allocated (`Roomy`). -/
abbrev RuntimeRuns (mem₀ mem : Memory) (l : RuntimeLog) : Prop :=
  Runs RuntimeCall.run (fun _ _ _ o ↦ Roomy o) mem₀ mem l

def Globals.initializedCount (g : Globals) : ℤ :=
  g.cpu.initialized.toNat + g.gpu.initialized.toNat

structure RuntimeOk (g : Globals) (cell : DeviceCells) : Prop where
  shared : SharedOk g.shared
  initCount : g.shared.initCount = g.initializedCount
  accelerator : ∀ w : Which, AcceleratorOk (w.get g)
  ordered : ∀ w : Which, Ordered w (w.get g).devices cell
  nodup : ∀ w : Which, ((w.get g).devices.map DevicePtr.addr).Nodup

theorem acceleratorInitialize_account {a b h : Multiset Res} {w : Which} {g : Globals}
    {cell : DeviceCells} (hs : SharedOk g.shared) (hx : AcceleratorOk (w.get g)) :
    Triple Roomy (Account a b h (Rest g cell (Unchanged g.shared))) (acceleratorInitialize w)
      (initialized a b h w g cell) := by
  cases w with
  | cpu => exact hrxCpuInitialize_account hs hx
  | gpu => exact hrxGpuInitialize_account hs hx

section Steps

variable {g : Globals} {cell : DeviceCells} {mem : Memory} {w : Which}

theorem Unchanged.sharedOk {s₀ s : SharedState} (h : Unchanged s₀ s) (hs : SharedOk s₀) :
    SharedOk s := by
  obtain ⟨hinit, hcount, hvm, hpool⟩ := h.fields
  refine ⟨fun hi ↦ ?_, fun hi ↦ ?_⟩
  · rw [hcount, hvm, hpool]
    exact hs.used (hinit.symm.trans hi)
  · rw [hcount, hvm, hpool]
    exact hs.unused (hinit.symm.trans hi)

theorem SharedOk.initCount_nonneg {s : SharedState} (hs : SharedOk s) : 0 ≤ s.initCount := by
  cases hi : s.initialized with
  | true => exact (hs.used hi).1.le
  | false => exact (hs.unused hi).1.ge

theorem JoinedBy.sharedOk {s₀ s : SharedState} (h : JoinedBy s₀ s) (hs : SharedOk s₀) :
    SharedOk s := by
  refine ⟨fun _ ↦ ⟨?_, h.vmInstance, h.proactorPool⟩, fun hi ↦ ?_⟩
  · have := h.initCount
    have := hs.initCount_nonneg
    omega
  · simp [h.initialized] at hi

theorem RuntimeOk.of_rest (hok : RuntimeOk g cell) (hR : Rest g cell (Unchanged g.shared) mem) :
    RuntimeOk mem.globals mem.devices.cell := by
  refine ⟨hR.shared.sharedOk hok.shared, ?_, fun w ↦ ?_, fun w ↦ ?_, fun w ↦ ?_⟩
  · rw [hR.shared.fields.2.1, hok.initCount, Globals.initializedCount, Globals.initializedCount,
      hR.cpu, hR.gpu]
  · rw [hR.get w]
    exact hok.accelerator w
  · rw [hR.get w, hR.cells]
    exact hok.ordered w
  · rw [hR.get w]
    exact hok.nodup w

theorem Ordered.beside {ds ds' : List DevicePtr} {cell' : DeviceCells} (hord : Ordered w ds cell)
    (ho : OwnedDevices cell ds' cell') : Ordered w ds cell' := by
  intro i d hd
  obtain ⟨obj, hobj, hrest⟩ := hord i d hd
  refine ⟨obj, ?_, hrest⟩
  rw [ho.rest, hobj]
  intro hmem
  obtain ⟨d', hd', heq⟩ := List.mem_map.mp hmem
  have hfree := (ho.live d' hd').1
  rw [heq, hobj] at hfree
  cases hfree

theorem Which.get_set (w w' : Which) (x : Accelerator) (g : Globals) :
    w'.get (w.set x g) = if w' = w then x else w'.get g := by
  cases w <;> cases w' <;> rfl

theorem initializedCount_set (hi : (w.get g).initialized = false) {x : Accelerator}
    (hx : x.initialized = true) :
    (w.set x g).initializedCount = g.initializedCount + 1 := by
  cases w with
  | cpu =>
    rw [Which.get] at hi
    simp only [Globals.initializedCount, Which.set, hx, hi, Bool.toNat_true, Bool.toNat_false]
    omega
  | gpu =>
    rw [Which.get] at hi
    simp only [Globals.initializedCount, Which.set, hx, hi, Bool.toNat_true, Bool.toNat_false]
    omega

def without (ds : List DevicePtr) (cell : DeviceCells) : DeviceCells :=
  fun x ↦ if x ∈ ds.map DevicePtr.addr then none else cell x

theorem ownedDevices_without {ds : List DevicePtr} (hnodup : (ds.map DevicePtr.addr).Nodup)
    (hord : Ordered w ds cell) :
    OwnedDevices (without ds cell) ds cell := by
  refine ⟨hnodup, fun d hd ↦ ⟨?_, ?_⟩, fun x hx ↦ ?_⟩
  · rw [without, if_pos (List.mem_map_of_mem hd)]
  · obtain ⟨i, hi⟩ := List.mem_iff_getElem?.mp hd
    obtain ⟨obj, hobj, -⟩ := hord i d hi
    exact ⟨obj, hobj⟩
  · rw [without, if_neg hx]

/-- The devices of the other accelerator stay, since their type differs. -/
theorem Ordered.other {w' : Which} (hw : w' ≠ w) {ds ds' : List DevicePtr}
    (hord : Ordered w' ds' cell) (hord' : Ordered w ds cell) :
    Ordered w' ds' (without ds cell) := by
  intro i d hd
  obtain ⟨obj, hobj, hi, htype⟩ := hord i d hd
  refine ⟨obj, ?_, hi, htype⟩
  rw [without, if_neg, hobj]
  intro hmem
  obtain ⟨d', hd', heq⟩ := List.mem_map.mp hmem
  obtain ⟨j, hj⟩ := List.mem_iff_getElem?.mp hd'
  obtain ⟨obj', hobj', -, htype'⟩ := hord' j d' hj
  rw [heq, hobj] at hobj'
  obtain rfl : obj = obj' := by simpa using hobj'
  rw [htype] at htype'
  cases w <;> cases w' <;> first | exact hw rfl | cases htype'

def SharedState.left (s : SharedState) : SharedState :=
  if s.initCount = 1 then ⟨none, none, s.hostAllocator, 0, false⟩
    else { s with initCount := s.initCount - 1 }

theorem SharedOk.left {s : SharedState} (hs : SharedOk s) (hi : s.initialized = true) :
    SharedOk s.left ∧ JoinedBy s.left s := by
  obtain ⟨hpos, hvm, hpool⟩ := hs.used hi
  rw [SharedState.left]
  split
  case isTrue hone => exact ⟨⟨nofun, fun _ ↦ ⟨rfl, rfl, rfl⟩⟩, hi, hone, hvm, hpool, nofun⟩
  case isFalse hone =>
    refine ⟨⟨fun _ ↦ ⟨?_, hvm, hpool⟩, fun h ↦ ?_⟩, hi, (sub_add_cancel _ _).symm, hvm, hpool,
      fun _ ↦ ⟨rfl, rfl⟩⟩
    · simp only
      omega
    · exact absurd hi (by simp [show s.initialized = false from h])

theorem initializedCount_unset (hi : (w.get g).initialized = true) :
    g.initializedCount = (w.set .empty g).initializedCount + 1 := by
  cases w with
  | cpu =>
    rw [Which.get] at hi
    simp only [Globals.initializedCount, Which.set, Accelerator.empty, hi, Bool.toNat_true,
      Bool.toNat_false]
    omega
  | gpu =>
    rw [Which.get] at hi
    simp only [Globals.initializedCount, Which.set, Accelerator.empty, hi, Bool.toNat_true,
      Bool.toNat_false]
    omega

theorem RuntimeOk.initialized_shared (hok : RuntimeOk g cell) (hi : (w.get g).initialized = true) :
    g.shared.initialized = true := by
  cases hs : g.shared.initialized with
  | true => rfl
  | false =>
    have hzero := (hok.shared.unused hs).1
    rw [hok.initCount, Globals.initializedCount] at hzero
    cases w with
    | cpu =>
      rw [Which.get] at hi
      rw [hi, Bool.toNat_true] at hzero
      omega
    | gpu =>
      rw [Which.get] at hi
      rw [hi, Bool.toNat_true] at hzero
      omega

theorem RuntimeOk.leaves (hok : RuntimeOk g cell) (hi : (w.get g).initialized = true)
    (hR : Rest (w.set .empty g) (without (w.get g).devices cell) (Unchanged g.shared.left) mem) :
    RuntimeOk mem.globals mem.devices.cell := by
  obtain ⟨hleft, hjoined⟩ := hok.shared.left (hok.initialized_shared hi)
  have hget : ∀ w' : Which, w'.get mem.globals = if w' = w then .empty else w'.get g :=
    fun w' ↦ (hR.get w').trans (w.get_set w' _ g)
  refine ⟨hR.shared.sharedOk hleft, ?_, fun w' ↦ ?_, fun w' ↦ ?_, fun w' ↦ ?_⟩
  · have hcount : mem.globals.initializedCount = (w.set .empty g).initializedCount := by
      rw [Globals.initializedCount, Globals.initializedCount, hR.cpu, hR.gpu]
    have hbefore := hok.initCount
    rw [initializedCount_unset hi, hjoined.initCount] at hbefore
    rw [hR.shared.fields.2.1, hcount]
    exact add_right_cancel hbefore
  · rw [hget w']
    split
    · exact ⟨nofun, fun _ ↦ ⟨rfl, rfl, rfl⟩⟩
    · exact hok.accelerator w'
  · rw [hget w', hR.cells]
    split
    case isTrue => exact ordered_nil
    case isFalse hw => exact (hok.ordered w').other hw (hok.ordered w)
  · rw [hget w']
    split
    · exact List.nodup_nil
    · exact hok.nodup w'

theorem RuntimeOk.joined (hok : RuntimeOk g cell) (hi : (w.get g).initialized = false)
    {ds : List DevicePtr} {driver : Obj} {cell' : DeviceCells} (hds : ds ≠ [])
    (ho : OwnedDevices cell ds cell') (hord : Ordered w ds cell')
    (hR : Rest (w.set ⟨ds, ds.length, true, some driver⟩ g) cell' (JoinedBy g.shared) mem) :
    RuntimeOk mem.globals mem.devices.cell := by
  have hget : ∀ w' : Which, w'.get mem.globals = if w' = w then ⟨ds, ds.length, true, some driver⟩
      else w'.get g :=
    fun w' ↦ (hR.get w').trans (w.get_set w' _ g)
  refine ⟨hR.shared.sharedOk hok.shared, ?_, fun w' ↦ ?_, fun w' ↦ ?_, fun w' ↦ ?_⟩
  · rw [hR.shared.initCount, hok.initCount,
      ← initializedCount_set hi (x := ⟨ds, ds.length, true, some driver⟩) rfl,
      Globals.initializedCount, Globals.initializedCount, hR.cpu, hR.gpu]
  · rw [hget w']
    split
    · exact ⟨fun _ ↦ ⟨rfl, rfl, hds⟩, fun h ↦ by cases h⟩
    · exact hok.accelerator w'
  · rw [hget w', hR.cells]
    split
    case isTrue hw => exact hw ▸ hord
    case isFalse => exact (hok.ordered w').beside ho
  · rw [hget w']
    split
    · exact ho.nodup
    · exact hok.nodup w'

theorem account_open (t : Trace) (mem : Memory) :
    Account (allReleased t + holdings mem) (allAcquired t) 0
      (Rest mem.globals mem.devices.cell (Unchanged mem.globals.shared)) t mem := by
  refine ⟨?_, rfl, rfl, rfl, rfl⟩
  simp only [Books, zero_add]
  abel

theorem account_close {t es : Trace} {mem mem' : Memory} {R : Memory → Prop}
    (hA : Account (allReleased t + holdings mem) (allAcquired t) 0 R (t ++ es) mem') :
    allAcquired es + holdings mem = allReleased es + holdings mem' := by
  have hb := hA.1
  simp only [Books, allAcquired_append, allReleased_append, zero_add] at hb
  refine add_left_cancel (a := allAcquired t + allReleased t) ?_
  calc allAcquired t + allReleased t + (allAcquired es + holdings mem)
      = allAcquired t + allAcquired es + (allReleased t + holdings mem) := by abel
    _ = allReleased t + allReleased es + holdings mem' + allAcquired t := hb
    _ = allAcquired t + allReleased t + (allReleased es + holdings mem') := by abel

def Sound (mem : Memory) : Prop := RuntimeOk mem.globals mem.devices.cell

theorem acceleratorInitialize_sound (w : Which) :
    Triple Roomy (fun _ mem ↦ Sound mem) (acceleratorInitialize w) (fun _ _ mem ↦ Sound mem) := by
  intro o t mem ho hok
  have hrun := acceleratorInitialize_account (w := w) hok.shared (hok.accelerator w) o t mem ho
      (account_open t mem)
  revert hrun
  cases ((acceleratorInitialize w).run o t.length mem).val with
  | some e => exact fun hA ↦ hok.of_rest hA.2
  | none =>
    rintro ⟨hi, ds, driver, cell', hds, howned, hord, hA⟩
    exact hok.joined hi hds howned hord hA.2

theorem acceleratorShutdown_sound (w : Which) :
    Triple Roomy (fun _ mem ↦ Sound mem) (acceleratorShutdown w) (fun _ _ mem ↦ Sound mem) := by
  intro o t mem ho hok
  cases hi : (w.get mem.globals).initialized with
  | false =>
    exact hok.of_rest (acceleratorShutdown_unused (p := Roomy) hi o t mem ho (account_open t mem)).2
  | true =>
    obtain ⟨hleft, hjoined⟩ := hok.shared.left (hok.initialized_shared hi)
    obtain ⟨driver, hdriver⟩ := Option.isSome_iff_exists.mp ((hok.accelerator w).used hi).1
    have hopen := account_open t mem
    exact hok.leaves hi (acceleratorShutdown_account (p := Roomy) hleft hi hdriver
      (ownedDevices_without (hok.nodup w) (hok.ordered w)) o t mem ho
      ⟨hopen.1, rfl, rfl, rfl, hjoined⟩).2.2

theorem RuntimeCall.run_sound (k : RuntimeCall) :
    Triple Roomy (fun _ mem ↦ Sound mem) k.run (fun _ _ mem ↦ Sound mem) := by
  cases k with
  | init w => exact (acceleratorInitialize_sound w).bind fun _ ↦ .pure fun _ _ hok ↦ hok
  | shutdown w => exact (acceleratorShutdown_sound w).bind fun _ ↦ .pure fun _ _ hok ↦ hok
  | deviceCount w count =>
    exact fun o t mem ho hok ↦
      hok.of_rest
        (acceleratorDeviceCount_account (p := Roomy) w count o t mem ho (account_open t mem)).2
  | deviceGet w index device =>
    exact fun o t mem ho hok ↦
      hok.of_rest
        (acceleratorDeviceGet_account (p := Roomy) w index device o t mem ho (account_open t mem)).2

theorem initial_sound : Sound Memory.initial where
  shared := ⟨nofun, fun _ ↦ ⟨rfl, rfl, rfl⟩⟩
  initCount := rfl
  accelerator w := by
    cases w <;> exact ⟨nofun, fun _ ↦ ⟨rfl, rfl, rfl⟩⟩
  ordered w := by
    cases w <;> exact ordered_nil
  nodup w := by
    cases w <;> exact List.nodup_nil

theorem runs_sound {mem : Memory} {l : RuntimeLog} (h : RuntimeRuns .initial mem l) :
    Sound mem := by
  refine h.keeps (I := fun mem _ ↦ Sound mem) initial_sound fun mem l k o hok ho ↦ ?_
  exact k.run_sound o (trace l) mem ho hok

end Steps

/-- What the statics of the runtime satisfy between two calls. -/
structure RuntimeInvariant (g : Globals) : Prop where
  shared_used : g.shared.initialized = true ↔ 0 < g.shared.initCount
  shared_built : g.shared.initialized = true ↔ g.shared.vmInstance.isSome ∧
    g.shared.proactorPool.isSome
  initCount : g.shared.initCount = g.initializedCount
  used : ∀ w : Which, (w.get g).initialized = true →
    (w.get g).driver.isSome ∧ (w.get g).deviceCount = (w.get g).devices.length ∧
    1 ≤ (w.get g).deviceCount
  unused : ∀ w : Which, (w.get g).initialized = false →
    (w.get g).devices = [] ∧ (w.get g).deviceCount = 0 ∧ (w.get g).driver = none

theorem Sound.invariant {mem : Memory} (h : Sound mem) : RuntimeInvariant mem.globals := by
  have hshared : ∀ p : Prop, (mem.globals.shared.initialized = true → p) →
      (mem.globals.shared.initialized = false → ¬ p) →
      (mem.globals.shared.initialized = true ↔ p) := by
    intro p hused hunused
    refine ⟨hused, fun hp ↦ ?_⟩
    cases hi : mem.globals.shared.initialized with
    | true => rfl
    | false => exact absurd hp (hunused hi)
  refine ⟨hshared _ (fun hi ↦ (h.shared.used hi).1) fun hi ↦ ?_,
    hshared _ (fun hi ↦ (h.shared.used hi).2) fun hi ↦ ?_,
    h.initCount, fun w hi ↦ ?_, fun w hi ↦ (h.accelerator w).unused hi⟩
  · rw [(h.shared.unused hi).1]
    exact lt_irrefl 0
  · rw [(h.shared.unused hi).2.1]
    simp
  · obtain ⟨hdriver, hcount, hdevices⟩ := (h.accelerator w).used hi
    have hpos := List.length_pos_iff.mpr hdevices
    exact ⟨hdriver, hcount, by omega⟩

section DeviceGet

variable {mem : Memory} (w : Which) (index : ℤ)

theorem run_acceleratorDeviceGet {device : Bool} (hdevice : device = true)
    (hi : (w.get mem.globals).initialized = true)
    (hindex : 0 ≤ index ∧ index < (w.get mem.globals).deviceCount) (o : Outside) (n : ℕ) :
    ((acceleratorDeviceGet w index device).run o n mem).val =
      match (w.get mem.globals).devices[index.toNat]? with
      | none => ⟨none, .panicked⟩
      | some d => ⟨none, .device d⟩ := by
  have hrange : ¬ (index < 0 ∨ (w.get mem.globals).deviceCount ≤ index) := by omega
  simp only [acceleratorDeviceGet, hdevice, hi, hrange, run_bind, run_state, Outcome.after_val,
    Bool.not_true, Bool.false_eq_true, if_false, ge_iff_le, Bool.or_eq_true, decide_eq_true_eq]
  cases (w.get mem.globals).devices[index.toNat]? <;> rfl

theorem run_acceleratorDeviceGet_refused (device : Bool)
    (h : ¬ (device = true ∧ (w.get mem.globals).initialized = true ∧ 0 ≤ index ∧
      index < (w.get mem.globals).deviceCount)) (o : Outside) (n : ℕ) :
    ((acceleratorDeviceGet w index device).run o n mem).val.written = .nothing := by
  rw [acceleratorDeviceGet]
  split
  · rfl
  case isFalse hdevice =>
    rw [run_bind, run_state]
    simp only [Outcome.after_val]
    split
    · rfl
    case isFalse hi =>
      split
      · rfl
      case isFalse hindex =>
        simp only [Bool.not_eq_true', Bool.not_eq_false, Bool.or_eq_true, decide_eq_true_eq, not_or,
          not_lt, ge_iff_le, not_le] at hdevice hi hindex
        exact absurd ⟨hdevice, hi, hindex⟩ h

end DeviceGet

/-- Whatever was called before and whatever failed, the statics of the runtime are in order, and a
query of a device finds the one with that ordinal. -/
theorem runtime_in_order {mem : Memory} {l : RuntimeLog} (h : RuntimeRuns .initial mem l) :
    RuntimeInvariant mem.globals ∧ ∀ (w : Which) (index : ℤ) (device : Bool) (o : Outside) (n : ℕ),
      ((acceleratorDeviceGet w index device).run o n mem).val.written ≠ .panicked ∧
        (device = true → (w.get mem.globals).initialized = true → 0 ≤ index →
          index < (w.get mem.globals).deviceCount →
            ∃ d obj, ((acceleratorDeviceGet w index device).run o n mem).val = ⟨none, .device d⟩ ∧
              (w.get mem.globals).devices[index.toNat]? = some d ∧
              mem.devices.cell d.addr = some ⟨1, obj⟩ ∧
              obj.type = w.type ∧ (obj.ordinal : ℤ) = index) := by
  have hsound := runs_sound h
  have hget : ∀ (w : Which) (index : ℤ) (device : Bool) (o : Outside) (n : ℕ), device = true →
      (w.get mem.globals).initialized = true → 0 ≤ index → index < (w.get mem.globals).deviceCount →
        ∃ d obj, ((acceleratorDeviceGet w index device).run o n mem).val = ⟨none, .device d⟩ ∧
          (w.get mem.globals).devices[index.toNat]? = some d ∧
          mem.devices.cell d.addr = some ⟨1, obj⟩ ∧
          obj.type = w.type ∧ (obj.ordinal : ℤ) = index := by
    intro w index device o n hdevice hi hnonneg hlt
    obtain ⟨-, hcount, -⟩ := hsound.invariant.used w hi
    have hd :=
      List.getElem?_eq_getElem (l := (w.get mem.globals).devices) (i := index.toNat) (by omega)
    obtain ⟨obj, hobj, hord, htype⟩ := hsound.ordered w _ _ hd
    refine ⟨_, obj, ?_, hd, hobj, htype, by omega⟩
    rw [run_acceleratorDeviceGet w index hdevice hi ⟨hnonneg, hlt⟩ o n, hd]
  refine ⟨hsound.invariant, fun w index device o n ↦ ⟨?_, hget w index device o n⟩⟩
  by_cases hall : device = true ∧ (w.get mem.globals).initialized = true ∧ 0 ≤ index ∧
      index < (w.get mem.globals).deviceCount
  · obtain ⟨hdevice, hi, hnonneg, hlt⟩ := hall
    obtain ⟨d, obj, hval, -⟩ := hget w index device o n hdevice hi hnonneg hlt
    rw [hval]
    nofun
  · rw [run_acceleratorDeviceGet_refused w index device hall o n]
    nofun

/-- The driver reports the logical device and two physical ones; the second cannot be opened. -/
def secondGpuFails : Outside := fun _ c ↦
  match c with
  | .driverQueryAvailableDevices _ => { infos := [⟨[], []⟩, ⟨[1], [65]⟩, ⟨[2], [66]⟩] }
  | .driverCreateDeviceByOrdinal _ 2 _ => { status := some ⟨14, none⟩ }
  | _ => {}

def twoGpus : Outside := fun _ c ↦
  match c with
  | .driverQueryAvailableDevices _ => { infos := [⟨[], []⟩, ⟨[1], [65]⟩, ⟨[2], [66]⟩] }
  | _ => {}

def nested : List (RuntimeCall × Outside) :=
  [(.init .cpu, twoGpus), (.init .gpu, secondGpuFails), (.init .gpu, twoGpus),
    (.shutdown .cpu, twoGpus)]

theorem runtime_in_order_nested :
    RuntimeInvariant (play RuntimeCall.run .initial [] nested).1.globals ∧
      (play RuntimeCall.run .initial [] nested).1.globals.gpu.deviceCount = 2 := by
  refine ⟨(runtime_in_order (Runs.play .start nested ?_)).1, by decide⟩
  exact ⟨fun _ ↦ rfl, fun _ ↦ rfl, fun _ ↦ rfl, fun _ ↦ rfl, trivial⟩

def Globals.kept (g : Globals) : SharedState × Accelerator × Accelerator :=
  (g.shared.core, g.cpu, g.gpu)

/-- The statics and the devices are as before, and each reference taken since was given back
once. -/
structure Undone (mem mem' : Memory) (es : Trace) : Prop where
  globals : mem'.globals.kept = mem.globals.kept
  devices : mem'.devices.cell = mem.devices.cell
  released : allAcquired es = allReleased es

theorem Rest.kept {g : Globals} {cell : DeviceCells} {mem : Memory}
    (h : Rest g cell (Unchanged g.shared) mem) :
    mem.globals.kept = g.kept := by
  rw [Globals.kept, h.shared, h.cpu, h.gpu, Globals.kept]

theorem holdings_congr {mem mem' : Memory} (hg : mem'.globals.kept = mem.globals.kept)
    (hcell : mem'.devices.cell = mem.devices.cell) : holdings mem' = holdings mem := by
  obtain ⟨hshared, hrest⟩ := Prod.mk.inj hg
  obtain ⟨hcpu, hgpu⟩ := Prod.mk.inj hrest
  obtain ⟨-, -, hvm, hpool⟩ := Unchanged.fields hshared
  rw [holdings, SharedState.parts, hvm, hpool, hcpu, hgpu, Heap.total_congr _ hcell, holdings,
    SharedState.parts]

theorem undone_of_account {t es : Trace} {mem mem' : Memory}
    (hA : Account (allReleased t + holdings mem) (allAcquired t) 0
      (Rest mem.globals mem.devices.cell (Unchanged mem.globals.shared)) (t ++ es) mem') :
      Undone mem mem' es := by
  have hclose := account_close hA
  rw [holdings_congr hA.2.kept hA.2.cells] at hclose
  exact ⟨hA.2.kept, hA.2.cells, add_right_cancel hclose⟩

def RuntimeCall.isQuery : RuntimeCall → Bool
  | .deviceCount .. | .deviceGet .. => true
  | .init _ | .shutdown _ => false

def runCalls : List RuntimeCall → Hrx Memory Unit
  | [] => return ()
  | k :: ks => do
    let _ ← k.run
    runCalls ks

section Undo

variable {a b h : Multiset Res} {w : Which} {g : Globals} {cell : DeviceCells}
  {calls : List RuntimeCall}

theorem runCalls_account {R : Memory → Prop} {p : Outside → Prop}
    (hq : ∀ k ∈ calls, k.isQuery = true) :
    Triple p (Account a b h R) (runCalls calls) (fun _ ↦ Account a b h R) := by
  induction calls with
  | nil => exact .pure fun _ _ hA ↦ hA
  | cons k ks ih =>
    refine .bind (Q := fun _ ↦ Account a b h R) ?_ fun _ ↦ ih fun k' hk' ↦
      hq k' (List.mem_cons_of_mem _ hk')
    have hk := hq k (List.mem_cons_self ..)
    cases k with
    | init w => cases hk
    | shutdown w => cases hk
    | deviceCount w count => exact acceleratorDeviceCount_account w count
    | deviceGet w index device => exact acceleratorDeviceGet_account w index device

theorem Which.set_set (w : Which) (x y : Accelerator) (g : Globals) :
    w.set x (w.set y g) = w.set x g := by
  cases w <;> rfl

theorem Which.set_get (w : Which) (g : Globals) : w.set (w.get g) g = g := by
  cases w <;> rfl

theorem shutdown_account (hs : SharedOk g.shared) (hx : AcceleratorOk (w.get g))
    {ds : List DevicePtr} {driver : Obj} {cell' : DeviceCells} (hi : (w.get g).initialized = false)
    (ho : OwnedDevices cell ds cell') {p : Outside → Prop} :
    Triple p
      (Account a b h (Rest (w.set ⟨ds, ds.length, true, some driver⟩ g) cell' (JoinedBy g.shared)))
      (acceleratorShutdown w)
      (fun s t mem ↦ s = none ∧ Account a b h (Rest g cell (Unchanged g.shared)) t mem) := by
  have hget :
      w.get (w.set ⟨ds, ds.length, true, some driver⟩ g) = ⟨ds, ds.length, true, some driver⟩ := by
    rw [Which.get_set, if_pos rfl]
  have hback : w.set .empty (w.set ⟨ds, ds.length, true, some driver⟩ g) = g := by
    rw [Which.set_set, ← hx.eq_empty hi, Which.set_get]
  have howned :
      OwnedDevices cell (w.get (w.set ⟨ds, ds.length, true, some driver⟩ g)).devices cell' := by
    rw [hget]
    exact ho
  have hdown :=
    acceleratorShutdown_account (p := p) (a := a) (b := b) (h := h) (d := driver) hs (by rw [hget])
    (by rw [hget]) howned
  rwa [hback] at hdown

end Undo

/-- An initialization that fails leaves the runtime as it was and keeps nothing; one that succeeds
is undone in the same way by the matching shutdown. -/
theorem initialize_undone {mem₀ mem : Memory} {l : RuntimeLog} (h : RuntimeRuns .initial mem₀ l)
    (hg : mem.globals = mem₀.globals) (w : Which) {o : Outside} (ho : Roomy o) (n : ℕ) :
    (((acceleratorInitialize w).run o n mem).val ≠ none →
        Undone mem ((acceleratorInitialize w).run o n mem).state
          ((acceleratorInitialize w).run o n mem).events) ∧
      ∀ (calls : List RuntimeCall) (r : Outcome Call Answer Memory (HrxStatus × HrxStatus)),
        (∀ k ∈ calls, k.isQuery = true) →
        (do
          let s ← acceleratorInitialize w
          runCalls calls
          return (s, ← acceleratorShutdown w) :
          Hrx Memory (HrxStatus × HrxStatus)).run o n mem = r →
        r.val.1 = none → r.val.2 = none ∧ Undone mem r.state r.events := by
  have hsound := runs_sound h
  have hs : SharedOk mem.globals.shared := hg ▸ hsound.shared
  have hx : AcceleratorOk (w.get mem.globals) := hg ▸ hsound.accelerator w
  obtain ⟨t, rfl⟩ : ∃ t : Trace, t.length = n :=
    ⟨List.replicate n ⟨0, .vmInstanceCreate, {}⟩, by simp⟩
  have hinit : Triple Roomy (Account (allReleased t + holdings mem) (allAcquired t) 0
      (Rest mem.globals mem.devices.cell (Unchanged mem.globals.shared))) (acceleratorInitialize w)
      (initialized (allReleased t + holdings mem)
        (allAcquired t) 0 w mem.globals mem.devices.cell) :=
    acceleratorInitialize_account hs hx
  refine ⟨fun hval ↦ ?_, fun calls r hq hr ↦ ?_⟩
  · have hrun := hinit o t mem ho (account_open t mem)
    obtain ⟨e, he⟩ := Option.ne_none_iff_exists'.mp hval
    rw [he] at hrun
    exact undone_of_account hrun
  · subst hr
    have hlife : Triple Roomy (Account (allReleased t + holdings mem) (allAcquired t) 0
          (Rest mem.globals mem.devices.cell (Unchanged mem.globals.shared)))
        (do
          let s ← acceleratorInitialize w
          runCalls calls
          return (s, ← acceleratorShutdown w))
        (fun r t' mem' ↦ r.1 = none → r.2 = none ∧
          Account (allReleased t + holdings mem) (allAcquired t) 0
          (Rest mem.globals mem.devices.cell (Unchanged mem.globals.shared)) t' mem') := by
      refine hinit.bind fun s ↦ ?_
      cases s with
      | some e =>
        refine .bind (Q := fun _ _ _ ↦ True) (fun _ _ _ _ _ ↦ trivial) fun _ ↦
          .bind (Q := fun _ _ _ ↦ True) (fun _ _ _ _ _ ↦ trivial) fun _ ↦ .pure fun _ _ _ hnone ↦ ?_
        cases hnone
      | none =>
        refine .assume fun hi ↦ .of_exists fun ds ↦ .of_exists fun driver ↦ .of_exists fun cell' ↦
          .assume fun _ ↦ .assume fun howned ↦ .assume fun _ ↦ ?_
        refine (runCalls_account hq).bind fun _ ↦ (shutdown_account hs hx hi howned).bind fun _ ↦ ?_
        exact .pure fun _ _ hA _ ↦ hA
    intro hval
    obtain ⟨hnone, hA⟩ := hlife o t mem ho (account_open t mem) hval
    exact ⟨hnone, undone_of_account hA⟩

theorem initialize_undone_secondGpu :
    ((acceleratorInitialize .gpu).run secondGpuFails 0 Memory.initial).val ≠ none ∧
      Undone Memory.initial ((acceleratorInitialize .gpu).run secondGpuFails 0 Memory.initial).state
        ((acceleratorInitialize .gpu).run secondGpuFails 0 Memory.initial).events := by
  have hfails : ((acceleratorInitialize .gpu).run secondGpuFails 0 Memory.initial).val ≠ none := by
    decide
  exact ⟨hfails, (initialize_undone .start rfl .gpu (fun _ ↦ rfl) 0).1 hfails⟩

end HrxSystem.Libhrx
