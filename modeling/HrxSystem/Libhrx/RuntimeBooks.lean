import HrxSystem.Libhrx.Accounts
import HrxSystem.Libhrx.Runtime

namespace HrxSystem.Libhrx

open External Program Counting

def HrxDeviceS.parts (d : HrxDeviceS) : Multiset Res :=
  {.allocator d.halAllocator, .group d.halDeviceGroup, .halDevice d.halDevice}

def SharedState.parts (s : SharedState) : Multiset Res :=
  s.vmInstance.elim 0 (fun p ↦ {.vmInstance p}) + s.proactorPool.elim 0 (fun p ↦ {.proactorPool p})

def Accelerator.parts (x : Accelerator) : Multiset Res := x.driver.elim 0 fun p ↦ {.driver p}

def holdings (mem : Memory) : Multiset Res :=
  mem.globals.shared.parts + mem.globals.cpu.parts + mem.globals.gpu.parts + mem.devices.total
    HrxDeviceS.parts

/-- What was acquired is released, in hand, or held by the runtime. The account is opened with
`a` acquired and `b` released before. -/
def Books (a b inHand : Multiset Res) (t : Trace) (mem : Memory) : Prop :=
  allAcquired t + a = allReleased t + (inHand + holdings mem) + b

def Account (a b inHand : Multiset Res) (R : Memory → Prop) (t : Trace) (mem : Memory) : Prop :=
  Books a b inHand t mem ∧ R mem

section Account

variable {a b h : Multiset Res} {R : Memory → Prop} {p : Outside → Prop} {c : Call} {α : Type}

theorem account_confined {m : Hrx Memory α} (hm : Aside (fun c ↦ idle c = true) m) :
    Triple p (Account a b h R) m (fun _ ↦ Account a b h R) :=
  booked_confined (W := holdings) (R := .of R) hm

theorem account_idle (hc : idle c = true) :
    Triple p (Account a b h R) (call c) (fun _ ↦ Account a b h R) :=
  account_confined (.call hc)

theorem account_fromError {s : IreeStatus} (hs : s.isSome) :
    Triple Roomy (Account a b h R) (hrxStatusFromIree s)
      (fun s t mem ↦ s.isSome ∧ Account a b h R t mem) :=
  (booked_fromError (W := holdings) (R := .of R) hs).mono (fun _ _ hA ↦ hA) fun _ _ _ hA ↦
    ⟨hA.1 fun _ ho ↦ ho, hA.2⟩

theorem account_failed {e : Happened} (he : Libhrx.ok e = false) :
    Triple Roomy (Account a b h R) (hrxStatusFromIree e.answer.status)
      (fun s t mem ↦ s.isSome ∧ Account a b h R t mem) :=
  account_fromError (by simpa [Libhrx.ok] using he)

theorem account_error {code : HrxStatusCode} (hc : code ≠ .ok) (message : String) :
    Triple Roomy (Account a b h R) (hrxError code message)
      (fun s t mem ↦ s.isSome ∧ Account a b h R t mem) :=
  (booked_error (W := holdings) (R := .of R) hc message).mono (fun _ _ hA ↦ hA)
    fun _ _ _ hA ↦ ⟨hA.1 fun _ ho ↦ ho, hA.2⟩

theorem account_try {r : Happened → Multiset Res} {m m' : Happened → Hrx Memory α}
    {Q : α → Trace → Memory → Prop}
    (hacq : ∀ e : Happened, e.call = c → acquired e = if Libhrx.ok e then r e else 0)
    (hrel : ∀ e : Happened, e.call = c → released e = 0)
    (hfail : ∀ e, Libhrx.ok e = false → Triple p (Account a b h R) (m e) Q)
    (hok : ∀ e, Libhrx.ok e = true → Triple p (Account a b (r e + h) R) (m' e) Q) :
    Triple p (Account a b h R) (call c >>= fun e ↦ if (!Libhrx.ok e) = true then m e else m' e) Q :=
  booked_try (W := holdings) (R := .of R) hacq hrel hfail hok

/-- A call that hands over `r` whatever it answers. -/
theorem account_take {r : Happened → Multiset Res}
    (hacq : ∀ e : Happened, e.call = c → acquired e = r e)
    (hrel : ∀ e : Happened, e.call = c → released e = 0) :
    Triple p (Account a b h R) (call c) (fun e ↦ Account a b (r e + h) R) :=
  booked_take (W := holdings) (R := .of R) hacq hrel

theorem account_release {r : Res} (hrel : ∀ e : Happened, e.call = c → released e = {r}) :
    Triple p (Account a b ({r} + h) R) (call c) (fun _ ↦ Account a b h R) :=
  booked_give (W := holdings) (R := .of R) hrel

/-- A reference that the memory still names is released. -/
theorem account_ahead {r : Multiset Res} (hrel : ∀ e : Happened, e.call = c → released e = r)
    (hacq : ∀ e : Happened, e.call = c → acquired e = 0) :
    Triple p (Account a b h R) (call c) (fun _ ↦ Account (r + a) b h R) :=
  booked_ahead (W := holdings) (R := .of R) hrel hacq

theorem account_settle {r h' : Multiset Res} {R' : Memory → Prop} {f : Memory → Memory}
    (hf : ∀ mem, R mem → R' (f mem) ∧ h + holdings mem = r + (h' + holdings (f mem))) :
    Triple p (Account (r + a) b h R) (update f) (fun _ ↦ Account a b h' R') :=
  booked_settle (W := holdings) (R := .of R) (S := .of R') fun _ ↦ hf

theorem account_update {h' : Multiset Res} {R' : Memory → Prop} {f : Memory → Memory}
    (hf : ∀ mem, R mem → R' (f mem) ∧ h + holdings mem = h' + holdings (f mem)) :
    Triple p (Account a b h R) (update f) (fun _ ↦ Account a b h' R') :=
  booked_update (W := holdings) (R := .of R) (S := .of R') fun _ ↦ hf

theorem account_state :
    Triple p (Account a b h R) state (fun mem ↦ Account a b h fun s ↦ s = mem ∧ R s) :=
  booked_state (W := holdings) (R := .of R)

theorem account_mono {h' : Multiset Res} {R' : Memory → Prop} {m : Hrx Memory α}
    {Q : α → Trace → Memory → Prop} (hm : Triple p (Account a b h' R') m Q) (hh : h = h')
    (hR : ∀ mem, R mem → R' mem) :
    Triple p (Account a b h R) m Q :=
  booked_mono (W := holdings) (R := .of R) (S := .of R') hm hh fun _ ↦ hR

theorem account_read {mem : Memory} {m : Hrx Memory α} {Q : α → Trace → Memory → Prop}
    (hm : R mem → Triple p (Account a b h fun s ↦ s = mem ∧ R s) m Q) :
    Triple p (Account a b h fun s ↦ s = mem ∧ R s) m Q :=
  booked_read (W := holdings) (R := .of R) fun ⟨_, hR⟩ ↦ hm hR

theorem account_known {mem : Memory} {m : Hrx Memory α} {Q : α → Trace → Memory → Prop}
    (hm : R mem → Triple p (Account a b h R) m Q) :
    Triple p (Account a b h fun s ↦ s = mem ∧ R s) m Q :=
  account_read fun hR ↦ account_mono (hm hR) rfl fun _ h ↦ h.2

end Account

abbrev DeviceCells := ℕ → Option (Arc HrxDeviceS)

/-- The accelerators are those of `g`, the devices are in `cell`, and the shared state satisfies
`P`. -/
structure Rest (g : Globals) (cell : DeviceCells) (P : SharedState → Prop) (mem : Memory) :
    Prop where
  cpu : mem.globals.cpu = g.cpu
  gpu : mem.globals.gpu = g.gpu
  cells : mem.devices.cell = cell
  shared : P mem.globals.shared

/-- The shared state without the host allocator, which is set once and stays. -/
def SharedState.core (s : SharedState) : SharedState := { s with hostAllocator := .null }

def Unchanged (s₀ s : SharedState) : Prop := s.core = s₀.core

theorem Unchanged.fields {s₀ s : SharedState} (h : Unchanged s₀ s) :
    s.initialized = s₀.initialized ∧ s.initCount = s₀.initCount ∧ s.vmInstance = s₀.vmInstance ∧
      s.proactorPool = s₀.proactorPool := by
  have hcore := SharedState.mk.inj h
  exact ⟨hcore.2.2.2.2, hcore.2.2.2.1, hcore.1, hcore.2.1⟩

structure JoinedBy (s₀ s : SharedState) : Prop where
  initialized : s.initialized = true
  initCount : s.initCount = s₀.initCount + 1
  vmInstance : s.vmInstance.isSome
  proactorPool : s.proactorPool.isSome
  same : s₀.initialized = true → s.vmInstance = s₀.vmInstance ∧ s.proactorPool = s₀.proactorPool

/-- The shared infrastructure exists exactly while it has users. -/
structure SharedOk (s : SharedState) : Prop where
  used : s.initialized = true → 0 < s.initCount ∧ s.vmInstance.isSome ∧ s.proactorPool.isSome
  unused : s.initialized = false → s.initCount = 0 ∧ s.vmInstance = none ∧ s.proactorPool = none

section Shared

variable {a b h : Multiset Res} {g : Globals} {cell : DeviceCells} {P P' : SharedState → Prop}
  {p : Outside → Prop}

theorem account_shared {h' : Multiset Res} {f : SharedState → SharedState}
    (hf : ∀ s, P s → P' (f s) ∧ h + s.parts = h' + (f s).parts) :
    Triple p (Account a b h (Rest g cell P)) (update (withShared f))
      (fun _ ↦ Account a b h' (Rest g cell P')) := by
  refine account_update fun mem hR ↦ ?_
  obtain ⟨hP, hh⟩ := hf _ hR.shared
  refine ⟨⟨hR.cpu, hR.gpu, hR.cells, hP⟩, ?_⟩
  simp only [holdings, withShared]
  rw [add_assoc, add_assoc, ← add_assoc h, hh]
  abel

theorem account_unshare {r h' : Multiset Res} {f : SharedState → SharedState}
    (hf : ∀ s, P s → P' (f s) ∧ h + s.parts = r + (h' + (f s).parts)) :
    Triple p (Account (r + a) b h (Rest g cell P)) (update (withShared f))
      (fun _ ↦ Account a b h' (Rest g cell P')) := by
  refine account_settle fun mem hR ↦ ?_
  obtain ⟨hP, hh⟩ := hf _ hR.shared
  refine ⟨⟨hR.cpu, hR.gpu, hR.cells, hP⟩, ?_⟩
  simp only [holdings, withShared]
  rw [add_assoc, add_assoc, ← add_assoc h, hh]
  abel

def ensured (s₀ : SharedState) (status : HrxStatus) : SharedState → Prop :=
  if status.isSome then Unchanged s₀ else JoinedBy s₀

theorem account_leave {e : Happened} (he : Libhrx.ok e = false) :
    Triple Roomy (Account a b h (Rest g cell (Unchanged g.shared)))
      (hrxStatusFromIree e.answer.status)
      (fun s ↦ Account a b h (Rest g cell (ensured g.shared s))) := by
  refine (account_failed he).mono (fun _ _ hA ↦ hA) ?_
  rintro s t mem ⟨hs, hA⟩
  simpa only [ensured, hs, if_true] using hA

/-- The shared state while `ensure_shared_state` builds it. -/
structure Building (vm pool : Option Obj) (s : SharedState) : Prop where
  initialized : s.initialized = false
  initCount : s.initCount = 0
  vmInstance : s.vmInstance = vm
  proactorPool : s.proactorPool = pool

theorem ensureSharedState_account (hs : SharedOk g.shared) :
    Triple Roomy (Account a b h (Rest g cell (Unchanged g.shared))) ensureSharedState
      (fun s ↦ Account a b h (Rest g cell (ensured g.shared s))) := by
  refine account_state.bind fun mem ↦ account_known fun hmem ↦ .ite (fun hi ↦ ?_) fun hi ↦ ?_
  · rw [hmem.shared.fields.1] at hi
    obtain ⟨-, hvm, hpool⟩ := hs.used hi
    refine .bind (Q := fun _ ↦ Account a b h (Rest g cell (JoinedBy g.shared)))
      (account_shared fun s hP ↦ ⟨?_, rfl⟩)
      fun _ ↦ .pure fun _ _ hA ↦ hA
    obtain ⟨hinit, hcount, hvm', hpool'⟩ := hP.fields
    exact ⟨hinit.trans hi, congrArg (· + 1) hcount, hvm'.symm ▸ hvm, hpool'.symm ▸ hpool,
      fun _ ↦ ⟨hvm', hpool'⟩⟩
  rw [hmem.shared.fields.1, Bool.not_eq_true] at hi
  obtain ⟨hcount, hvm, hpool⟩ := hs.unused hi
  have hback : ∀ s, Building none none s → Unchanged g.shared s := by
    intro s hb
    obtain ⟨hi', hcount', hvm', hpool'⟩ := hb
    simp only [Unchanged, SharedState.core, hi, hcount, hvm, hpool, hi', hcount', hvm', hpool']
  have hleave : ∀ e : Happened, Libhrx.ok e = false →
      Triple Roomy (Account a b h (Rest g cell (Building none none)))
        (hrxStatusFromIree e.answer.status)
      (fun s ↦ Account a b h (Rest g cell (ensured g.shared s))) := fun e he ↦
    account_mono (account_leave he) rfl fun mem hR ↦ ⟨hR.cpu, hR.gpu, hR.cells, hback _ hR.shared⟩
  refine .bind (Q := fun _ ↦ Account a b h (Rest g cell (Building none none)))
    (account_shared fun s hP ↦ ⟨?_, rfl⟩)
    fun _ ↦ ?_
  · obtain ⟨hinit, hcount', hvm', hpool'⟩ := hP.fields
    exact ⟨hinit.trans hi, hcount'.trans hcount, hvm'.trans hvm, hpool'.trans hpool⟩
  refine account_try (r := fun e ↦ {.vmInstance e.pos}) (fun e he ↦ by simp only [acquired, he])
    (fun e he ↦ by simp only [released, he]) hleave fun inst _ ↦ ?_
  have hrelease : ∀ P, Triple Roomy (Account a b ({.vmInstance inst.pos} + h) (Rest g cell P))
      (call (.vmInstanceRelease inst.pos)) (fun _ ↦ Account a b h (Rest g cell P)) := fun P ↦
    account_release fun e he ↦ by simp only [released, he]
  refine account_try (r := fun _ ↦ 0) (fun e he ↦ by simp [acquired, he])
    (fun e he ↦ by simp only [released, he])
    (fun e he ↦ (hrelease _).bind fun _ ↦ hleave e he) fun _ _ ↦ ?_
  refine .bind (Q := fun _ ↦ Account a b h (Rest g cell (Building (some inst.pos) none)))
    (account_shared ?_) fun _ ↦ ?_
  · intro s hb
    refine ⟨⟨hb.initialized, hb.initCount, rfl, hb.proactorPool⟩, ?_⟩
    simp only [SharedState.parts, hb.vmInstance, hb.proactorPool, Option.elim_none,
      Option.elim_some, add_zero]
    abel
  refine account_try (r := fun e ↦ {.proactorPool e.pos}) (fun e he ↦ by simp only [acquired, he])
    (fun e he ↦ by simp only [released, he]) (fun e he ↦ ?_) fun pool _ ↦ ?_
  · refine (account_ahead (r := {.vmInstance inst.pos}) (fun e he ↦ by simp only [released, he])
      fun e he ↦ by simp only [acquired, he]).bind fun _ ↦ ?_
    refine .bind (Q := fun _ ↦ Account a b h (Rest g cell (Building none none)))
      (account_unshare ?_)
      fun _ ↦ hleave e he
    intro s hb
    refine ⟨⟨hb.initialized, hb.initCount, rfl, hb.proactorPool⟩, ?_⟩
    simp only [SharedState.parts, hb.vmInstance, hb.proactorPool, Option.elim_none,
      Option.elim_some, add_zero]
    abel
  · refine .bind
      (Q := fun _ ↦ Account a b h (Rest g cell (Building (some inst.pos) (some pool.pos))))
      (account_shared ?_) fun _ ↦ ?_
    · intro s hb
      refine ⟨⟨hb.initialized, hb.initCount, hb.vmInstance, rfl⟩, ?_⟩
      simp only [SharedState.parts, hb.vmInstance, hb.proactorPool, Option.elim_none,
        Option.elim_some, add_zero]
      abel
    · refine .bind (Q := fun _ ↦ Account a b h (Rest g cell (JoinedBy g.shared)))
        (account_shared ?_)
        fun _ ↦ .pure fun _ _ hA ↦ hA
      intro s hb
      refine ⟨⟨rfl, by simp [hcount], by simp [hb.vmInstance], by simp [hb.proactorPool], ?_⟩, rfl⟩
      simp [hi]

structure Leaving (vm pool : Option Obj) (s : SharedState) : Prop where
  initialized : s.initialized = true
  initCount : s.initCount = 0
  vmInstance : s.vmInstance = vm
  proactorPool : s.proactorPool = pool

theorem releaseProactorPool_account (vm pool : Option Obj) :
    Triple p (Account a b h (Rest g cell (Leaving vm pool))) (releaseProactorPool pool)
      (fun _ ↦ Account a b h (Rest g cell (Leaving vm none))) := by
  cases pool with
  | none => exact .pure fun _ _ hA ↦ hA
  | some p =>
    refine (account_ahead (r := {.proactorPool p}) (fun e he ↦ by simp only [released, he])
      fun e he ↦ by simp only [acquired, he]).bind fun _ ↦ account_unshare fun s hl ↦ ?_
    refine ⟨⟨hl.initialized, hl.initCount, hl.vmInstance, rfl⟩, ?_⟩
    simp only [SharedState.parts, hl.vmInstance, hl.proactorPool, Option.elim_none,
      Option.elim_some, add_zero]
    abel

theorem releaseVmInstance_account (vm : Option Obj) :
    Triple p (Account a b h (Rest g cell (Leaving vm none))) (releaseVmInstance vm)
      (fun _ ↦ Account a b h (Rest g cell (Leaving none none))) := by
  cases vm with
  | none => exact .pure fun _ _ hA ↦ hA
  | some p =>
    refine (account_ahead (r := {.vmInstance p}) (fun e he ↦ by simp only [released, he])
      fun e he ↦ by simp only [acquired, he]).bind fun _ ↦ account_unshare fun s hl ↦ ?_
    refine ⟨⟨hl.initialized, hl.initCount, rfl, hl.proactorPool⟩, ?_⟩
    simp only [SharedState.parts, hl.vmInstance, hl.proactorPool, Option.elim_none,
      Option.elim_some, add_zero]
    abel

theorem releaseSharedState_account (hs : SharedOk g.shared) :
    Triple p (Account a b h (Rest g cell (JoinedBy g.shared))) releaseSharedState
      (fun _ ↦ Account a b h (Rest g cell (Unchanged g.shared))) := by
  refine account_state.bind fun mem ↦ account_read fun hmem ↦ .ite (fun hi ↦ ?_) fun _ ↦ ?_
  · simp [hmem.shared.initialized] at hi
  have hjoined : ∀ s, s = mem ∧ Rest g cell (JoinedBy g.shared) s →
      Rest g cell (fun s ↦ s = mem.globals.shared ∧ JoinedBy g.shared s) s := by
    rintro s ⟨rfl, hR⟩
    exact ⟨hR.cpu, hR.gpu, hR.cells, rfl, hR.shared⟩
  refine account_mono (h := h) ?_ rfl hjoined
  cases hi : g.shared.initialized with
  | true =>
    refine .bind (Q := fun _ ↦ Account a b h (Rest g cell (Unchanged g.shared)))
      (account_shared fun s hj ↦ ⟨?_, rfl⟩)
      fun _ ↦ .ite (fun _ ↦ .pure fun _ _ hA ↦ hA) fun hcount ↦ ?_
    · obtain ⟨-, hinit, hcount, -, -, hsame⟩ := hj
      obtain ⟨hvm, hpool⟩ := hsame hi
      simp only [Unchanged, SharedState.core, hinit, hcount, hvm, hpool, hi, add_sub_cancel_right]
    · obtain ⟨hpos, -⟩ := hs.used hi
      rw [hmem.shared.initCount] at hcount
      omega
  | false =>
    obtain ⟨hzero, hvm, hpool⟩ := hs.unused hi
    refine .bind (Q := fun _ ↦ Account a b h (Rest g cell
      (Leaving mem.globals.shared.vmInstance mem.globals.shared.proactorPool))) ?_ fun _ ↦
      .ite (fun hcount ↦ ?_) fun _ ↦ ?_
    · refine account_shared ?_
      rintro s ⟨rfl, hj⟩
      exact ⟨⟨hj.initialized, by simp [hj.initCount, hzero], rfl, rfl⟩, rfl⟩
    · rw [hmem.shared.initCount] at hcount
      omega
    · refine (releaseProactorPool_account _ _).bind fun _ ↦
        (releaseVmInstance_account _).bind fun _ ↦ ?_
      refine account_shared fun s hl ↦ ⟨?_, rfl⟩
      simp only [Unchanged, SharedState.core, hi, hzero, hvm, hpool, hl.initCount, hl.vmInstance,
        hl.proactorPool]

end Shared

end HrxSystem.Libhrx
