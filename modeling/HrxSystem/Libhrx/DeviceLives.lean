import HrxSystem.Libhrx.ApiRuns

namespace HrxSystem.Libhrx

open External Program Counting

/-- Who holds device `d`: its accelerator, the caller, and the live objects made on it. -/
def Caller.holders (c : Caller) (d : DevicePtr) : ℕ :=
  (if d ∈ c.mem.globals.cpu.devices ∨ d ∈ c.mem.globals.gpu.devices then 1 else 0) +
    c.held.count (.ref (.device d)) + c.held.count (.allocator d) +
    c.mem.buffers.count (fun b ↦ b.device = d) + c.mem.semaphores.count (fun s ↦ s.device = d) +
    c.mem.streams.count (fun st ↦ st.device = d) + c.mem.executables.count (fun x ↦ x.device = d) +
    c.mem.modules.count (fun m ↦ m.device = d)

section Counts

variable {c : Caller} {d : DevicePtr}

theorem count_outOf_device (held : Multiset Hold) (d : DevicePtr) :
    (outOf held).count (.device d) = held.count (.ref (.device d)) + held.count (.allocator d) := by
  induction held using Multiset.induction_on with
  | empty => rfl
  | cons x held ih =>
    rw [← Multiset.singleton_add, outOf_add, outOf_single, Multiset.count_add, Multiset.count_add,
      Multiset.count_add, ih]
    have hx : Multiset.count (Ref.device d) {x.toRef} =
        Multiset.count (Hold.ref (.device d)) {x} + Multiset.count (Hold.allocator d) {x} := by
      cases x with
      | ref r => simp [Hold.toRef, Multiset.count_singleton]
      | allocator d' => simp [Hold.toRef, Multiset.count_singleton]
    rw [hx]
    omega

theorem count_refsOf {ds : List DevicePtr} (hds : ds.Nodup) (d : DevicePtr) :
    (refsOf ds).count (.device d) = if d ∈ ds then 1 else 0 := by
  rw [refsOf, Multiset.coe_count, List.count_map_of_injective _ _ fun _ _ hxy ↦ Ref.device.inj hxy]
  exact List.Nodup.count hds

theorem count_device (hnodup : (c.mem.globals.cpu.devices ++ c.mem.globals.gpu.devices).Nodup)
    (d : DevicePtr) :
    (refsIn c.mem + outOf c.held).count (.device d) = c.holders d := by
  have hsemaphores :=
    Heap.count_total (f := HrxSemaphoreS.refs) (p := fun s ↦ s.device = d) (r := .device d)
    (fun x ↦ by simp [HrxSemaphoreS.refs, Multiset.count_singleton, eq_comm]) c.mem.semaphores
  have hstreams :=
    Heap.count_total (f := HrxStreamS.refs) (p := fun s ↦ s.device = d) (r := .device d)
    (fun x ↦ by
      rw [HrxStreamS.refs, Multiset.count_add]
      split <;> simp [Multiset.count_singleton, eq_comm]) c.mem.streams
  have hbuffers :=
    Heap.count_total (f := HrxBufferS.refs) (p := fun s ↦ s.device = d) (r := .device d)
    (fun x ↦ by simp [HrxBufferS.refs, Multiset.count_singleton, eq_comm]) c.mem.buffers
  have hexecutables :=
    Heap.count_total (f := HrxExecutableS.refs) (p := fun s ↦ s.device = d) (r := .device d)
    (fun x ↦ by simp [HrxExecutableS.refs, Multiset.count_singleton, eq_comm]) c.mem.executables
  have hmodules :=
    Heap.count_total (f := HrxModuleS.refs) (p := fun s ↦ s.device = d) (r := .device d)
    (fun x ↦ by simp [HrxModuleS.refs, Multiset.count_singleton, eq_comm]) c.mem.modules
  have hfunctions := Heap.count_total_eq_zero (f := HrxFunctionS.refs) (r := .device d)
    (fun x ↦ by simp [HrxFunctionS.refs]) c.mem.functions
  simp only [refsIn, Multiset.count_add, Globals.deviceRefs_eq, count_refsOf hnodup,
    List.mem_append, hsemaphores, hstreams,
    hbuffers, hexecutables, hmodules, hfunctions, count_outOf_device, Caller.holders]
  omega

end Counts

section Ledger

variable {mem : Memory}

theorem notMem_elim {r : Res} (hr : r.ofDevice = true) {q : Obj → Res}
    (hq : ∀ x, (q x).ofDevice = false) (o : Option Obj) :
    r ∉ o.elim 0 fun x ↦ ({q x} : Multiset Res) := by
  cases o with
  | none => exact Multiset.notMem_zero r
  | some x =>
    intro hmem
    rw [Multiset.mem_singleton.mp hmem, hq] at hr
    cases hr

theorem notMem_statics {r : Res} (hr : r.ofDevice = true) (g : Globals) :
    r ∉ g.shared.parts + g.cpu.parts + g.gpu.parts := by
  simp only [SharedState.parts, Accelerator.parts, Multiset.mem_add, not_or]
  exact ⟨⟨⟨notMem_elim hr (fun _ ↦ rfl) _, notMem_elim hr (fun _ ↦ rfl) _⟩,
    notMem_elim hr (fun _ ↦ rfl) _⟩, notMem_elim hr (fun _ ↦ rfl) _⟩

/-- The references of these kinds that the memory holds are those of devices and of exact pools. -/
theorem count_estate {r : Res} (hr : r.ofDevice = true) (mem : Memory) :
    (estate mem).count r = (mem.devices.total HrxDeviceS.parts).count
      r + (mem.buffers.total HrxBufferS.parts).count r := by
  have hstatics := Multiset.count_eq_zero_of_notMem (notMem_statics hr mem.globals)
  have hsemaphores := Heap.count_total_eq_zero (f := HrxSemaphoreS.parts) (r := r)
    (fun x hx ↦ by rw [Multiset.mem_singleton.mp hx] at hr; cases hr) mem.semaphores
  have hexecutables := Heap.count_total_eq_zero (f := HrxExecutableS.parts) (r := r)
    (fun x hx ↦ by
      simp only [HrxExecutableS.parts, Multiset.insert_eq_cons, Multiset.mem_cons,
        Multiset.mem_singleton] at hx
      rcases hx with rfl | rfl <;> cases hr) mem.executables
  have hmodules := Heap.count_total_eq_zero (f := HrxModuleS.parts) (r := r)
    (fun x hx ↦ by
      simp only [HrxModuleS.parts, Multiset.insert_eq_cons, Multiset.mem_cons,
        Multiset.mem_singleton] at hx
      rcases hx with rfl | rfl | rfl <;> cases hr) mem.modules
  simp only [Multiset.count_add] at hstatics
  simp only [estate, holdings, Multiset.count_add, hsemaphores, hexecutables, hmodules]
  omega

theorem count_devices {r : Res} {q : HrxDeviceS → Bool}
    (hq : ∀ x, x.parts.count r = if q x then 1 else 0) (hr : r.ofDevice = true)
    (hpool : ∀ b : HrxBufferS, r ∉ b.parts) :
    (estate mem).count r = mem.devices.count q := by
  rw [count_estate hr, Heap.count_total hq, Heap.count_total_eq_zero hpool, add_zero]

theorem count_halDevice (mem : Memory) (x : Obj) :
    (estate mem).count (.halDevice x) = mem.devices.count (fun d ↦ d.halDevice = x) :=
  count_devices (fun d ↦ by simp [HrxDeviceS.parts, Multiset.count_singleton, eq_comm]) rfl
    fun b ↦ by
    cases hb : b.halPool <;> simp [HrxBufferS.parts, PoolPtr.parts, hb]

theorem lentTo_cons (y : Hold) (held : Multiset Hold) :
    lentTo (y ::ₘ held) = y.parts + lentTo held := by
  rw [← Multiset.singleton_add, lentTo_add, lentTo_single]

theorem count_lentTo {r : Res} (hr : ∀ x, r ≠ .allocator x) (held : Multiset Hold) :
    (lentTo held).count r = 0 := by
  induction held using Multiset.induction_on with
  | empty => rfl
  | cons y held ih =>
    rw [lentTo_cons, Multiset.count_add, ih, add_zero]
    cases y with
    | ref r' => rfl
    | allocator d =>
      exact Multiset.count_eq_zero_of_notMem fun hmem ↦ hr _ (Multiset.mem_singleton.mp hmem)

theorem count_acquired_halDevice (e : Happened) (x : Obj) :
    (acquired e).count (.halDevice x) ≤ if e.pos = x then 1 else 0 := by
  have hdevice : (if ok e then {Res.halDevice e.pos} else 0 : Multiset Res).count (.halDevice x) ≤
      if e.pos = x then 1 else 0 := by
    split
    · simp [Multiset.count_singleton, eq_comm]
    · exact Nat.zero_le _
  have hother : ∀ m : Multiset Res, Res.halDevice x ∉ m →
      m.count (.halDevice x) ≤ if e.pos = x then 1 else 0 := by
    intro m hm
    rw [Multiset.count_eq_zero_of_notMem hm]
    exact Nat.zero_le _
  have hmade :
      ∀ r : Res, r ≠ .halDevice x → Res.halDevice x ∉ (if ok e then {r} else 0 : Multiset Res) := by
    intro r hr
    split
    · exact fun hmem ↦ hr (Multiset.mem_singleton.mp hmem).symm
    · exact Multiset.notMem_zero _
  obtain ⟨n, c, answer⟩ := e
  cases c with
  | driverCreateDefaultDevice | driverCreateDeviceByOrdinal => exact hdevice
  | createAllAvailableExecutableLoaders =>
    refine hother _ ?_
    simp only [acquired]
    split <;> simp
  | taskTopologyInitialize | allocatorRetain | deviceGroupRetain | bufferRetain =>
    exact hother _ fun hmem ↦ by cases Multiset.mem_singleton.mp hmem
  | _ =>
    first
      | exact hother _ (Multiset.notMem_zero _)
      | exact hother _ (hmade _ fun h ↦ by cases h)

theorem count_allAcquired_halDevice {t : Trace} (ht : (t.map Event.pos).Nodup) (x : Obj) :
    (allAcquired t).count (.halDevice x) ≤ if x ∈ t.map Event.pos then 1 else 0 := by
  induction t with
  | nil => exact Nat.zero_le _
  | cons e t ih =>
    rw [List.map_cons, List.nodup_cons] at ht
    have hcons : e :: t = [e] ++ t := rfl
    rw [hcons, allAcquired_append, allAcquired_single, Multiset.count_add, List.map_append,
      List.map_singleton]
    have hfirst := count_acquired_halDevice e x
    have hrest := ih ht.2
    by_cases hx : e.pos = x
    · have hnot : x ∉ t.map Event.pos := hx ▸ ht.1
      simp only [hx, hnot, if_true, if_false, List.mem_append, List.mem_singleton, true_or]
        at hfirst hrest ⊢
      omega
    · have hx' : ¬ x = e.pos := fun h ↦ hx h.symm
      simp only [hx, hx', if_false, List.mem_append, List.mem_singleton, false_or] at hfirst ⊢
      omega

theorem released_halDevice_of_dropped {x : HrxDeviceS} {n : ℕ} {t : Trace} (h : x.DroppedIn n t) :
    0 < (allReleased t).count (.halDevice x.halDevice) := by
  obtain ⟨pre, e₁, e₂, e₃, post, rfl, -, -, -, hcall⟩ := h
  have hsplit : pre ++ e₁ :: e₂ :: e₃ :: post = pre ++ [e₁] ++ [e₂] ++ [e₃] ++ post := by simp
  have hthird : (released e₃).count (.halDevice x.halDevice) = 1 := by
    simp only [released, hcall, Multiset.count_singleton_self]
  simp only [hsplit, allReleased_append, allReleased_single, Multiset.count_add, hthird]
  omega

theorem HrxDeviceS.DroppedIn.tail {x : HrxDeviceS} {t es : Trace}
    (h : x.DroppedIn t.length (t ++ es)) :
    x.DroppedIn 0 es := by
  obtain ⟨pre, e₁, e₂, e₃, post, heq, hn, hcalls⟩ := h
  obtain ⟨mid, rfl⟩ : ∃ mid, pre = t ++ mid := by
    have htake : t <+: pre :=
      List.prefix_of_prefix_length_le ⟨es, rfl⟩ ⟨e₁ :: e₂ :: e₃ :: post, heq.symm⟩ hn
    exact ⟨htake.choose, htake.choose_spec.symm⟩
  rw [List.append_assoc] at heq
  exact ⟨mid, e₁, e₂, e₃, post, List.append_cancel_left heq, Nat.zero_le _, hcalls⟩

end Ledger

section Runs

variable {c : Caller} {l : ApiLog} {k : ApiCall} {o : Outside}

def LookedUp (l : ApiLog) (f : ℕ) (x : HrxFunctionS) : Prop :=
  ∃ e ∈ l, (∃ name out, e.call = .create (.lookupFunction (some x.module_) name out)) ∧
    e.result.val.written = .function f ∧ (cellOf e.before.mem (.module_ x.module_)).isSome = true

/-- Every reference is accounted for. -/
structure Upheld (c : Caller) (l : ApiLog) : Prop where
  balanced : Balanced (outOf c.held) c.mem
  globals : Statics SharedState.Clear Steady c.mem.globals
  known : Known (LookedUp l) c.mem
  ledger : ∀ r : Res, r.ofDevice = true → (allAcquired (trace l)).count r =
    (allReleased (trace l)).count r + (lentTo c.held + estate c.mem).count r

def watchOf (c : Caller) (l : ApiLog) (k : ApiCall) : Watch where
  devices a := (c.mem.devices.cell a).map Arc.data
  since := (trace l).length
  known f x := LookedUp l f x ∨ ∃ name out, k = .create (.lookupFunction (some x.module_) name out)

theorem Upheld.owning (hU : Upheld c l) (k : ApiCall) :
    Owning (outOf c.held) (Statics SharedState.Clear Steady) (watchOf c l k) (trace l) c.mem := by
  refine ⟨hU.balanced, hU.globals, ⟨hU.known.null, fun f arc harc ↦ ?_⟩, le_rfl, fun a x hx ↦ ?_⟩
  · exact .inl (hU.known.functions f arc harc)
  · obtain ⟨arc, harc, rfl⟩ := Option.map_eq_some_iff.mp hx
    exact .inl ⟨arc.strong, harc⟩

theorem Upheld.passed (hU : Upheld c l) (hfair : k.Fair (trace l).length c o) :
    Passed (watchOf c l k) (trace l) c.mem (lentTo c.held)
      (k.run.run o (trace l).length c.mem).events
      (k.run.run o (trace l).length c.mem).state
      (lentTo (c.held - k.takes + k.gives (k.run.run o (trace l).length c.mem).val))
      (outOf (c.held - k.takes + k.gives (k.run.run o (trace l).length c.mem).val)) :=
  k.run_passed (hU.owning k) hfair fun _ name out hk _ _ ↦ .inr ⟨name, out, hk⟩

theorem lookup_functions {m : ModulePtr} {name : Option ℕ} {out : Bool} {n : ℕ} {mem : Memory}
    {f : ℕ} {arc : Arc HrxFunctionS}
    (hf : ((hrxModuleLookupFunction (some m) name out).run o n mem).state.functions.cell f =
      some arc) :
    (∃ j, mem.functions.cell f = some ⟨j, arc.data⟩) ∨ arc.data.module_ = m ∧
      ((hrxModuleLookupFunction (some m) name out).run o n mem).val.written = .function f := by
  have hfailed : ∀ {m : Hrx Memory Returned}, Aside (fun _ ↦ True) m →
      (m.run o n mem).state.functions.cell f = some arc →
      ∃ j, mem.functions.cell f = some ⟨j, arc.data⟩ := by
    intro m hm hcell
    have hstate : (m.run o n mem).state = mem := (hm o n mem).1
    rw [hstate] at hcell
    exact ⟨arc.strong, hcell⟩
  have herror : ∀ message, Aside (fun _ ↦ True)
      (do return ⟨← hrxError .invalidArgument message, .nothing⟩ : Hrx Memory Returned) :=
    fun message ↦ .bind (hrxError_calls (fun _ ↦ trivial) _ _) fun _ ↦ .pure _
  rcases name with _ | text
  · exact .inl (hfailed (herror _) hf)
  cases out with
  | false => exact .inl (hfailed (herror _) hf)
  | true =>
    cases hok : ok (happens o n (.vmContextResolveFunction m.context text)) with
    | false =>
      refine .inl ⟨arc.strong, ?_⟩
      have hstatus := (hrxStatusFromIree_calls (f := id) (P := fun _ ↦ True) (fun _ ↦ trivial)
        (happens o n (.vmContextResolveFunction m.context text)).answer.status o (n + 1) mem).1
      simp only [hrxModuleLookupFunction, run_bind, run_call, hok, Bool.not_false,
        if_true, run_pure, Outcome.after_state, List.length_singleton] at hf
      rw [show ((hrxStatusFromIree _).run o (n + 1) mem).state = mem from hstatus] at hf
      exact hf
    | true =>
      simp only [hrxModuleLookupFunction, run_bind, run_call, hok, Bool.not_true,
        Bool.false_eq_true, if_false,
        hrxModuleRetain, handleRetain, intoHandle, run_update, run_state, run_pure,
        Outcome.after_state, Outcome.after_val, Kind.functions, Kind.modules] at hf ⊢
      generalize mem.functions.fresh _ = x at hf ⊢
      by_cases hfx : f = x
      · subst hfx
        rw [Heap.put_cell_self] at hf
        obtain rfl := Option.some.inj hf
        exact .inr ⟨rfl, rfl⟩
      · rw [Heap.put_cell_of_ne _ _ hfx] at hf
        exact .inl ⟨arc.strong, hf⟩

theorem Upheld.step (hU : Upheld c l) (hfair : k.Fair (trace l).length c o) :
    Upheld (k.step.run o (trace l).length c).state
      (l ++ [⟨c, k, k.step.run o (trace l).length c⟩]) := by
  have hpassed := hU.passed hfair
  have hrun := k.run_step o (trace l).length c
  refine ⟨?_, ?_, ⟨?_, fun f arc harc ↦ ?_⟩, fun r hr ↦ ?_⟩
  · rw [hrun]
    exact hpassed.owning.balanced
  · rw [hrun]
    exact hpassed.owning.globals
  · rw [hrun]
    exact hpassed.owning.known.null
  · rw [hrun] at harc ⊢
    have hold : LookedUp l f arc.data →
        LookedUp (l ++ [⟨c, k, k.step.run o (trace l).length c⟩]) f arc.data := by
      rintro ⟨e, he, hlooked⟩
      exact ⟨e, List.mem_append_left _ he, hlooked⟩
    rw [← hrun]
    rcases hpassed.owning.known.functions f arc harc with hlooked | ⟨name, out, hk⟩
    · exact hold hlooked
    subst hk
    rcases lookup_functions harc with ⟨j, hcell⟩ | ⟨-, hwritten⟩
    · exact hold (hU.known.functions f ⟨j, arc.data⟩ hcell)
    · refine ⟨_, List.mem_append_right _ (List.mem_singleton_self _), ⟨name, out, rfl⟩, ?_,
        hfair.needs _ ?_⟩
      · rw [hrun]
        exact hwritten
      · simp [ApiCall.needs, CreateCall.parent]
  · have hledger := hU.ledger r hr
    have hbalance := hpassed.balance r hr
    rw [trace_append, trace_single, hrun]
    simp only [allAcquired_append, allReleased_append, Multiset.count_add] at hledger hbalance ⊢
    omega

theorem upheld_initial : Upheld .initial [] where
  balanced r := by
    have hnone : refsIn Memory.initial + outOf 0 = 0 := rfl
    have hdead : cellOf Memory.initial r = none := by cases r <;> rfl
    rw [Caller.initial, hnone, hdead]
    rfl
  globals := ⟨fun _ ↦ ⟨rfl, rfl⟩, fun _ ↦ ⟨rfl, rfl⟩, fun _ ↦ ⟨rfl, rfl⟩, List.nodup_nil⟩
  known := ⟨rfl, fun _ _ h ↦ by cases h⟩
  ledger r _ := by
    have hnothing : lentTo Caller.initial.held + estate Caller.initial.mem = 0 := rfl
    rw [hnothing]
    rfl

theorem ApiRuns.upheld (h : ApiRuns c l) : Upheld c l :=
  h.keeps upheld_initial fun _ _ _ _ hU hfair ↦ hU.step hfair

/-- A live device has its holders to thank, all of them and no others. -/
theorem Upheld.device (hU : Upheld c l) (d : DevicePtr) :
    cellOf c.mem (.device d) = counted (c.holders d) := by
  rw [hU.balanced, count_device hU.globals.2.nodup]

theorem Upheld.unreleased (hU : Upheld c l) (hpos : ((trace l).map Event.pos).Nodup) {a : ℕ}
    {x : HrxDeviceS} {j : ℕ} (hcell : c.mem.devices.cell a = some ⟨j, x⟩) :
    (allReleased (trace l)).count (.halDevice x.halDevice) = 0 := by
  have hledger := hU.ledger (.halDevice x.halDevice) rfl
  rw [Multiset.count_add, count_lentTo (r := .halDevice x.halDevice) (fun _ ↦ nofun),
    count_halDevice] at hledger
  have honce := count_allAcquired_halDevice hpos x.halDevice
  have hlive : 0 < c.mem.devices.count fun d ↦ d.halDevice = x.halDevice :=
    Heap.count_pos_of_cell hcell (by simp)
  split at honce <;> omega

theorem Upheld.keeps (hU : Upheld c l) (hfair : k.Fair (trace l).length c o) {c' : Caller}
    (hrun : (k.step.run o (trace l).length c).state = c')
    (hU' : Upheld c' (l ++ [⟨c, k, k.step.run o (trace l).length c⟩]))
    (hpos : ((trace (l ++ [⟨c, k, k.step.run o (trace l).length c⟩])).map Event.pos).Nodup)
    {a : ℕ} {x : HrxDeviceS} {j : ℕ} (hcell : c.mem.devices.cell a = some ⟨j, x⟩) :
    (0 < c'.holders (x.ptr a) ∧ c'.mem.devices.cell a = some ⟨c'.holders (x.ptr a), x⟩) ∨
      c'.holders (x.ptr a) = 0 ∧ x.DroppedIn 0 (k.step.run o (trace l).length c).events := by
  have hkept := (hU.passed hfair).owning.kept a x (by simp [watchOf, hcell])
  have hdevice := hU'.device (x.ptr a)
  have hsame : (k.run.run o (trace l).length c.mem).state = c'.mem ∧
      (k.step.run o (trace l).length c).events = (k.run.run o (trace l).length c.mem).events := by
    rw [← hrun, k.run_step]
    exact ⟨rfl, rfl⟩
  rw [hsame.1] at hkept
  rw [hsame.2]
  rcases hkept with ⟨i, hlive⟩ | hdropped
  · left
    have hstrong : cellOf c'.mem (Owner.devices.name a x) = some i :=
      Owner.devices.cellOf_of_cell hlive
    rw [show Owner.devices.name a x = Ref.device (x.ptr a) from rfl, hdevice] at hstrong
    cases hholders : c'.holders (x.ptr a) with
    | zero =>
      rw [hholders] at hstrong
      cases hstrong
    | succ n =>
      rw [hholders, counted_succ] at hstrong
      obtain rfl : n + 1 = i := Option.some.inj hstrong
      exact ⟨Nat.succ_pos n, hlive⟩
  · right
    refine ⟨?_, hdropped.tail⟩
    by_contra hne
    have hlive : (cellOf c'.mem (Owner.devices.name a x)).isSome = true := by
      change (cellOf c'.mem (.device (x.ptr a))).isSome = true
      rw [hdevice, counted, if_neg hne]
      rfl
    obtain ⟨⟨i, y⟩, hy, hptr⟩ := Owner.devices.alive_cell hlive
    have hhal : y.halDevice = x.halDevice := congrArg DevicePtr.halDevice (Ref.device.inj hptr)
    have hnone := hU'.unreleased hpos hy
    have hsome := released_halDevice_of_dropped hdropped
    rw [trace_append, trace_single, hsame.2, hhal] at hnone
    omega

theorem ApiRuns.entry (h : ApiRuns c l) {l₁ l₂ : ApiLog}
    {e : Entry Call Answer Caller Returned ApiCall} (hl : l = l₁ ++ e :: l₂) :
    Upheld e.before l₁ ∧ Upheld e.result.state (l₁ ++ [e]) ∧
      ∃ o, e.call.Fair (trace l₁).length e.before o ∧
        e.result = e.call.step.run o (trace l₁).length e.before := by
  obtain ⟨hbefore, hafter, o, hfair, hresult⟩ := h.upTo hl
  exact ⟨ApiRuns.upheld hbefore, ApiRuns.upheld hafter, o, hfair, hresult⟩

theorem positions_nodup (h : ApiRuns c l) : ((trace l).map Event.pos).Nodup := by
  rw [h.ordered]
  exact List.nodup_range'

theorem positions_upTo (h : ApiRuns c l) {l₁ l₂ : ApiLog}
    {e : Entry Call Answer Caller Returned ApiCall} (hl : l = l₁ ++ e :: l₂) :
    ((trace (l₁ ++ [e])).map Event.pos).Nodup :=
  positions_nodup (h.upTo hl).2.1

theorem ApiRuns.keeps (h : ApiRuns c l) {l₁ l₂ : ApiLog}
    {e : Entry Call Answer Caller Returned ApiCall} (hl : l = l₁ ++ e :: l₂) {a : ℕ}
    {x : HrxDeviceS} {j : ℕ} (hcell : e.before.mem.devices.cell a = some ⟨j, x⟩) :
    (0 < e.result.state.holders (x.ptr a) ∧
        e.result.state.mem.devices.cell a = some ⟨e.result.state.holders (x.ptr a), x⟩) ∨
      e.result.state.holders (x.ptr a) = 0 ∧ x.DroppedIn 0 e.result.events := by
  obtain ⟨hbefore, hafter, o, hfair, hresult⟩ := h.entry hl
  have hpos := positions_upTo h hl
  obtain ⟨before, k, result⟩ := e
  simp only at hbefore hafter hfair hresult hcell hpos ⊢
  subst hresult
  exact hbefore.keeps hfair rfl hafter hpos hcell

/-- An invocation that passes the ownership check is on the module the function was looked up in. -/
theorem Upheld.invoked (hU : Upheld c l) {m : ModulePtr} {f : ℕ} {arc : Arc HrxFunctionS}
    (hlive : (cellOf c.mem (.module_ m)).isSome = true) (hcell : c.mem.functions.cell f = some arc)
    (haddr : arc.data.module_.addr = m.addr) :
    arc.data.module_ = m ∧ LookedUp l f ⟨m, arc.data.vmFunction⟩ := by
  have hmem : Ref.module_ arc.data.module_ ∈ refsIn c.mem :=
    Multiset.mem_of_le (Owner.functions.refs_le hcell) (Multiset.mem_singleton_self _)
  obtain ⟨n, hn⟩ :=
    hU.balanced.live (r := .module_ arc.data.module_) (Multiset.mem_add.mpr (.inl hmem))
  have hlive' : (cellOf c.mem (.module_ arc.data.module_)).isSome = true := by
    rw [hn]
    rfl
  have hname : (cellOf c.mem (Owner.modules.name m.addr ⟨m.context, 0, 0, ⟨0, 0, 0, 0⟩⟩)).isSome =
      true := hlive
  obtain ⟨y, hy, hptr⟩ := Owner.modules.alive_cell hname
  have hname' : (cellOf c.mem (Owner.modules.name arc.data.module_.addr
      ⟨arc.data.module_.context, 0, 0, ⟨0, 0, 0, 0⟩⟩)).isSome = true := hlive'
  obtain ⟨z, hz, hptr'⟩ := Owner.modules.alive_cell hname'
  have hsame : y = z := by
    rw [haddr] at hz
    exact Option.some.inj (hy.symm.trans hz)
  have hm : arc.data.module_ = m := by
    subst hsame
    rw [haddr] at hptr'
    have hnames : Ref.module_ ⟨m.addr, arc.data.module_.context⟩ = .module_ ⟨m.addr, m.context⟩ :=
      hptr'.symm.trans hptr
    have hcontext : arc.data.module_.context = m.context := by simpa using hnames
    calc arc.data.module_ = ⟨arc.data.module_.addr, arc.data.module_.context⟩ := rfl
      _ = ⟨m.addr, m.context⟩ := by rw [haddr, hcontext]
      _ = m := rfl
  refine ⟨hm, ?_⟩
  have hlooked := hU.known.functions f arc hcell
  rw [← hm]
  exact hlooked

end Runs

end HrxSystem.Libhrx
