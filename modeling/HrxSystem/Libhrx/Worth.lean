import HrxSystem.Libhrx.Drops

namespace HrxSystem.Libhrx

open External Program Counting

/-- What the statics and the objects hold: references to objects, and references to IREE objects. -/
def worth (mem : Memory) : Multiset Ref × Multiset Res := (refsIn mem, estate mem)

def Contents.worth (c : Contents) : Multiset Ref × Multiset Res := (c.refs, c.parts)

structure MadeObject where
  ref : Ref
  contents : Contents

def worthOf (new : List MadeObject) : Multiset Ref × Multiset Res :=
  (new.map fun y ↦ y.contents.worth).sum

@[simp] theorem worthOf_nil : worthOf [] = 0 := rfl

@[simp] theorem worthOf_cons (x : MadeObject) (new : List MadeObject) :
    worthOf (x :: new) = x.contents.worth + worthOf new :=
  List.sum_cons

variable {v : Multiset Ref × Multiset Res}

/-- What a creating call that is given a memory of worth `v` leaves. Where `p` holds it makes a
stream. -/
inductive Ended (p : Prop) (v : Multiset Ref × Multiset Res) : Returned → Memory → Prop
  | nothing {s : HrxStatus} {mem : Memory} : worth mem = v → Ended p v ⟨s, .nothing⟩ mem
  | made {out : Written} {mem : Memory} (x : MadeObject)
      (rest : List MadeObject) : out.refs = {x.ref} →
      (∀ y ∈ x :: rest, cellOf mem y.ref = some 1 ∧ contentsOf mem y.ref = some y.contents) →
      (∀ y ∈ rest, y.ref ∈ x.contents.refs) → worth mem = v + worthOf (x :: rest) →
      Ended p v ⟨none, out⟩ mem
  /-- The process ended. -/
  | crashed {mem : Memory} : Ended p v ⟨none, .panicked⟩ mem
  /-- A stream without a semaphore. -/
  | hollow {mem : Memory} (hp : p) (a : ℕ) (d : DevicePtr) :
      contentsOf mem (.stream a) = some ⟨0, [.semaphore .null, .device d]⟩ →
      Ended p v ⟨none, .stream a⟩ mem

theorem Ended.mono {p p' : Prop} {r : Returned} {mem : Memory} (hp : p → p') (h : Ended p v r mem) :
    Ended p' v r mem := by
  cases h with
  | nothing hworth => exact .nothing hworth
  | made x rest hout hlive hpart hworth => exact .made x rest hout hlive hpart hworth
  | crashed => exact .crashed
  | hollow hstream a d hcontents => exact .hollow (hp hstream) a d hcontents

section Rules

variable {α : Type} {p : Prop} {q : Outside → Prop}

theorem worth_kept {m : Hrx Memory α} (hm : Confined worth (fun _ ↦ True) m) :
    Triple q (fun _ mem ↦ worth mem = v) m (fun _ _ mem ↦ worth mem = v) :=
  Triple.of_confined (I := fun _ x ↦ x = v) hm fun _ _ _ h _ _ ↦ h

theorem ended_status (s : IreeStatus) :
    Triple q (fun _ mem ↦ worth mem = v) (do return ⟨← hrxStatusFromIree s, .nothing⟩)
      (fun r _ mem ↦ Ended p v r mem) :=
  .bind (worth_kept (hrxStatusFromIree_calls (fun _ ↦ trivial) s)) fun _ ↦
    .pure fun _ _ h ↦ .nothing h

theorem ended_error (code : HrxStatusCode) (message : String) :
    Triple q (fun _ mem ↦ worth mem = v) (do return ⟨← hrxError code message, .nothing⟩)
      (fun r _ mem ↦ Ended p v r mem) :=
  .bind (worth_kept (hrxError_calls (fun _ ↦ trivial) code message)) fun _ ↦
    .pure fun _ _ h ↦ .nothing h

namespace Owner

variable {T : Type} (w : Owner T)

theorem worth_put (mem : Memory) (a : ℕ) (arc : Option (Arc T)) :
    worth (w.kind.store ((w.kind.heap mem).put a arc) mem) +
        (Heap.share w.refs ((w.kind.heap mem).cell a),
          Heap.share w.parts ((w.kind.heap mem).cell a)) =
      worth mem + (Heap.share w.refs arc, Heap.share w.parts arc) :=
  Prod.ext (w.refsIn_put mem a arc) (w.estate_put mem a arc)

theorem worth_put_same {mem : Memory} {a : ℕ} {arc : Arc T} {n : ℕ} {x : T}
    (hcell : (w.kind.heap mem).cell a = some arc) (hrefs : w.refs x = w.refs arc.data)
    (hparts : w.parts x = w.parts arc.data) :
    worth (w.kind.store ((w.kind.heap mem).put a (some ⟨n, x⟩)) mem) = worth mem := by
  have hput := w.worth_put mem a (some ⟨n, x⟩)
  rw [hcell, Heap.share_some, Heap.share_some, Heap.share_some, Heap.share_some, hrefs, hparts]
    at hput
  exact add_right_cancel hput

theorem worth_store_heap (mem : Memory) :
    worth (w.kind.store (w.kind.heap mem) mem) = worth mem := by
  refine Prod.ext ?_ ?_
  · change refsIn _ = refsIn mem
    rw [w.refsIn_eq, w.otherRefs_store, w.kind.heap_store, ← w.refsIn_eq]
  · change estate _ = estate mem
    rw [w.estate_eq, w.otherParts_store, w.kind.heap_store, ← w.estate_eq]

theorem retain_worth (a : ℕ) : Confined worth (fun _ ↦ True) (handleRetain w.kind a) := by
  refine .update fun mem ↦ ?_
  cases hcell : (w.kind.heap mem).cell a with
  | none =>
    have hret : (w.kind.heap mem).retain a = w.kind.heap mem := by simp only [Heap.retain, hcell]
    rw [hret, w.worth_store_heap]
  | some arc =>
    have hret :
        (w.kind.heap mem).retain a = (w.kind.heap mem).put a
        (some { arc with strong := arc.strong + 1 }) := by
      simp only [Heap.retain, hcell]
    rw [hret, w.worth_put_same hcell rfl rfl]

theorem intoHandle_worth (obj : T) :
    Triple q (fun _ mem ↦ worth mem = v) (intoHandle w.kind obj)
      (fun a _ mem ↦ 0 < a ∧ (w.kind.heap mem).cell a = some ⟨1, obj⟩ ∧
        worth mem = v + (w.refs obj, w.parts obj)) := by
  intro o t mem _ hworth
  have hput := w.worth_put mem ((w.kind.heap mem).fresh (o t.length .arcNew).value) (some ⟨1, obj⟩)
  rw [Heap.fresh_cell, Heap.share_none, Heap.share_some, Heap.share_none, Heap.share_some, hworth]
    at hput
  refine ⟨Heap.fresh_pos _ _, ?_, (add_zero _).symm.trans hput⟩
  change (w.kind.heap (w.kind.store _ mem)).cell _ = _
  rw [w.kind.heap_store]
  exact Heap.put_cell_self _ _ _

theorem intoHandle_ended {obj : T} {out : ℕ → Written} (contents : T → Contents)
    (hout : ∀ a, (out a).refs = {w.name a obj})
    (hcontents : ∀ mem a, contentsOf mem (w.name a obj) = ((w.kind.heap mem).cell a).map fun arc ↦
      contents arc.data)
    (hrefs : w.refs obj = (contents obj).refs) (hparts : w.parts obj = (contents obj).parts) :
    Triple q (fun _ mem ↦ worth mem = v)
      (do let a ← intoHandle w.kind obj; return ⟨hrxOkStatus, out a⟩)
      (fun r _ mem ↦ Ended p v r mem) := by
  refine (w.intoHandle_worth obj).bind fun a ↦ .pure fun _ mem ⟨_, hcell, hworth⟩ ↦
    .made ⟨w.name a obj, contents obj⟩ [] (hout a) (fun y hy ↦ ?_) (fun _ h ↦ by cases h) ?_
  · obtain rfl := List.mem_singleton.mp hy
    exact ⟨w.cellOf_of_cell hcell, by rw [hcontents, hcell, Option.map_some]⟩
  · rw [hworth, hrefs, hparts, worthOf_cons, worthOf_nil, add_zero, Contents.worth]

end Owner

theorem retain_device_worth (d : ℕ) : Confined worth (fun _ ↦ True) (hrxDeviceRetain d) :=
  Owner.devices.retain_worth d

end Rules

section Calls

/-- A call that leaves of a memory of any worth what a creating call may leave. -/
abbrev Ends (m : Hrx Memory Returned) : Prop :=
  ∀ v, Triple Always (fun _ mem ↦ worth mem = v) m (fun r _ mem ↦ Ended False v r mem)

theorem worth_call {c : Call} :
    Triple Always (fun _ mem ↦ worth mem = v) (call c) (fun _ _ mem ↦ worth mem = v) :=
  worth_kept (.call trivial)

theorem wrapBuffer_ends (d : DevicePtr) (s : Happened) (memType size : ℕ) :
    Ends (wrapBuffer d s memType size) := by
  refine fun v ↦ .ite (fun _ ↦ ended_status _) fun _ ↦
    .bind (worth_kept (retain_device_worth _)) fun _ ↦ ?_
  exact Owner.buffers.intoHandle_ended HrxBufferS.contents (fun _ ↦ rfl) (fun _ _ ↦ rfl) rfl rfl

theorem prepareExecutable_ends (d : DevicePtr) (cache data size : ℕ) (format : FormatText) :
    Ends (prepareExecutable d cache data size format) := by
  refine fun v ↦ worth_call.bind fun exe ↦
    .ite (fun _ ↦ worth_call.bind fun _ ↦ ended_status _) fun _ ↦ ?_
  refine .bind (worth_kept (retain_device_worth _)) fun _ ↦ ?_
  exact Owner.executables.intoHandle_ended HrxExecutableS.contents (fun _ ↦ rfl)
    (fun _ _ ↦ rfl) rfl rfl

theorem executableLoadData_ends (d : DevicePtr) (data size : ℕ) (format : Option FormatText) :
    Ends (hrxExecutableLoadData (some d) (some data) size format true) := by
  refine fun v ↦ .ite (fun _ ↦ ended_error _ _) fun _ ↦ worth_call.bind fun cache ↦
    .ite (fun _ ↦ ended_status _) fun _ ↦ ?_
  cases format.filter fun format ↦ !format.empty with
  | none => exact worth_call.bind fun _ ↦ ended_error _ _
  | some format => exact prepareExecutable_ends d cache.pos data size format v

theorem loadFileData_ends (d : DevicePtr) (file fileData : Obj) (fileSize : ℕ)
    (format : Option FormatText) :
    Ends (loadFileData (some d) file fileData fileSize format) := by
  refine fun v ↦ worth_call.bind fun r ↦ worth_call.bind fun _ ↦ .ite (fun _ ↦ ?_) fun _ ↦ ?_
  · exact worth_call.bind fun _ ↦ ended_error _ _
  · refine (executableLoadData_ends d fileData fileSize format v).bind fun r ↦ ?_
    refine .bind (Q := fun _ _ mem ↦ Ended False v r mem) ?_ fun _ ↦ .pure fun _ _ h ↦ h
    exact .call fun _ _ _ h _ _ ↦ h

theorem executableLoadFile_ends (d : DevicePtr) (path : ℕ) (format : Option FormatText) :
    Ends (hrxExecutableLoadFile (some d) (some path) format true) := by
  have hclose : ∀ v file code message, Triple Always (fun _ mem ↦ worth mem = v)
      (closeAndFail file code message)
      (fun r _ mem ↦ Ended False v r mem) := fun v _ _ _ ↦ worth_call.bind fun _ ↦ ended_error _ _
  refine fun v ↦ worth_call.bind fun file ↦ .ite (fun _ ↦ ended_error _ _) fun _ ↦ ?_
  refine worth_call.bind fun _ ↦ .ite (fun _ ↦ hclose _ _ _ _) fun _ ↦ ?_
  refine worth_call.bind fun _ ↦ .ite (fun _ ↦ hclose _ _ _ _) fun _ ↦ ?_
  refine worth_call.bind fun _ ↦ .ite (fun _ ↦ hclose _ _ _ _) fun _ ↦ ?_
  refine worth_call.bind fun data ↦ .ite (fun _ ↦ ?_) fun _ ↦ loadFileData_ends d _ _ _ _ v
  refine .bind (worth_kept (hrxStatusFromIree_calls (fun _ ↦ trivial) _)) fun status ↦ ?_
  exact .ite (fun _ ↦ .pure fun _ _ _ ↦ .crashed) fun _ ↦ worth_call.bind fun _ ↦
    .pure fun _ _ h ↦ .nothing h

theorem createContext_ends (d : DevicePtr) (vmInstance bytecode hal : Obj) :
    Ends (createContext d vmInstance bytecode hal) := by
  refine fun v ↦ worth_call.bind fun context ↦ .ite (fun _ ↦ ?_) fun _ ↦ ?_
  · refine .bind (worth_kept (hrxStatusFromIree_calls (fun _ ↦ trivial) _)) fun _ ↦
      worth_call.bind fun _ ↦ ?_
    exact worth_call.bind fun _ ↦ .pure fun _ _ h ↦ .nothing h
  · refine .bind (worth_kept (retain_device_worth _)) fun _ ↦ ?_
    exact Owner.modules.intoHandle_ended HrxModuleS.contents (fun _ ↦ rfl) (fun _ _ ↦ rfl) rfl rfl

theorem moduleLoadVmfb_ends (d : DevicePtr) (data size : ℕ) :
    Ends (hrxModuleLoadVmfb (some d) (some data) size true) := by
  refine fun v ↦ .ite (fun _ ↦ ended_error _ _) fun _ ↦ .bind (worth_kept .state) fun mem ↦ ?_
  cases mem.globals.shared.usableInstance with
  | none => exact ended_error _ _
  | some vmInstance =>
    refine worth_call.bind fun bytecode ↦ .ite (fun _ ↦ ended_status _) fun _ ↦ ?_
    refine worth_call.bind fun _ ↦ worth_call.bind fun hal ↦ worth_call.bind fun _ ↦
      .ite (fun _ ↦ ?_) fun _ ↦
      createContext_ends d _ _ _ v
    refine .bind (worth_kept (hrxStatusFromIree_calls (fun _ ↦ trivial) _)) fun _ ↦ ?_
    exact worth_call.bind fun _ ↦ .pure fun _ _ h ↦ .nothing h

theorem lookupFunction_ends (m : ModulePtr) (name : ℕ) :
    Ends (hrxModuleLookupFunction (some m) (some name) true) := by
  refine fun v ↦ worth_call.bind fun f ↦ .ite (fun _ ↦ ended_status _) fun _ ↦ ?_
  refine .bind (worth_kept (Owner.modules.retain_worth m.addr)) fun _ ↦ ?_
  exact Owner.functions.intoHandle_ended HrxFunctionS.contents (fun _ ↦ rfl) (fun _ _ ↦ rfl) rfl rfl

end Calls

section Allocate

variable {α : Type}

theorem onStream_worth {m : Hrx HrxStreamS α} {P : Call → Prop} (s : ℕ) (dead : α)
    (hm : Confined (fun st ↦ (st.semaphore, st.device)) P m) :
    Confined worth (fun _ ↦ True) (onStream s dead m) := by
  refine fun o n mem ↦ ⟨?_, fun _ _ ↦ trivial⟩
  cases hcell : mem.streams.cell s with
  | none => simp [onStream, hcell]
  | some arc =>
    obtain ⟨-, hrefs, hparts⟩ := streams_keep (s := s) _ _ (hm o n arc.data).1
    have hsame := Owner.streams.worth_put_same (n := arc.strong) hcell hrefs hparts
    simp only [onStream, run_bind, run_state, hcell, run_focus, Heap.modify]
    exact hsame

theorem bufferAllocate_keeps (shared : SharedState) (size memType usage : ℕ) :
    Confined (fun st ↦ (st.semaphore, st.device)) (fun _ ↦ True)
      (HrxStreamS.bufferAllocate shared size memType usage) := by
  have hflush :
      Confined (fun st ↦ (st.semaphore, st.device)) (fun _ ↦ True) HrxStreamS.flushInner :=
    fun o n st ↦ ⟨(flushInner_settled o n st).1, fun _ _ ↦ trivial⟩
  have habandon : ∀ b q s, Confined (fun st ↦ (st.semaphore, st.device)) (fun _ ↦ True)
      (HrxStreamS.abandonAlloca b q s) := by
    refine fun b q s ↦ .bind (.call trivial) fun _ ↦
      .bind (halPoolRelease_calls ?_ ?_ ?_ ?_ q) fun _ ↦
      .bind (hrxStatusFromIree_calls (fun _ ↦ trivial) s) fun _ ↦ .pure _
    all_goals exact fun _ ↦ trivial
  refine .bind .state fun self ↦ .bind (.call trivial) fun q ↦
    .ite ?_ (hflush.bind fun s ↦ .ite (.pure _) ?_)
  · exact .bind (hrxError_calls (fun _ ↦ trivial) _ _) fun _ ↦ .pure _
  refine .bind .state fun st ↦ .bind (hrxIreeExactPoolCreate_calls ?_ ?_ ?_ ?_ ?_ ?_ shared _ _)
    fun pool ↦ ?_
  on_goal 7 =>
    cases pool.2 with
    | none => exact habandon _ _ _
    | some pool =>
      refine .bind (.call trivial) fun a ↦ .ite (habandon _ _ _)
        (.bind (.call trivial) fun w ↦ .ite (habandon _ _ _) ?_)
      exact .bind (.update fun _ ↦ rfl) fun _ ↦ .pure _
  all_goals exact fun _ ↦ trivial

/-- A buffer is handed out with the OK status only. -/
theorem bufferAllocate_yields (shared : SharedState) (size memType usage : ℕ) :
    Yields (fun r ↦ r.2.isSome = true → r.1 = none)
      (HrxStreamS.bufferAllocate shared size memType usage) := by
  have habandon :
      ∀ b q s, Yields (fun r ↦ r.2.isSome = true → r.1 = none) (HrxStreamS.abandonAlloca b q s) :=
    fun _ _ _ ↦ .bind fun _ ↦ .bind fun _ ↦ .bind fun _ ↦ .pure fun h ↦ by cases h
  refine .bind fun self ↦ .bind fun q ↦
    .ite (fun _ ↦ .bind fun _ ↦ .pure fun h ↦ by cases h) fun _ ↦ ?_
  refine .bind fun s ↦ .ite (fun _ ↦ .pure fun h ↦ by cases h) fun _ ↦ .bind fun st ↦
    .bind fun pool ↦ ?_
  cases pool.2 with
  | none => exact habandon _ _ _
  | some pool =>
    refine .bind fun a ↦ .ite (fun _ ↦ habandon _ _ _) fun _ ↦ .bind fun w ↦
      .ite (fun _ ↦ habandon _ _ _) fun _ ↦ ?_
    exact .bind fun _ ↦ .pure fun _ ↦ rfl

theorem bufferAllocate_ends (s size memType usage : ℕ) :
    Ends (hrxBufferAllocate (some s) size memType usage true) := by
  refine fun v ↦ .ite (fun _ ↦ ended_error _ _) fun _ ↦ .bind (worth_kept .state) fun mem ↦ ?_
  refine .bind (Q := fun r _ mem ↦ (r.2.isSome = true → r.1 = none) ∧ worth mem = v) ?_ fun r ↦
    .assume fun hr ↦ ?_
  · intro o t mem' ho hv
    refine ⟨?_,
      worth_kept (onStream_worth s (none, none) (bufferAllocate_keeps _ _ _ _)) o t mem' ho hv⟩
    cases hcell : mem'.streams.cell s with
    | none => simp [onStream, hcell]
    | some arc =>
      simp only [onStream, run_bind, run_state, hcell, run_focus]
      exact bufferAllocate_yields mem.globals.shared size memType usage o _ arc.data
  split
  · rename_i hbuffer _
    rw [hr (by rw [hbuffer]; rfl)]
    refine .bind (worth_kept (retain_device_worth _)) fun _ ↦ ?_
    exact Owner.buffers.intoHandle_ended HrxBufferS.contents (fun _ ↦ rfl) (fun _ _ ↦ rfl) rfl rfl
  · exact .pure fun _ _ h ↦ .nothing h

end Allocate

section Create

variable {d : DevicePtr}

theorem semaphoreCreate_worth {G : Memory → Prop} (d : DevicePtr) (initialValue : ℕ) :
    Triple Always (fun _ mem ↦ worth mem = v ∧ G mem)
      (hrxSemaphoreCreate (some d) initialValue true)
      (fun r _ mem ↦ r.2.elim (worth mem = v ∧ G mem) fun s ↦ r.1 = none ∧ 0 < s.addr ∧
        mem.semaphores.cell s.addr = some ⟨1, ⟨s.hal, d⟩⟩ ∧
        worth mem = v + ({.device d}, {.semaphore s.hal})) := by
  refine .bind (Q := fun _ _ mem ↦ worth mem = v ∧ G mem) (.call fun _ _ _ h _ _ ↦ h) fun e ↦
    .ite (fun _ ↦ ?_) fun _ ↦ ?_
  · refine .bind (Q := fun _ _ mem ↦ worth mem = v ∧ G mem) ?_ fun _ ↦ .pure fun _ _ h ↦ h
    exact Triple.of_confined (I := fun _ mem ↦ worth mem = v ∧ G mem)
      (hrxStatusFromIree_calls (f := id) (P := fun _ ↦ True) (fun _ ↦ trivial) _)
      fun _ _ _ h _ _ ↦ h
  · refine .bind (.mono (worth_kept (retain_device_worth _)) (fun _ _ h ↦ h.1) fun _ _ _ h ↦ h)
      fun _ ↦ ?_
    exact .bind (Owner.semaphores.intoHandle_worth _) fun a ↦ .pure fun _ _ h ↦ ⟨rfl, h⟩

/-- The device is live, so that it is still live when the stream's own reference is given up. -/
theorem streamCreate_ends (d : DevicePtr) (flags : ℕ) :
    Triple Always (fun _ mem ↦ worth mem = v ∧ ∃ n, cellOf mem (.device d) = some (n + 1))
      (hrxStreamCreate (some d) flags true) (fun r _ mem ↦ Ended True v r mem) := by
  let shared (mem : Memory) : Prop := ∃ n x, mem.devices.cell d.addr = some ⟨n + 2, x⟩
  refine .bind (Q := fun _ _ mem ↦ worth mem = v ∧ shared mem) ?_ fun _ ↦
    (semaphoreCreate_worth d 0).bind fun r ↦ ?_
  · rintro o t mem ho ⟨hv, n, hlive⟩
    refine ⟨worth_kept (retain_device_worth d.addr) o t mem ho hv, n, ?_⟩
    change cellOf mem
      (Owner.devices.name d.addr ⟨0, 0, d.halAllocator, d.halDeviceGroup, d.halDevice, [], []⟩) = _
      at hlive
    rw [Owner.devices.cellOf_name] at hlive
    obtain ⟨x, hcell, -⟩ := strongOf_eq_some.mp hlive
    have hcell : mem.devices.cell d.addr = some ⟨n + 1, x⟩ := hcell
    exact ⟨x, by simp [hrxDeviceRetain, handleRetain, Kind.devices, Heap.retain, hcell]⟩
  obtain ⟨st, sem⟩ := r
  cases sem with
  | none =>
    refine .ite (fun _ ↦ ?_) fun hst ↦ ?_
    · rintro o t mem ho ⟨hv, n, x, hcell⟩
      have hsame := Owner.devices.worth_put_same (n := n + 1) (x := x) hcell rfl rfl
      have hrun := run_hrxDeviceRelease_shared hcell o t.length
      simp only [run_bind, hrun, run_pure]
      exact .nothing (hsame.trans hv)
    · refine .bind (.mono (Owner.streams.intoHandle_worth _) (fun _ _ h ↦ h.1) fun _ _ _ h ↦ h)
        fun a ↦ .pure fun _ mem h ↦ ?_
      exact .hollow trivial a d
        (congrArg (Option.map fun arc : Arc HrxStreamS ↦ arc.data.contents) h.2.1)
  | some s =>
    rintro o t mem ho ⟨hst, hpos, hsem, hv⟩
    obtain rfl : st = none := hst
    obtain ⟨-, hcell, hworth⟩ :=
      Owner.streams.intoHandle_worth ⟨0, none, false, flags, s, d⟩ o t mem ho hv
    refine .made ⟨.stream _, HrxStreamS.contents ⟨0, none, false, flags, s, d⟩⟩
      [⟨.semaphore s, HrxSemaphoreS.contents ⟨s.hal, d⟩⟩] rfl (fun y hy ↦ ?_) (fun y hy ↦ ?_) ?_
    · rcases List.mem_cons.mp hy with rfl | hy
      · exact ⟨Owner.streams.cellOf_of_cell hcell,
          congrArg (Option.map fun arc : Arc HrxStreamS ↦ arc.data.contents) hcell⟩
      · obtain rfl := List.mem_singleton.mp hy
        exact ⟨Owner.semaphores.cellOf_of_cell hsem,
          congrArg (Option.map fun arc : Arc HrxSemaphoreS ↦ arc.data.contents) hsem⟩
    · obtain rfl := List.mem_singleton.mp hy
      exact List.mem_cons_self ..
    · have hrefs : HrxStreamS.refs ⟨0, none, false, flags, s, d⟩ =
          {.device d} + {.semaphore s} := by
        rw [HrxStreamS.refs, if_neg hpos.ne']
      have hstream :
          (Owner.streams.refs ⟨0, none, false, flags, s, d⟩,
            Owner.streams.parts ⟨0, none, false, flags, s, d⟩) =
          (HrxStreamS.contents ⟨0, none, false, flags, s, d⟩).worth :=
        Prod.ext (hrefs.trans (add_comm _ _)) rfl
      have hsemaphore : (({.device d}, {.semaphore s.hal}) : Multiset Ref × Multiset Res) =
          (HrxSemaphoreS.contents ⟨s.hal, d⟩).worth := rfl
      refine hworth.trans ?_
      rw [hstream, hsemaphore, worthOf_cons, worthOf_cons, worthOf_nil, add_zero, add_assoc]
      exact congrArg (v + ·) (add_comm _ _)

def CreateCall.MakesStream : CreateCall → Prop
  | streamCreate .. => True
  | _ => False

theorem CreateCall.run_ends (k : CreateCall) :
    Triple Always (fun _ mem ↦ worth mem = v ∧ ∀ r ∈ k.parent, ∃ n, cellOf mem r = some (n + 1))
      k.run
      (fun r _ mem ↦ Ended k.MakesStream v r mem) := by
  have hends : ∀ {m : Hrx Memory Returned} {P : Memory → Prop} {p : Prop}, Ends m →
      Triple Always (fun _ mem ↦ worth mem = v ∧ P mem) m (fun r _ mem ↦ Ended p v r mem) :=
    fun hm ↦ (hm v).mono (fun _ _ h ↦ h.1) fun _ _ _ h ↦ h.mono fun hp ↦ hp.elim
  rcases k.complete_or_refused with hcomplete | ⟨message, hrefused⟩
  · cases hcomplete with
    | allocateBuffer d params size =>
      exact hends fun v ↦ worth_call.bind fun s ↦ wrapBuffer_ends d s params.type size v
    | importBuffer d params hostPtr size =>
      exact hends fun v ↦ worth_call.bind fun s ↦ wrapBuffer_ends d s params.type size v
    | virtualMemoryReserve d affinity size =>
      exact hends fun v ↦ worth_call.bind fun s ↦ wrapBuffer_ends d s 0x30 size v
    | bufferAllocate s size memType usage => exact hends (bufferAllocate_ends s size memType usage)
    | semaphoreCreate d initialValue =>
      refine (semaphoreCreate_worth d initialValue).bind fun r ↦ ?_
      obtain ⟨st, sem⟩ := r
      cases sem with
      | none => exact .pure fun _ _ h ↦ .nothing h.1
      | some s =>
        refine .pure fun _ mem ⟨hst, _, hcell, hworth⟩ ↦ ?_
        obtain rfl : st = none := hst
        refine .made ⟨.semaphore s, HrxSemaphoreS.contents ⟨s.hal, d⟩⟩ [] rfl (fun y hy ↦ ?_)
          (fun _ h ↦ by cases h) ?_
        · obtain rfl := List.mem_singleton.mp hy
          exact ⟨Owner.semaphores.cellOf_of_cell hcell,
            congrArg (Option.map fun arc : Arc HrxSemaphoreS ↦ arc.data.contents) hcell⟩
        · rw [hworth, worthOf_cons, worthOf_nil, add_zero]
          rfl
    | streamCreate d flags =>
      exact (streamCreate_ends d flags).mono (fun _ _ h ↦ ⟨h.1, h.2 _ rfl⟩) fun _ _ _ h ↦
        h.mono fun _ ↦ trivial
    | executableLoadData d data size format =>
      exact hends (executableLoadData_ends d data size format)
    | executableLoadFile d path format => exact hends (executableLoadFile_ends d path format)
    | moduleLoadVmfb d data size => exact hends (moduleLoadVmfb_ends d data size)
    | lookupFunction m name => exact hends (lookupFunction_ends m name)
  · rw [hrefused]
    exact hends fun _ ↦ ended_error _ _

end Create

end HrxSystem.Libhrx
