import HrxSystem.Libhrx.Api

namespace HrxSystem.Libhrx

open External Program Counting

/-- What an object holds: references to IREE objects, and the references to other objects of the
library in the order in which it gives them up. -/
structure Contents where
  parts : Multiset Res
  refs : List Ref

def HrxDeviceS.contents (d : HrxDeviceS) : Contents := ⟨d.parts, []⟩

def HrxSemaphoreS.contents (s : HrxSemaphoreS) : Contents := ⟨s.parts, [.device s.device]⟩

def HrxStreamS.contents (s : HrxStreamS) : Contents :=
  ⟨0, [.semaphore s.semaphore, .device s.device]⟩

def HrxBufferS.contents (b : HrxBufferS) : Contents := ⟨b.parts, [.device b.device]⟩

def HrxExecutableS.contents (x : HrxExecutableS) : Contents := ⟨x.parts, [.device x.device]⟩

def HrxModuleS.contents (m : HrxModuleS) : Contents := ⟨m.parts, [.device m.device]⟩

def HrxFunctionS.contents (f : HrxFunctionS) : Contents := ⟨0, [.module_ f.module_]⟩

def contentsOf (mem : Memory) : Ref → Option Contents
  | .device d => (mem.devices.cell d.addr).map fun arc ↦ arc.data.contents
  | .semaphore s => (mem.semaphores.cell s.addr).map fun arc ↦ arc.data.contents
  | .stream a => (mem.streams.cell a).map fun arc ↦ arc.data.contents
  | .buffer b => (mem.buffers.cell b.addr).map fun arc ↦ arc.data.contents
  | .executable x => (mem.executables.cell x.addr).map fun arc ↦ arc.data.contents
  | .module_ m => (mem.modules.cell m.addr).map fun arc ↦ arc.data.contents
  | .function a => (mem.functions.cell a).map fun arc ↦ arc.data.contents

def giveUp : List Ref → Hrx Memory Unit
  | [] => return ()
  | r :: rs => do (Hold.ref r).release; giveUp rs

/-- Where the last reference to the object of `r` is given up, with contents `c`, each of its
references to IREE objects is released once, and then each of its other references is given up
once. -/
def DropsOnce (r : Ref) (c : Contents) : Prop :=
  ∀ o n mem, cellOf mem r = some 1 → contentsOf mem r = some c → ∃ own mem',
    allAcquired own = 0 ∧ allReleased own = c.parts ∧
    (∀ q, cellOf mem' q = if q = r then none else cellOf mem q) ∧
      (Hold.ref r).release.run o n mem = ((giveUp c.refs).run o (n + own.length) mem').after own

section GivesBack

variable {σ α β : Type} {r r' : Multiset Res} {c : Call}

def GivesBack (r : Multiset Res) (m : Hrx σ α) : Prop :=
  ∀ o n s, (m.run o n s).state = s ∧ allAcquired (m.run o n s).events = 0 ∧
    allReleased (m.run o n s).events = r

theorem GivesBack.bind {m : Hrx σ α} {k : α → Hrx σ β} (hm : GivesBack r m)
    (hk : ∀ x, GivesBack r' (k x)) :
    GivesBack (r + r') (m >>= k) := by
  intro o n s
  obtain ⟨hstate, hacq, hrel⟩ := hm o n s
  obtain ⟨hstate', hacq', hrel'⟩ :=
    hk (m.run o n s).val o (n + (m.run o n s).events.length) (m.run o n s).state
  rw [run_bind, Outcome.after_state, Outcome.after_events, allAcquired_append, allReleased_append]
  exact ⟨hstate'.trans hstate, by rw [hacq, hacq', add_zero], by rw [hrel, hrel']⟩

theorem GivesBack.call {x : Res} (hrel : ∀ e : Happened, e.call = c → released e = {x}) :
    GivesBack {x} (Program.call c : Hrx σ Happened) := by
  intro o n s
  rw [run_call, allAcquired_single, allReleased_single]
  exact ⟨rfl, acquired_releasing (hrel _ rfl), hrel _ rfl⟩

theorem GivesBack.idle {m : Hrx σ α} (hm : Aside (fun c ↦ Libhrx.idle c = true) m) :
    GivesBack 0 m := by
  intro o n s
  obtain ⟨hstate, hevents⟩ := hm o n s
  have hall : ∀ es : Trace, (∀ e ∈ es, Libhrx.idle e.call = true) → allAcquired es = 0 ∧
      allReleased es = 0 := by
    intro es hes
    induction es with
    | nil => exact ⟨rfl, rfl⟩
    | cons e es ih =>
      obtain ⟨hacq, hrel⟩ := ih fun x hx ↦ hes x (List.mem_cons_of_mem _ hx)
      have hidle := hes e (List.mem_cons_self ..)
      have hcons : e :: es = [e] ++ es := rfl
      rw [hcons, allAcquired_append, allReleased_append, allAcquired_single, allReleased_single,
        acquired_idle hidle, released_idle hidle, hacq, hrel]
      exact ⟨rfl, rfl⟩
  exact ⟨hstate, hall _ hevents⟩

theorem GivesBack.done {m : Hrx σ α} (hm : GivesBack r m) :
    GivesBack r (m >>= fun _ ↦ (pure () : Hrx σ Unit)) := by
  have h := hm.bind fun _ ↦ GivesBack.idle (m := (pure () : Hrx σ Unit)) (.pure ())
  rwa [add_zero] at h

end GivesBack

section GivesUp

variable {α : Type} {r p : Multiset Res} {xs : List Ref}

/-- A program that releases the IREE objects of `c` and then gives up its other references. -/
def GivesUp (c : Contents) (m : Hrx Memory Unit) : Prop :=
  ∀ o n mem, ∃ own : Trace, allAcquired own = 0 ∧ allReleased own = c.parts ∧
    m.run o n mem = ((giveUp c.refs).run o (n + own.length) mem).after own

theorem GivesUp.names {m : Hrx Memory Unit}
    (hm : ∀ o n mem, m.run o n mem = (giveUp xs).run o n mem) :
    GivesUp ⟨0, xs⟩ m := fun o n mem ↦ ⟨[], rfl, rfl, hm o n mem⟩

theorem GivesUp.after {m : Hrx Memory α} {k : α → Hrx Memory Unit} (hm : GivesBack r m)
    (hk : ∀ x, GivesUp ⟨p, xs⟩ (k x)) : GivesUp ⟨r + p, xs⟩ (m >>= k) := by
  intro o n mem
  obtain ⟨hstate, hacq, hrel⟩ := hm o n mem
  obtain ⟨own, hacq', hrel', hrun⟩ :=
    hk (m.run o n mem).val o (n + (m.run o n mem).events.length) (m.run o n mem).state
  refine ⟨(m.run o n mem).events ++ own, ?_, ?_, ?_⟩
  · rw [allAcquired_append, hacq, hacq', add_zero]
  · rw [allReleased_append, hrel, hrel']
  · rw [run_bind, hrun, hstate, List.length_append, ← Nat.add_assoc, Outcome.after_after]

theorem GivesUp.parts {m : Hrx Memory Unit} (hm : GivesBack r m) : GivesUp ⟨r, []⟩ m := by
  intro o n mem
  obtain ⟨hstate, hacq, hrel⟩ := hm o n mem
  refine ⟨(m.run o n mem).events, hacq, hrel, ?_⟩
  calc m.run o n mem = ⟨(), (m.run o n mem).state, (m.run o n mem).events⟩ := rfl
    _ = ⟨(), mem, (m.run o n mem).events ++ []⟩ := by rw [hstate, List.append_nil]

theorem GivesUp.last (x : Ref) : GivesUp ⟨0, [x]⟩ (Hold.ref x).release := by
  refine .names fun o n mem ↦ ?_
  simp only [giveUp, run_bind, run_pure, Outcome.after_mk, List.append_nil]

theorem releases_bufferRelease (b : Obj) :
    GivesBack (σ := Memory) {.buffer b} (call (.bufferRelease (some b))) :=
  .call fun e he ↦ by simp only [released, he]

theorem HrxDeviceS.drop_givesUp (x : HrxDeviceS) : GivesUp x.contents x.drop := by
  have hparts :
      x.parts =
        {.allocator x.halAllocator} + ({.group x.halDeviceGroup} + {.halDevice x.halDevice}) := by
    simp only [HrxDeviceS.parts, Multiset.insert_eq_cons, ← Multiset.singleton_add]
  rw [contents, hparts]
  refine .parts (.bind (.call fun e he ↦ by simp only [released, he]) fun _ ↦ ?_)
  refine .bind (.call fun e he ↦ by simp only [released, he]) fun _ ↦ ?_
  exact GivesBack.done (.call fun e he ↦ by simp only [released, he])

theorem semaphore_givesUp (x : HrxSemaphoreS) : GivesUp x.contents (do
    let _ ← call (.semaphoreRelease x.hal)
    hrxDeviceRelease x.device.addr) := by
  have hparts : x.parts = {.semaphore x.hal} + 0 := (add_zero _).symm
  rw [HrxSemaphoreS.contents, hparts]
  refine .after (.call fun e he ↦ by simp only [released, he]) fun _ ↦ ?_
  exact .last (.device x.device)

theorem stream_givesUp (x : HrxStreamS) : GivesUp x.contents (do
    focus x (fun _ mem ↦ mem) HrxStreamS.drop
    hrxSemaphoreRelease x.semaphore.addr
    hrxDeviceRelease x.device.addr) := by
  have hparts : (0 : Multiset Res) = 0 + 0 := rfl
  rw [HrxStreamS.contents, hparts]
  refine .after (.idle fun o n mem ↦ ⟨rfl, (drop_settled o n x).2⟩) fun _ ↦ .names fun o n mem ↦ ?_
  simp only [giveUp, Hold.release, run_bind, run_pure, Outcome.after_mk, List.append_nil]
  rfl

theorem dropPool_givesBack (pool : Option PoolPtr) :
    GivesBack (pool.elim 0 PoolPtr.parts) (HrxBufferS.dropPool pool) := by
  cases pool with
  | none => exact .idle (.pure ())
  | some q =>
    have hparts : Option.elim (some q) 0 PoolPtr.parts =
        0 + ({.notification q.notification} + ({.allocator q.allocator} + {.block q.addr})) := by
      simp only [Option.elim_some, PoolPtr.parts, Multiset.insert_eq_cons,
        ← Multiset.singleton_add, zero_add]
    rw [hparts]
    refine .bind (.idle (.call rfl)) fun _ ↦ ?_
    refine .bind (.call fun e he ↦ by simp only [released, he]) fun _ ↦ ?_
    refine .bind (.call fun e he ↦ by simp only [released, he]) fun _ ↦ ?_
    exact GivesBack.done (.call fun e he ↦ by simp only [released, he])

theorem HrxBufferS.drop_givesUp (x : HrxBufferS) : GivesUp x.contents x.drop := by
  have hparts : x.parts = 0 + ({.buffer x.halBuffer} + (x.halPool.elim 0 PoolPtr.parts + 0)) := by
    rw [HrxBufferS.parts, zero_add, add_zero]
  have hmap : Aside (fun c ↦ idle c = true) (HrxBufferS.dropMap x.map) := by
    cases x.map with
    | none => exact .pure ()
    | some m => exact .bind (.call rfl) fun _ ↦ .pure ()
  rw [contents, hparts]
  refine .after (.idle hmap) fun _ ↦ .after (releases_bufferRelease x.halBuffer) fun _ ↦ ?_
  exact .after (dropPool_givesBack x.halPool) fun _ ↦ .last (.device x.device)

theorem HrxExecutableS.drop_givesUp (x : HrxExecutableS) : GivesUp x.contents x.drop := by
  have hparts :
      x.parts = {.executable x.halExecutable} + ({.executableCache x.halExecutableCache} + 0) := by
    simp only [HrxExecutableS.parts, Multiset.insert_eq_cons, ← Multiset.singleton_add, add_zero]
  rw [contents, hparts]
  refine .after (.call fun e he ↦ by simp only [released, he]) fun _ ↦ ?_
  refine .after (.call fun e he ↦ by simp only [released, he]) fun _ ↦ ?_
  exact .last (.device x.device)

theorem HrxModuleS.drop_givesUp (x : HrxModuleS) : GivesUp x.contents x.drop := by
  have hparts :
      x.parts =
        {.context x.context} + ({.vmModule x.halModule} + ({.vmModule x.bytecodeModule} + 0)) := by
    simp only [HrxModuleS.parts, Multiset.insert_eq_cons, ← Multiset.singleton_add, add_zero]
  rw [contents, hparts]
  refine .after (.call fun e he ↦ by simp only [released, he]) fun _ ↦ ?_
  refine .after (.call fun e he ↦ by simp only [released, he]) fun _ ↦ ?_
  refine .after (.call fun e he ↦ by simp only [released, he]) fun _ ↦ ?_
  exact .last (.device x.device)

end GivesUp

section Last

variable {T : Type} (w : Owner T) {a : ℕ} {x : T} {mem : Memory} {c : Contents}

theorem run_handleRelease_last (hcell : (w.kind.heap mem).cell a = some ⟨1, x⟩) (o : Outside)
    (n : ℕ) :
    (handleRelease w.kind a).run o n mem =
      ⟨some x, w.kind.store ((w.kind.heap mem).put a none) mem, []⟩ := by
  simp [handleRelease, Heap.release, hcell]

/-- Where the last reference is given up the object goes, and `k` does the rest. -/
theorem Owner.last_dropped {contents : T → Contents} {k : Option T → Hrx Memory Unit}
    {m : Hrx Memory Unit} (hm : m = handleRelease w.kind a >>= k)
    (hk : ∀ y, GivesUp (contents y) (k (some y))) (hone : cellOf mem (w.name a x) = some 1)
    (hcontents : ((w.kind.heap mem).cell a).map (fun arc ↦ contents arc.data) = some c)
    (o : Outside) (n : ℕ) :
    ∃ own mem', allAcquired own = 0 ∧ allReleased own = c.parts ∧
      (∀ q, cellOf mem' q = if q = w.name a x then none else cellOf mem q) ∧
        m.run o n mem = ((giveUp c.refs).run o (n + own.length) mem').after own := by
  rw [w.cellOf_name] at hone
  obtain ⟨y, hcell, hname⟩ := strongOf_eq_some.mp hone
  have hname : w.name a y = w.name a x := by simpa using hname
  obtain rfl : contents y = c := by simpa [hcell] using hcontents
  obtain ⟨own, hacq, hrel, hrun⟩ := hk y o n (w.kind.store ((w.kind.heap mem).put a none) mem)
  refine ⟨own, w.kind.store ((w.kind.heap mem).put a none) mem, hacq, hrel, fun q ↦ ?_, ?_⟩
  · rw [← hname]
    split
    · rw [‹q = _›, w.cellOf_put, strongOf_none]
    · refine w.cellOf_put_of_ne _ (fun arc harc ↦ ?_) fun _ h ↦ by cases h
      obtain rfl := Option.some.inj (hcell.symm.trans harc)
      assumption
  · rw [hm, run_bind, run_handleRelease_last w hcell]
    exact hrun

end Last

/-- Dropping the last reference to any object releases each of its parts exactly once. -/
theorem dropsOnce (r : Ref) (c : Contents) : DropsOnce r c := by
  intro o n mem hone hcontents
  cases r with
  | device d =>
    exact Owner.devices.last_dropped
      (x := ⟨0, 0, d.halAllocator, d.halDeviceGroup, d.halDevice, [], []⟩) rfl
      HrxDeviceS.drop_givesUp hone hcontents o n
  | semaphore s =>
    exact Owner.semaphores.last_dropped (x := ⟨s.hal, ⟨0, 0, 0, 0⟩⟩) rfl semaphore_givesUp hone
      hcontents o n
  | stream a =>
    exact Owner.streams.last_dropped (x := ⟨0, none, false, 0, .null, ⟨0, 0, 0, 0⟩⟩) rfl
      stream_givesUp hone hcontents o n
  | buffer b =>
    exact Owner.buffers.last_dropped (x := ⟨none, b.hal, none, ⟨0, 0, 0, 0⟩, 0, 0⟩) rfl
      HrxBufferS.drop_givesUp hone hcontents o n
  | executable x =>
    exact Owner.executables.last_dropped (x := ⟨x.hal, 0, ⟨0, 0, 0, 0⟩⟩) rfl
      HrxExecutableS.drop_givesUp hone hcontents o n
  | module_ m =>
    exact Owner.modules.last_dropped (x := ⟨m.context, 0, 0, ⟨0, 0, 0, 0⟩⟩) rfl
      HrxModuleS.drop_givesUp hone hcontents o n
  | function f =>
    exact Owner.functions.last_dropped (x := ⟨⟨0, 0⟩, 0⟩) rfl
      (fun y ↦ .last (.module_ y.module_)) hone hcontents o n

end HrxSystem.Libhrx
