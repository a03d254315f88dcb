import HrxSystem.Libhrx.Drops
import HrxSystem.Threads.Sharing

namespace HrxSystem.Libhrx.SharedHandles

open External Program Counting Threads Sharing

inductive IsObject : Ref → Contents → Prop
  | device (x : HrxDeviceS) (a : ℕ) : IsObject (.device (x.ptr a)) x.contents
  | semaphore (x : HrxSemaphoreS) (a : ℕ) : IsObject (.semaphore (x.ptr a)) x.contents
  | stream (x : HrxStreamS) (a : ℕ) : IsObject (.stream a) x.contents
  | buffer (x : HrxBufferS) (a : ℕ) : IsObject (.buffer (x.ptr a)) x.contents
  | executable (x : HrxExecutableS) (a : ℕ) : IsObject (.executable (x.ptr a)) x.contents
  | module_ (x : HrxModuleS) (a : ℕ) : IsObject (.module_ (x.ptr a)) x.contents
  | function (x : HrxFunctionS) (a : ℕ) : IsObject (.function a) x.contents

def rank : Ref → ℕ
  | .device _ => 0
  | .semaphore _ | .buffer _ | .executable _ | .module_ _ => 1
  | .stream _ | .function _ => 2

theorem IsObject.below {r q : Ref} {c : Contents} (h : IsObject r c) (hq : q ∈ c.refs) :
    rank q < rank r := by
  cases h with
  | device => cases hq
  | semaphore | buffer | executable | module_ | function =>
    rw [List.mem_singleton.mp hq]
    exact Nat.lt_succ_self _
  | stream =>
    obtain rfl | hq := List.mem_cons.mp hq
    · exact Nat.lt_succ_self 1
    · rw [List.mem_singleton.mp hq]
      exact Nat.zero_lt_two

/-- The objects of the library, as threads share them. -/
def handles : Layout Ref Contents Res where
  parts := Contents.parts
  refs c := c.refs
  fits := IsObject
  rank := rank
  below _ _ h _ hq := h.below hq

section Memory

/-- The strong count of an object, and what it holds. -/
def objectOf (mem : Memory) (r : Ref) : Option (ℕ × Contents) :=
  (cellOf mem r).bind fun n ↦ (contentsOf mem r).map (Prod.mk n)

/-- A kind of object with what its objects hold and how they are dropped. -/
structure Handled (T : Type) extends Owner T where
  contents : T → Contents
  drop : T → Hrx Memory Unit
  contentsOf_name : ∀ mem a x, contentsOf mem (name a x) = ((kind.heap mem).cell a).map fun arc ↦
    contents arc.data
  contentsOf_store : ∀ mem h r, (∀ a x, r ≠ name a x) →
    contentsOf (kind.store h mem) r = contentsOf mem r
  givesUp : ∀ x, GivesUp (contents x) (drop x)
  isObject : ∀ x a, IsObject (name a x) (contents x)

namespace Handled

def devices : Handled HrxDeviceS where
  toOwner := .devices
  contents := HrxDeviceS.contents
  drop := HrxDeviceS.drop
  contentsOf_name _ _ _ := rfl
  contentsOf_store _ _ r hr := by
    cases r with
    | device d =>
      exact absurd rfl (hr d.addr ⟨0, 0, d.halAllocator, d.halDeviceGroup, d.halDevice, [], []⟩)
    | _ => rfl
  givesUp := HrxDeviceS.drop_givesUp
  isObject := .device

def semaphores : Handled HrxSemaphoreS where
  toOwner := .semaphores
  contents := HrxSemaphoreS.contents
  drop s := do
    let _ ← call (.semaphoreRelease s.hal)
    hrxDeviceRelease s.device.addr
  contentsOf_name _ _ _ := rfl
  contentsOf_store _ _ r hr := by
    cases r with
    | semaphore s => exact absurd rfl (hr s.addr ⟨s.hal, ⟨0, 0, 0, 0⟩⟩)
    | _ => rfl
  givesUp := semaphore_givesUp
  isObject := .semaphore

def streams : Handled HrxStreamS where
  toOwner := .streams
  contents := HrxStreamS.contents
  drop st := do
    focus st (fun _ mem ↦ mem) HrxStreamS.drop
    hrxSemaphoreRelease st.semaphore.addr
    hrxDeviceRelease st.device.addr
  contentsOf_name _ _ _ := rfl
  contentsOf_store _ _ r hr := by
    cases r with
    | stream a => exact absurd rfl (hr a ⟨0, none, false, 0, .null, ⟨0, 0, 0, 0⟩⟩)
    | _ => rfl
  givesUp := stream_givesUp
  isObject := .stream

def buffers : Handled HrxBufferS where
  toOwner := .buffers
  contents := HrxBufferS.contents
  drop := HrxBufferS.drop
  contentsOf_name _ _ _ := rfl
  contentsOf_store _ _ r hr := by
    cases r with
    | buffer b => exact absurd rfl (hr b.addr ⟨none, b.hal, none, ⟨0, 0, 0, 0⟩, 0, 0⟩)
    | _ => rfl
  givesUp := HrxBufferS.drop_givesUp
  isObject := .buffer

def executables : Handled HrxExecutableS where
  toOwner := .executables
  contents := HrxExecutableS.contents
  drop := HrxExecutableS.drop
  contentsOf_name _ _ _ := rfl
  contentsOf_store _ _ r hr := by
    cases r with
    | executable x => exact absurd rfl (hr x.addr ⟨x.hal, 0, ⟨0, 0, 0, 0⟩⟩)
    | _ => rfl
  givesUp := HrxExecutableS.drop_givesUp
  isObject := .executable

def modules : Handled HrxModuleS where
  toOwner := .modules
  contents := HrxModuleS.contents
  drop := HrxModuleS.drop
  contentsOf_name _ _ _ := rfl
  contentsOf_store _ _ r hr := by
    cases r with
    | module_ m => exact absurd rfl (hr m.addr ⟨m.context, 0, 0, ⟨0, 0, 0, 0⟩⟩)
    | _ => rfl
  givesUp := HrxModuleS.drop_givesUp
  isObject := .module_

def functions : Handled HrxFunctionS where
  toOwner := .functions
  contents := HrxFunctionS.contents
  drop f := hrxModuleRelease f.module_.addr
  contentsOf_name _ _ _ := rfl
  contentsOf_store _ _ r hr := by
    cases r with
    | function a => exact absurd rfl (hr a ⟨⟨0, 0⟩, 0⟩)
    | _ => rfl
  givesUp f := .last (.module_ f.module_)
  isObject := .function

variable {T : Type} (w : Handled T) {mem : Memory} {a n : ℕ} {x : T} {v : Option (Arc T)} {r : Ref}
  {c : Contents}

theorem objectOf_name (hcell : (w.kind.heap mem).cell a = some ⟨n, x⟩) :
    objectOf mem (w.name a x) = some (n, w.contents x) := by
  have hcount : cellOf mem (w.name a x) = some n := w.cellOf_of_cell hcell
  rw [objectOf, hcount, w.contentsOf_name, hcell]
  rfl

theorem cell_of_objectOf (h : objectOf mem (w.name a x) = some (n, c)) :
    ∃ y, (w.kind.heap mem).cell a = some ⟨n, y⟩ ∧ w.name a y = w.name a x ∧ w.contents y = c := by
  obtain ⟨n', hn, hmap⟩ := Option.bind_eq_some_iff.mp h
  rw [w.cellOf_name] at hn
  obtain ⟨y, hcell, hy⟩ := strongOf_eq_some.mp hn
  rw [w.contentsOf_name, hcell] at hmap
  obtain ⟨rfl, rfl⟩ := Prod.mk.inj (Option.some.inj hmap)
  exact ⟨y, hcell, by simpa using hy, rfl⟩

theorem objectOf_put
    (hold : ∀ arc, (w.kind.heap mem).cell a = some arc → w.name a arc.data = w.name a x)
    (hnew : ∀ arc, v = some arc → arc.data = x) (r : Ref) :
    objectOf (w.kind.store ((w.kind.heap mem).put a v) mem) r =
      if r = w.name a x then v.map fun arc ↦ (arc.strong, w.contents x) else objectOf mem r := by
  split
  · subst r
    cases v with
    | none =>
      rw [objectOf, w.cellOf_put]
      rfl
    | some arc =>
      obtain ⟨n, y⟩ := arc
      obtain rfl : y = x := hnew _ rfl
      exact w.objectOf_name (by rw [w.kind.heap_store, Heap.put_cell_self])
  · rename_i hr
    have hcount : cellOf (w.kind.store ((w.kind.heap mem).put a v) mem) r = cellOf mem r := by
      refine w.cellOf_put_of_ne v (fun arc harc ↦ ?_) fun arc harc ↦ ?_
      · rwa [hold arc harc]
      · rwa [hnew arc harc]
    by_cases hname : ∃ b y, r = w.name b y
    · obtain ⟨b, y, rfl⟩ := hname
      by_cases hb : b = a
      · subst hb
        have hnone : cellOf mem (w.name b y) = none := by
          rw [w.cellOf_name]
          refine w.strongOf_of_ne fun arc harc ↦ ?_
          rwa [hold arc harc]
        rw [objectOf, objectOf, hcount, hnone]
        rfl
      · rw [objectOf, objectOf, hcount, w.contentsOf_name, w.contentsOf_name, w.kind.heap_store,
          Heap.put_cell_of_ne _ _ hb]
    · have hother :=
        w.contentsOf_store mem ((w.kind.heap mem).put a v) r fun b y h ↦ hname ⟨b, y, h⟩
      rw [objectOf, objectOf, hcount, hother]

end Handled

theorem handled (r : Ref) : ∃ (T : Type) (w : Handled T) (a : ℕ) (x : T), r = w.name a x ∧
    (Hold.ref r).retain = handleRetain w.kind a ∧
      (Hold.ref r).release = handleRelease w.kind a >>= fun y ↦ y.elim (pure ()) w.drop := by
  cases r with
  | device d =>
    exact ⟨_, .devices, d.addr, ⟨0, 0, d.halAllocator, d.halDeviceGroup, d.halDevice, [], []⟩, rfl,
      rfl, congrArg (handleRelease .devices d.addr >>= ·) (funext fun y ↦ by cases y <;> rfl)⟩
  | semaphore s =>
    exact ⟨_, .semaphores, s.addr, ⟨s.hal, ⟨0, 0, 0, 0⟩⟩, rfl, rfl,
      congrArg (handleRelease .semaphores s.addr >>= ·) (funext fun y ↦ by cases y <;> rfl)⟩
  | stream a =>
    exact ⟨_, .streams, a, ⟨0, none, false, 0, .null, ⟨0, 0, 0, 0⟩⟩, rfl, rfl,
      congrArg (handleRelease .streams a >>= ·) (funext fun y ↦ by cases y <;> rfl)⟩
  | buffer b =>
    exact ⟨_, .buffers, b.addr, ⟨none, b.hal, none, ⟨0, 0, 0, 0⟩, 0, 0⟩, rfl, rfl,
      congrArg (handleRelease .buffers b.addr >>= ·) (funext fun y ↦ by cases y <;> rfl)⟩
  | executable x =>
    exact ⟨_, .executables, x.addr, ⟨x.hal, 0, ⟨0, 0, 0, 0⟩⟩, rfl, rfl,
      congrArg (handleRelease .executables x.addr >>= ·) (funext fun y ↦ by cases y <;> rfl)⟩
  | module_ m =>
    exact ⟨_, .modules, m.addr, ⟨m.context, 0, 0, ⟨0, 0, 0, 0⟩⟩, rfl, rfl,
      congrArg (handleRelease .modules m.addr >>= ·) (funext fun y ↦ by cases y <;> rfl)⟩
  | function a =>
    exact ⟨_, .functions, a, ⟨⟨0, 0⟩, 0⟩, rfl, rfl,
      congrArg (handleRelease .functions a >>= ·) (funext fun y ↦ by cases y <;> rfl)⟩

section Runs

variable {mem : Memory} {r : Ref} {n : ℕ} {c : Contents} (o : Outside) (k : ℕ)

theorem run_retain (h : objectOf mem r = some (n, c)) :
    ∃ mem', (Hold.ref r).retain.run o k mem = ⟨(), mem', []⟩ ∧
      ∀ q, objectOf mem' q = if q = r then some (n + 1, c) else objectOf mem q := by
  obtain ⟨T, w, a, x, rfl, hretain, -⟩ := handled r
  obtain ⟨y, hcell, hname, rfl⟩ := w.cell_of_objectOf h
  refine ⟨w.kind.store ((w.kind.heap mem).put a (some ⟨n + 1, y⟩)) mem, ?_, ?_⟩
  · rw [hretain, handleRetain, run_update, Heap.retain, hcell]
  · rw [← hname]
    refine w.objectOf_put (fun arc harc ↦ ?_) fun arc harc ↦ by rw [← Option.some.inj harc]
    rw [← Option.some.inj (hcell.symm.trans harc)]

theorem run_release_again (h : objectOf mem r = some (n + 2, c)) :
    ∃ mem', (Hold.ref r).release.run o k mem = ⟨(), mem', []⟩ ∧
      ∀ q, objectOf mem' q = if q = r then some (n + 1, c) else objectOf mem q := by
  obtain ⟨T, w, a, x, rfl, -, hrelease⟩ := handled r
  obtain ⟨y, hcell, hname, rfl⟩ := w.cell_of_objectOf h
  refine ⟨w.kind.store ((w.kind.heap mem).put a (some ⟨n + 1, y⟩)) mem, ?_, ?_⟩
  · simp [hrelease, handleRelease, Heap.release, hcell]
  · rw [← hname]
    refine w.objectOf_put (fun arc harc ↦ ?_) fun arc harc ↦ by rw [← Option.some.inj harc]
    rw [← Option.some.inj (hcell.symm.trans harc)]

/-- Where the last reference is given up the object goes, and what it holds is given up. -/
theorem run_release_last (h : objectOf mem r = some (1, c)) :
    ∃ own mem', allAcquired own = 0 ∧ allReleased own = c.parts ∧
      (∀ q, objectOf mem' q = if q = r then none else objectOf mem q) ∧
        (Hold.ref r).release.run o k mem =
          ((giveUp c.refs).run o (k + own.length) mem').after own := by
  obtain ⟨T, w, a, x, rfl, -, hrelease⟩ := handled r
  obtain ⟨y, hcell, hname, rfl⟩ := w.cell_of_objectOf h
  obtain ⟨own, hacq, hrel, hrun⟩ :=
    w.givesUp y o k (w.kind.store ((w.kind.heap mem).put a none) mem)
  refine ⟨own, w.kind.store ((w.kind.heap mem).put a none) mem, hacq, hrel, ?_, ?_⟩
  · rw [← hname]
    refine w.objectOf_put (x := y) (fun arc harc ↦ ?_) fun arc harc ↦ by cases harc
    rw [← Option.some.inj (hcell.symm.trans harc)]
  · rw [hrelease, run_bind, run_handleRelease_last w.toOwner hcell]
    exact hrun

theorem run_intoHandle {T : Type} (w : Handled T) (x : T) (mem : Memory) :
    ∃ a mem', objectOf mem (w.name a x) = none ∧
      (intoHandle w.kind x).run o k mem = ⟨a, mem', [happens o k .arcNew]⟩ ∧
      ∀ q, objectOf mem' q = if q = w.name a x then some (1, w.contents x) else objectOf mem q := by
  let a := (w.kind.heap mem).fresh (happens o k .arcNew).answer.value
  have hfresh : (w.kind.heap mem).cell a = none := Heap.fresh_cell _ _
  refine ⟨a, w.kind.store ((w.kind.heap mem).put a (some ⟨1, x⟩)) mem, ?_, ?_, ?_⟩
  · rw [objectOf, w.cellOf_name, hfresh]
    rfl
  · simp [intoHandle, a]
  · refine w.objectOf_put (fun arc harc ↦ ?_) fun arc harc ↦ by rw [← Option.some.inj harc]
    rw [hfresh] at harc
    cases harc

end Runs

end Memory

section Steps

variable {mem mem' : Memory} {t : Cells Ref (ℕ × Contents)} {r : Ref} {u v : Option (ℕ × Contents)}

/-- The objects that threads share are those in memory, as far as they are not being dropped. -/
def Shows (mem : Memory) (t : Cells Ref (ℕ × Contents)) : Prop :=
  ∀ r n c, t.cell r = some (n + 1, c) ↔ objectOf mem r = some (n + 1, c)

theorem Shows.put (h : Shows mem t)
    (hmem : ∀ q, objectOf mem' q = if q = r then v else objectOf mem q)
    (huv : ∀ n c, u = some (n + 1, c) ↔ v = some (n + 1, c)) : Shows mem' (t.put r u) := by
  intro q n c
  rw [hmem]
  split
  · subst q
    rw [Cells.put_cell_self]
    exact huv n c
  · rename_i hq
    rw [Cells.put_cell_of_ne t u hq]
    exact h q n c

/-- A program does what a thread with the tasks `us` can do, whatever other threads there are. -/
def Simulated (m : Hrx Memory Unit) (us : List (Task Ref Res)) : Prop :=
  ∀ o n mem t ls ts others, Inv handles ls t ({us ++ ts} + others) → Shows mem t →
    ∃ ms t', Pool.Run (Step handles) ⟨t, {us ++ ts}⟩ ms ⟨t', {ts}⟩ ∧
    Shows (m.run o n mem).state t' ∧
      allReleased (m.run o n mem).events = releasedParts ms ∧ allAcquired (m.run o n mem).events = 0

theorem Simulated.nothing : Simulated (pure ()) [] := fun _ _ _ t _ _ _ _ hshows ↦
  ⟨[], t, .start, hshows, rfl, rfl⟩

theorem Simulated.bind {m : Hrx Memory Unit} {k : Unit → Hrx Memory Unit}
    {us vs : List (Task Ref Res)} (hm : Simulated m us) (hk : Simulated (k ()) vs) :
    Simulated (m >>= k) (us ++ vs) := by
  intro o n mem t ls ts others hinv hshows
  rw [List.append_assoc] at hinv ⊢
  obtain ⟨ms, t', hrun, hshows', hrel, hacq⟩ := hm o n mem t ls (vs ++ ts) others hinv hshows
  obtain ⟨ms', t'', hrun', hshows'', hrel', hacq'⟩ :=
    hk o (n + (m.run o n mem).events.length) (m.run o n mem).state t'
    (ls ++ ms) ts others (hinv.run (hrun.beside others)) hshows'
  refine ⟨ms ++ ms', t'', hrun.trans hrun', ?_, ?_, ?_⟩
  · rwa [run_bind, Outcome.after_state]
  · rw [run_bind, Outcome.after_events, allReleased_append, releasedParts_append, hrel, hrel']
  · rw [run_bind, Outcome.after_events, allAcquired_append, hacq, hacq', add_zero]

theorem Simulated.giveUp {rs : List Ref} (h : ∀ r ∈ rs, Simulated (Hold.ref r).release [.give r]) :
    Simulated (giveUp rs) (rs.map .give) := by
  induction rs with
  | nil => exact .nothing
  | cons r rs ih =>
    have hfirst := h r List.mem_cons_self
    exact hfirst.bind (ih fun q hq ↦ h q (List.mem_cons_of_mem r hq))

/-- Releasing a reference is giving it up, and all that its object held if it was the last one. -/
theorem simulated_release (r : Ref) : Simulated (Hold.ref r).release [.give r] := by
  induction hk : rank r using Nat.strong_induction_on generalizing r with
  | _ k ih =>
    intro o n mem t ls ts others hinv hshows
    obtain ⟨m, c, hcell⟩ := hinv.live_of_give
    have hobject := (hshows r m c).mp hcell
    cases m with
    | succ m =>
      obtain ⟨mem', hrun, hmem⟩ := run_release_again o n hobject
      refine ⟨[], t.put r (some (m + 1, c)), .one (.give hcell), ?_, ?_, ?_⟩
      · rw [hrun]
        exact hshows.put hmem fun _ _ ↦ Iff.rfl
      · rw [hrun]
        rfl
      · rw [hrun]
        rfl
    | zero =>
      obtain ⟨own, mem', hacq, hrel, hmem, hrun⟩ := run_release_last o n hobject
      let parts : List (Task Ref Res) := c.parts.toList.map .part
      let us : List (Task Ref Res) := parts ++ (c.refs.map .give ++ [.free r])
      have hus :
          (us : Multiset (Task Ref Res)) = (handles.parts c).map .part + (handles.refs c).map
          .give + {.free r} := by
        have hparts : (parts : Multiset (Task Ref Res)) = c.parts.map .part := by
          rw [← Multiset.map_coe, Multiset.coe_toList]
        rw [← Multiset.coe_add, ← Multiset.coe_add, hparts, ← add_assoc]
        rfl
      have hlast :
          Pool.Run (Step handles) ⟨t, {[.give r] ++ ts}⟩ [] ⟨t.put r (some (0, c)), {us ++ ts}⟩ :=
        .one (.last hcell hus)
      have happend : us ++ ts = parts ++ (c.refs.map .give ++ .free r :: ts) := by simp [us]
      rw [happend] at hlast
      have hdropped := hlast.trans (run_parts c.parts.toList _)
      have hshown : Shows mem' (t.put r (some (0, c))) := hshows.put hmem fun _ _ ↦ by simp
      -- What the object held has a lower rank.
      have hgive :=
        Simulated.giveUp fun q hq ↦ ih (rank q) (hk ▸ (hinv.fits r _ c hcell).below hq) q rfl
      have hinv' := hinv.run (hdropped.beside others)
      obtain ⟨ms, t', hrun', hshows', hrel', hacq'⟩ :=
        hgive o (n + own.length) mem' _ _ _ others hinv' hshown
      have hinv'' := hinv'.run (hrun'.beside others)
      obtain ⟨c', hfree⟩ := hinv''.dropped_of_free
      refine ⟨_, t'.put r none, (hdropped.trans hrun').trans (.one .free), ?_, ?_, ?_⟩
      · rw [hrun, Outcome.after_state]
        refine hshows'.put (v := objectOf ((giveUp c.refs).run o (n + own.length) mem').state r)
          (fun q ↦ ?_) fun i d ↦ ?_
        · split
          · subst q
            rfl
          · rfl
        · rw [← hshows' r i d, hfree]
          simp
      · have hparts : releasedParts
            (c.parts.toList.map fun x ↦ (.released x : ShareEvent Ref Contents Res)) = c.parts := by
          simp [releasedParts, List.filterMap_map]
        rw [hrun, Outcome.after_events, allReleased_append, hrel, hrel', releasedParts_append,
          releasedParts_append, releasedParts_append, hparts]
        simp [releasedParts]
      · rw [hrun, Outcome.after_events, allAcquired_append, hacq, hacq', add_zero]

/-- Retaining a reference that a thread has is a step of that thread. -/
theorem retain_step {ls : List (ShareEvent Ref Contents Res)}
    {others : Multiset (List (Task Ref Res))} (hinv : Inv handles ls t ({[.give r]} + others))
    (hshows : Shows mem t) (o : Outside) (n : ℕ) :
    ∃ t', Step handles t {[.give r]} [] t' {[.give r], [.give r]} ∧
      Shows ((Hold.ref r).retain.run o n mem).state t' := by
  obtain ⟨m, c, hcell⟩ := hinv.live_of_give
  obtain ⟨mem', hrun, hmem⟩ := run_retain o n ((hshows r m c).mp hcell)
  refine ⟨_, .retain hcell, ?_⟩
  rw [hrun]
  exact hshows.put hmem fun _ _ ↦ Iff.rfl

/-- `into_handle` takes the references that the new object holds, unless the address is that of an
object which another thread is dropping. -/
theorem intoHandle_step {T : Type} (w : Handled T) (x : T) (hshows : Shows mem t)
    (hdropped : ∀ q c, t.cell q ≠ some (0, c)) (o : Outside) (n : ℕ) :
    ∃ a t', ((intoHandle w.kind x).run o n mem).val = a ∧
      Step handles t (((w.contents x).refs : Multiset Ref).map fun q ↦ [.give q])
        [.made (w.name a x) (w.contents x)]
        t' {[.give (w.name a x)]} ∧ Shows ((intoHandle w.kind x).run o n mem).state t' := by
  obtain ⟨a, mem', hnone, hrun, hmem⟩ := run_intoHandle o n w x mem
  have hcell : t.cell (w.name a x) = none := by
    cases hsome : t.cell (w.name a x) with
    | none => rfl
    | some v =>
      obtain ⟨m, c⟩ := v
      cases m with
      | zero => exact absurd hsome (hdropped _ c)
      | succ m =>
        have hobject := (hshows _ m c).mp hsome
        rw [hnone] at hobject
        cases hobject
  refine ⟨a, _, by rw [hrun], .make hcell (w.isObject x a), ?_⟩
  rw [hrun]
  exact hshows.put hmem fun _ _ ↦ Iff.rfl

end Steps

/-- However threads take turns in making, retaining and releasing handles: whatever a thread holds,
and what that holds in turn, is live. Each object is freed once, after the last reference to it, and
its parts are released once. No thread is ever stuck, and when nobody has a handle left nothing
is. -/
theorem shared_handles_dropped_once {ls : List (ShareEvent Ref Contents Res)}
    {t : Cells Ref (ℕ × Contents)} {xs : Multiset (List (Task Ref Res))}
    (h : Pool.Run (Step handles) ⟨.empty, 0⟩ ls ⟨t, xs⟩) :
    (∀ r ∈ outstanding Task.gives xs, ∃ n c, t.cell r = some (n + 1, c) ∧ ∀ q ∈ c.refs, ∃ m d,
      t.cell q = some (m + 1, d)) ∧
      (∀ r, (madeNames ls).count r = (freedObjects ls).count r + (t.cell r).elim 0 fun _ ↦ 1) ∧
      ownedParts handles ls = releasedParts ls + t.total
        (whileLive Contents.parts) + outstanding Task.parts xs ∧
      (∃ ms t', Pool.Run (Step handles) ⟨t, xs⟩ ms ⟨t', 0⟩ ∧ madeObjects ms = 0) ∧
      (xs = 0 → (∀ r, t.cell r = none) ∧ freedObjects ls = madeNames ls ∧
        releasedParts ls = ownedParts handles ls) := by
  have hinv := Inv.of_run h
  refine ⟨fun r hr ↦ ?_, hinv.freed, hinv.settled, hinv.drains, ?_⟩
  · obtain ⟨n, c, hcell⟩ := hinv.live (Multiset.mem_add.mpr (.inl hr))
    refine ⟨n, c, hcell, fun q hq ↦ hinv.live (Multiset.mem_add.mpr (.inr ?_))⟩
    exact Cells.mem_total.mpr ⟨r, _, hcell, hq⟩
  · rintro rfl
    have hnone := hinv.nothing
    refine ⟨hnone, Multiset.ext.mpr fun r ↦ ?_, ?_⟩
    · have hfreed := hinv.freed r
      rw [hnone, Option.elim_none, add_zero] at hfreed
      exact hfreed.symm
    · have hempty : t.total (whileLive Contents.parts) = 0 := by
        refine Multiset.eq_zero_of_forall_notMem fun x hx ↦ ?_
        obtain ⟨r, v, hcell, -⟩ := Cells.mem_total.mp hx
        rw [hnone] at hcell
        cases hcell
      have hsettled := hinv.settled
      rw [outstanding_zero, add_zero] at hsettled
      change _ = _ + t.total (whileLive Contents.parts) at hsettled
      rw [hempty, add_zero] at hsettled
      exact hsettled.symm

theorem shared_handles_dropped_once_device :
    ∃ ls : List (ShareEvent Ref Contents Res),
      madeNames ls = {Ref.device ⟨1, 4, 2, 3⟩, Ref.semaphore ⟨1, 0⟩} ∧
      freedObjects ls = madeNames ls ∧
        releasedParts ls = {Res.allocator 2, Res.group 3, Res.halDevice 4, Res.semaphore 0} := by
  let d : HrxDeviceS := ⟨0, 0, 2, 3, 4, [], []⟩
  let s : HrxSemaphoreS := ⟨0, ⟨1, 4, 2, 3⟩⟩
  let q : Ref := .device (d.ptr 1)
  let r : Ref := .semaphore (s.ptr 1)
  have hdevice :
      Step handles .empty 0 [.made q d.contents] (Cells.empty.put q (some (1, d.contents)))
        {[.give q]} :=
    @Step.make _ _ _ _ handles .empty q d.contents rfl (.device d 1)
  have hboth := (Pool.Run.one hdevice).trans (.one (.retain (Cells.put_cell_self ..)))
  have hsemaphore : ∀ t : Cells Ref (ℕ × Contents), t.cell r = none →
      Step handles t {[.give q]} [.made r s.contents] (t.put r (some (1, s.contents)))
        {[.give r]} :=
    fun t hr ↦ @Step.make _ _ _ _ handles t r s.contents hr (.semaphore s 1)
  have hmade := Pool.Run.step {[.give q]} hboth (hsemaphore _ rfl)
  obtain ⟨-, -, -, ⟨ms, t', hrun, hnone⟩, -⟩ := shared_handles_dropped_once hmade
  obtain ⟨-, -, -, -, hdone⟩ := shared_handles_dropped_once (hmade.trans hrun)
  obtain ⟨-, hfreed, hreleased⟩ := hdone rfl
  refine ⟨_, ?_, hfreed, ?_⟩
  · rw [madeNames, madeObjects_append, hnone]
    rfl
  · rw [hreleased, ownedParts, madeObjects_append, hnone]
    rfl

end HrxSystem.Libhrx.SharedHandles
