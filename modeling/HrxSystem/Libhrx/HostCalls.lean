import HrxSystem.Libhrx.SemaphoreLists
import HrxSystem.Libhrx.StatusCodes
import HrxSystem.Threads.Pool

namespace HrxSystem.Libhrx.HostCalls

open External Program Threads SemaphoreLists

structure HostCallThunk where
  callback : ℕ
  userData : ℕ
deriving DecidableEq

abbrev ThunkHeap := Obj → Option (Option HostCallThunk)

/-- What is seen of a host call: libc and IREE being asked, and the callback being called. -/
inductive HostCallEvent
  | allocated (thunk : Obj)
  | accepted (thunk : Obj) (t : HostCallThunk)
  | refused (thunk : Obj)
  | invoked (thunk : Obj) (t : HostCallThunk)
  | freed (thunk : Obj)
deriving DecidableEq

/-- What a thread in `hrx_queue_host_call` or `host_call_trampoline` is about to do. -/
inductive HostCallThread
  | entered (device : HrxDevice) (callback : Option ℕ) (userData : ℕ)
  | allocated (thunk : Obj) (t : HostCallThunk)
  | filled (thunk : Obj) (t : HostCallThunk)
  | refused (thunk : Obj)
  /-- IREE has accepted the call, and some thread of it is to run the trampoline. -/
  | queued (thunk : Obj)
  | started (thunk : Obj)
  | returned (thunk : Obj)

/-- The steps of the threads. -/
inductive Next : Rule HostCallEvent ThunkHeap HostCallThread
  | enter {heap : ThunkHeap} (device : HrxDevice) (callback : Option ℕ) (userData : ℕ) :
      Next heap 0 [] heap {.entered device callback userData}
  /-- The arguments are refused, or there is no room for the thunk. -/
  | fail {heap : ThunkHeap} {device : HrxDevice} {callback : Option ℕ} {userData : ℕ} :
      Next heap {.entered device callback userData} [] heap 0
  | malloc {heap : ThunkHeap} {d : DevicePtr} {callback userData : ℕ} {p : Obj} : heap p = none →
      Next heap {.entered (some d) (some callback) userData} [.allocated p]
        (Function.update heap p (some none))
        {.allocated p ⟨callback, userData⟩}
  | fill {heap : ThunkHeap} {p : Obj} {t : HostCallThunk} :
      Next heap {.allocated p t} [] (Function.update heap p (some (some t))) {.filled p t}
  | submit {heap : ThunkHeap} {p : Obj} {t : HostCallThunk} : Next heap {.filled p t}
      [.accepted p t] heap {.queued p}
  | refuse {heap : ThunkHeap} {p : Obj} {t : HostCallThunk} : Next heap {.filled p t}
      [.refused p] heap {.refused p}
  | freeRefused {heap : ThunkHeap} {p : Obj} : Next heap {.refused p} [.freed p]
      (Function.update heap p none) 0
  | start {heap : ThunkHeap} {p : Obj} : Next heap {.queued p} [] heap {.started p}
  /-- The trampoline reads the thunk that it was given. -/
  | invoke {heap : ThunkHeap} {p : Obj} {t : HostCallThunk} : heap p = some (some t) →
      Next heap {.started p} [.invoked p t] heap {.returned p}
  | freeReturned {heap : ThunkHeap} {p : Obj} : Next heap {.returned p} [.freed p]
      (Function.update heap p none) 0

namespace HostCallThread

def thunk : HostCallThread → Multiset Obj
  | entered .. => 0
  | allocated p _ | filled p _ | refused p | queued p | started p | returned p => {p}

def Holds (heap : ThunkHeap) : HostCallThread → Prop
  | filled p t => heap p = some (some t)
  | queued p | started p => ∃ t, heap p = some (some t)
  | _ => True

def awaited (heap : ThunkHeap) : HostCallThread → Multiset HostCallThunk
  | queued p | started p => (heap p).join.elim 0 ({·})
  | _ => 0

variable {heap : ThunkHeap} {x : HostCallThread} {p : Obj}

theorem holds_update (hp : p ∉ x.thunk) (v : Option (Option HostCallThunk)) :
    x.Holds (Function.update heap p v) ↔ x.Holds heap := by
  cases x with
  | filled q t | queued q | started q =>
    simp [Holds, Function.update_of_ne (Ne.symm (Multiset.mem_singleton.not.mp hp))]
  | _ => rfl

theorem awaited_update (hp : p ∉ x.thunk) (v : Option (Option HostCallThunk)) :
    x.awaited (Function.update heap p v) = x.awaited heap := by
  cases x with
  | queued q | started q =>
    simp [awaited, Function.update_of_ne (Ne.symm (Multiset.mem_singleton.not.mp hp))]
  | _ => rfl

end HostCallThread

open HostCallThread

/-- The calls that IREE accepted, by what their callbacks are to be called with. -/
def acceptedCalls (ls : List HostCallEvent) : Multiset HostCallThunk :=
  ls.filterMap fun l ↦ match l with
    | .accepted _ t => some t
    | _ => none

def invokedCalls (ls : List HostCallEvent) : Multiset HostCallThunk :=
  ls.filterMap fun l ↦ match l with
    | .invoked _ t => some t
    | _ => none

def allocatedThunks (ls : List HostCallEvent) : Multiset Obj :=
  ls.filterMap fun l ↦ match l with
    | .allocated p => some p
    | _ => none

def freedThunks (ls : List HostCallEvent) : Multiset Obj :=
  ls.filterMap fun l ↦ match l with
    | .freed p => some p
    | _ => none

section Append

variable (ls ms : List HostCallEvent)

@[simp] theorem acceptedCalls_append :
    acceptedCalls (ls ++ ms) = acceptedCalls ls + acceptedCalls ms := by
  simp [acceptedCalls]

@[simp] theorem invokedCalls_append :
    invokedCalls (ls ++ ms) = invokedCalls ls + invokedCalls ms := by
  simp [invokedCalls]

@[simp] theorem allocatedThunks_append :
    allocatedThunks (ls ++ ms) = allocatedThunks ls + allocatedThunks ms := by
  simp [allocatedThunks]

@[simp] theorem freedThunks_append : freedThunks (ls ++ ms) = freedThunks ls + freedThunks ms := by
  simp [freedThunks]

end Append

/-- Each thunk on the heap has one thread to free it and holds what it should. What was accepted was
called or is awaited, and what was allocated was freed or is some thread's. -/
structure Inv (ls : List HostCallEvent) (heap : ThunkHeap) (locals : Multiset HostCallThread) :
    Prop where
  exclusive : Exclusive heap (sumOf thunk locals)
  holds : ∀ x ∈ locals, x.Holds heap
  called : acceptedCalls ls = invokedCalls ls + sumOf (awaited heap) locals
  freed : allocatedThunks ls = freedThunks ls + sumOf thunk locals

variable {ls ms : List HostCallEvent} {heap heap' : ThunkHeap}
  {xs ys others : Multiset HostCallThread} {p : Obj}
variable {v : Option (Option HostCallThunk)}

theorem Inv.kept (h : Inv ls heap (xs + others)) (hp : ∀ x ∈ others, p ∉ x.thunk) :
    (∀ x ∈ others, x.Holds (Function.update heap p v)) ∧
      sumOf (awaited (Function.update heap p v)) others = sumOf (awaited heap) others :=
  ⟨fun x hx ↦ (holds_update (hp x hx) v).mpr (h.holds x (Multiset.mem_add.mpr (.inr hx))),
    sumOf_congr fun x hx ↦ awaited_update (hp x hx) v⟩

theorem Inv.apart {x : HostCallThread} (h : Inv ls heap ({x} + others)) (hx : x.thunk = {p}) :
    ∀ y ∈ others, p ∉ y.thunk := by
  have hexclusive := h.exclusive
  rw [sumOf_add, sumOf_singleton, hx, Multiset.singleton_add] at hexclusive
  intro y hy hp
  exact hexclusive.elsewhere (mem_sumOf.mpr ⟨y, hy, hp⟩) rfl

theorem Inv.fresh (h : Inv ls heap (xs + others)) (hp : heap p = none) :
    ∀ y ∈ others, p ∉ y.thunk := by
  intro y hy hmem
  have hlive := (h.exclusive.live p).mp (mem_sumOf.mpr ⟨y, Multiset.mem_add.mpr (.inr hy), hmem⟩)
  rw [hp] at hlive
  cases hlive

theorem holds_cons {x : HostCallThread} (hx : x.Holds heap) (hothers : ∀ y ∈ others, y.Holds heap) :
    ∀ y ∈ {x} + others, y.Holds heap := by
  intro y hy
  obtain hy | hy := Multiset.mem_add.mp hy
  · rwa [Multiset.mem_singleton.mp hy]
  · exact hothers y hy

/-- The owner of a thunk frees it and is done. -/
theorem Inv.free {x : HostCallThread} (h : Inv ls heap ({x} + others)) (hx : x.thunk = {p})
    (hnone : awaited heap x = 0) :
    Inv (ls ++ [.freed p]) (Function.update heap p none) (0 + others) := by
  obtain ⟨hkept, hawaited⟩ := h.kept (v := none) (h.apart hx)
  have hexclusive : Exclusive heap ({p} + sumOf thunk others) := by
    simpa [hx] using h.exclusive
  refine ⟨?_, by simpa using hkept, ?_, ?_⟩
  · simpa using hexclusive.free
  · simpa [hnone, hawaited, acceptedCalls, invokedCalls] using h.called
  · have hnew : allocatedThunks [.freed p] = 0 ∧ freedThunks [.freed p] = {p} := ⟨rfl, rfl⟩
    rw [allocatedThunks_append, freedThunks_append, hnew.1, hnew.2, h.freed, add_zero, sumOf_add,
      sumOf_singleton, hx, zero_add, add_assoc]

theorem Inv.next (h : Inv ls heap (xs + others)) (hnext : Next heap xs ms heap' ys) :
    Inv (ls ++ ms) heap' (ys + others) := by
  obtain ⟨hexclusive, hholds, hcalled, hfreed⟩ := id h
  have hothers : ∀ x ∈ others, x.Holds heap := fun x hx ↦ hholds x (Multiset.mem_add.mpr (.inr hx))
  cases hnext with
  | enter device callback userData =>
    exact ⟨by simpa [thunk] using hexclusive,
      holds_cons trivial hothers, by simpa [awaited] using hcalled, by simpa [thunk] using hfreed⟩
  | fail =>
    exact ⟨by simpa [thunk]
      using hexclusive, by simpa using hothers, by simpa [awaited] using hcalled,
      by simpa [thunk] using hfreed⟩
  | @malloc heap d callback userData p hp =>
    obtain ⟨hkept, hawaited⟩ := h.kept (v := some none) (h.fresh hp)
    refine ⟨?_, holds_cons trivial hkept, ?_, ?_⟩
    · simpa [thunk] using Exclusive.alloc (by simpa [thunk] using hexclusive) hp none
    · simpa [awaited, hawaited, acceptedCalls, invokedCalls] using hcalled
    · have hold : allocatedThunks ls = freedThunks ls + sumOf thunk others := by
        simpa [thunk] using hfreed
      have hnew : allocatedThunks [.allocated p] = {p} ∧ freedThunks [.allocated p] = 0 :=
        ⟨rfl, rfl⟩
      rw [allocatedThunks_append, freedThunks_append, hnew.1, hnew.2, hold, add_zero,
        add_assoc, sumOf_add, sumOf_singleton, thunk, add_comm (sumOf thunk others)]
  | @fill heap p t =>
    obtain ⟨hkept, hawaited⟩ := h.kept (v := some (some t)) (h.apart rfl)
    refine ⟨?_, holds_cons (Function.update_self ..) hkept, ?_, by simpa [thunk] using hfreed⟩
    · have hmine : p ∈ sumOf thunk ({.allocated p t} + others) := by simp [thunk]
      simpa [thunk] using hexclusive.write hmine (some t)
    · simpa [awaited, hawaited] using hcalled
  | @submit heap p t =>
    have hp : heap p = some (some t) := hholds (.filled p t) (by simp)
    refine ⟨by simpa [thunk] using hexclusive, holds_cons ⟨t, hp⟩ hothers, ?_, ?_⟩
    · have hold : acceptedCalls ls = invokedCalls ls + sumOf (awaited heap) others := by
        simpa [awaited] using hcalled
      have hnew : acceptedCalls [.accepted p t] = {t} ∧ invokedCalls [.accepted p t] = 0 :=
        ⟨rfl, rfl⟩
      rw [acceptedCalls_append, invokedCalls_append, hnew.1, hnew.2, hold, add_zero,
        add_assoc, sumOf_add,
        sumOf_singleton, awaited, hp, Option.join_some, Option.elim_some, add_comm (sumOf _ others)]
    · simpa [thunk, allocatedThunks, freedThunks] using hfreed
  | refuse =>
    refine ⟨by simpa [thunk] using hexclusive, holds_cons trivial hothers, ?_, ?_⟩
    · simpa [awaited, acceptedCalls, invokedCalls] using hcalled
    · simpa [thunk, allocatedThunks, freedThunks] using hfreed
  | freeRefused => exact h.free rfl rfl
  | @start heap p =>
    have hp := hholds (.queued p) (by simp)
    exact ⟨by simpa [thunk] using hexclusive,
      holds_cons hp hothers, by simpa [awaited] using hcalled, by simpa [thunk] using hfreed⟩
  | @invoke heap p t hp =>
    refine ⟨by simpa [thunk] using hexclusive, holds_cons trivial hothers, ?_, ?_⟩
    · have hnew : acceptedCalls [.invoked p t] = 0 ∧ invokedCalls [.invoked p t] = {t} := ⟨rfl, rfl⟩
      have hread : awaited heap (.started p) = {t} ∧ awaited heap (.returned p) = 0 :=
        ⟨by simp [awaited, hp], rfl⟩
      rw [acceptedCalls_append, invokedCalls_append, hnew.1, hnew.2, hcalled, add_zero, sumOf_add,
        sumOf_singleton, hread.1, sumOf_add, sumOf_singleton, hread.2, zero_add, add_assoc]
    · simpa [thunk, allocatedThunks, freedThunks] using hfreed
  | freeReturned => exact h.free rfl rfl

def idle : Pool ThunkHeap HostCallThread := ⟨fun _ ↦ none, 0⟩

theorem Inv.of_run {q : Pool ThunkHeap HostCallThread} (h : Pool.Run Next idle ls q) :
    Inv ls q.shared q.locals :=
  h.keeps (I := fun ls q ↦ Inv ls q.shared q.locals) ⟨.empty, by simp [idle], rfl, rfl⟩
    fun _ _ _ _ _ _ _ hnext hinv ↦ hinv.next hnext

theorem run_filled {t : HostCallThunk} (d : DevicePtr) (hp : heap p = none) :
    Pool.Run Next ⟨heap, {.entered (some d) (some t.callback) t.userData}⟩ [.allocated p]
      ⟨Function.update (Function.update heap p (some none)) p (some (some t)), {.filled p t}⟩ :=
  (Pool.Run.one (Next.malloc hp)).trans (.one Next.fill)

theorem run_trampoline {t : HostCallThunk} (hp : heap p = some (some t)) :
    Pool.Run Next ⟨heap, {.started p}⟩ [.invoked p t, .freed p] ⟨Function.update heap p none, 0⟩ :=
  (Pool.Run.one (Next.invoke hp)).trans (.one Next.freeReturned)

/-- However the threads take turns, no thread uses or frees a thunk that is not its own and on the
heap, and a trampoline reads a thunk that was filled. The callbacks called and those still to be
called are the accepted ones, each with its own user data, and when all threads are done, each
accepted callback was called once and each thunk freed once. -/
theorem host_calls_run_once (h : Pool.Run Next idle ls ⟨heap, xs⟩) :
    Exclusive heap (sumOf thunk xs) ∧
    (∀ p, .queued p ∈ xs ∨ .started p ∈ xs → ∃ t, heap p = some (some t)) ∧
      acceptedCalls ls = invokedCalls ls + sumOf (awaited heap) xs ∧
      (xs = 0 → (∀ p, heap p = none) ∧ invokedCalls ls = acceptedCalls ls ∧
        freedThunks ls = allocatedThunks ls) := by
  obtain ⟨hexclusive, hholds, hcalled, hfreed⟩ := Inv.of_run h
  refine ⟨hexclusive, ?_, hcalled, ?_⟩
  · rintro p (hp | hp)
    · exact hholds _ hp
    · exact hholds _ hp
  · rintro rfl
    rw [sumOf_zero, add_zero] at hcalled hfreed
    exact ⟨hexclusive.nothing, hcalled.symm, hfreed.symm⟩

theorem host_calls_run_once_two :
    ∃ ls, .invoked 1 ⟨7, 70⟩ ∈ ls ∧ .refused 2 ∈ ls ∧ invokedCalls ls = acceptedCalls ls ∧
      freedThunks ls = allocatedThunks ls := by
  let d : DevicePtr := ⟨1, 4, 2, 3⟩
  let first : HostCallThread := .entered (some d) (some 7) 70
  let second : HostCallThread := .entered (some d) (some 8) 80
  have henter : Pool.Run Next idle [] ⟨fun _ ↦ none, {second}⟩ :=
    .one (Next.enter (some d) (some 8) 80)
  have hboth : Pool.Run Next idle [] ⟨fun _ ↦ none, {first} + {second}⟩ :=
    .step {second} henter (Next.enter ..)
  have hfirst :=
    hboth.trans
      (((run_filled (p := 1) (t := ⟨7, 70⟩) d rfl).trans (.one Next.submit)).beside {second})
  rw [add_comm] at hfirst
  have hsecond :=
    hfirst.trans ((((run_filled (p := 2) (t := ⟨8, 80⟩) d rfl).trans (.one Next.refuse)).trans
    (.one Next.freeRefused)).beside {.queued 1})
  have hstarted := hsecond.trans (.one Next.start)
  obtain ⟨-, -, -, hdone⟩ :=
    host_calls_run_once (hstarted.trans (run_trampoline (t := ⟨7, 70⟩) rfl))
  exact ⟨_, by simp, by simp, (hdone rfl).2⟩

section Programs

variable {σ : Type} {waits signals : CallerListPtr} {o : Outside} {n : ℕ}

def seenOf (t : HostCallThunk) (e : Happened) : Option HostCallEvent :=
  match e.call with
  | .hostCallThunk => if ok e then some (.allocated e.pos) else none
  | .queueHostCall _ _ _ _ thunk => some (if ok e then .accepted thunk t else .refused thunk)
  | .freeHostCallThunk thunk => some (.freed thunk)
  | _ => none

theorem seenOf_malloc {es : Trace} (h : ∀ e ∈ es, e.call = .malloc 16) (t : HostCallThunk) :
    es.filterMap (seenOf t) = [] :=
  List.filterMap_eq_nil_iff.mpr fun e he ↦ by simp only [seenOf, h e he]

theorem seenOf_refused (device : HrxDevice) (callback : Option ℕ)
    (h : device = none ∨ callback = none) (affinity : ℕ) (t : HostCallThunk) (st : σ) :
    ((hrxQueueHostCall device affinity waits signals callback).run o n st).events.filterMap
      (seenOf t) = [] := by
  have hrefuse :
      ∀ message, ((refuse .invalidArgument message : Hrx σ (Except MemoryFault HrxStatus)).run o n
      st).events.filterMap (seenOf t) = [] := by
    intro message
    simp [refuse, run_hrxError_made (by decide : HrxStatusCode.invalidArgument ≠ .ok),
      seenOf, payload]
  obtain rfl | rfl := h
  · exact hrefuse _
  · cases device <;> exact hrefuse _

/-- What is seen of a call is nothing, or a thunk and what becomes of it. -/
theorem seenOf_hrxQueueHostCall (hw : Fits waits) (hs : Fits signals) (d : DevicePtr)
    (cb affinity : ℕ) (t : HostCallThunk) (st : σ) :
    let seen :=
      ((hrxQueueHostCall (some d) affinity waits signals (some cb)).run o n st).events.filterMap
        (seenOf t)
    seen = [] ∨ seen = [.allocated n, .accepted n t] ∨
      seen = [.allocated n, .refused n, .freed n] := by
  have hlists := toIreeSemList_ok hw
  have hlists' := toIreeSemList_ok hs
  cases hthunk : ok (happens o n .hostCallThunk) with
  | false =>
    have herror := run_hrxError_made (by decide : HrxStatusCode.outOfMemory ≠ .ok)
      "failed to allocate host call thunk" o (n + 1) st
    refine .inl ?_
    simp [hrxQueueHostCall, submitting, newHostCallThunk, hthunk, herror, seenOf, payload]
  | true =>
    let q := happens o (n + 1) (.queueHostCall d.halDevice (normalizeAffinity affinity)
      (SemaphoreLists.entries waits) (SemaphoreLists.entries signals) n)
    have hallocated : seenOf t (happens o n .hostCallThunk) = some (.allocated n) := by
      simp [seenOf, hthunk]
    cases hq : ok q with
    | false =>
      have hrefused : seenOf t q = some (.refused n) := by
        rw [seenOf, hq]
        rfl
      have hfreed : seenOf t (happens o (n + 1 + 1) (.freeHostCallThunk n)) = some (.freed n) := rfl
      have hpayloads := seenOf_malloc (payloads_calls o (n + 1 + 1 + 1) q) t
      have hevents :
          ((hrxQueueHostCall (some d) affinity waits signals (some cb)).run o n st).events =
          happens o n .hostCallThunk :: q :: happens o (n + 1 + 1) (.freeHostCallThunk n) ::
            payloads o (n + 1 + 1 + 1) q := by
        simp [hrxQueueHostCall, submitting, newHostCallThunk, hthunk, withLists, hlists,
          hlists', q, hq, run_hrxStatusFromIree_made]
      rw [hevents, List.filterMap_cons_some hallocated, List.filterMap_cons_some hrefused,
        List.filterMap_cons_some hfreed, hpayloads]
      exact .inr (.inr rfl)
    | true =>
      have haccepted : seenOf t q = some (.accepted n t) := by
        rw [seenOf, hq]
        rfl
      have hpayloads := seenOf_malloc (payloads_calls o (n + 1 + 1) q) t
      have hevents :
          ((hrxQueueHostCall (some d) affinity waits signals (some cb)).run o n st).events =
          happens o n .hostCallThunk :: q :: payloads o (n + 1 + 1) q := by
        simp [hrxQueueHostCall, submitting, newHostCallThunk, hthunk, withLists, hlists,
          hlists', q, hq, run_hrxStatusFromIree_made]
      rw [hevents, List.filterMap_cons_some hallocated, List.filterMap_cons_some haccepted,
        hpayloads]
      exact .inr (.inl rfl)

/-- The calls of `hrx_queue_host_call` are steps of a thread, from its start to its end. -/
theorem hrxQueueHostCall_steps (hw : Fits waits) (hs : Fits signals) (device : HrxDevice)
    (callback : Option ℕ) (affinity userData : ℕ) (st : σ) (hn : heap n = none) :
    ∃ heap' ys, (ys = 0 ∨ ys = {.queued n}) ∧
      Pool.Run Next ⟨heap, {.entered device callback userData}⟩
        (((hrxQueueHostCall device affinity waits signals callback).run o n st).events.filterMap
          (seenOf ⟨callback.getD 0, userData⟩)) ⟨heap', ys⟩ := by
  have hfail : Pool.Run Next ⟨heap, {.entered device callback userData}⟩ [] ⟨heap, 0⟩ := .one .fail
  cases device with
  | none =>
    rw [seenOf_refused none callback (.inl rfl)]
    exact ⟨heap, 0, .inl rfl, hfail⟩
  | some d =>
    cases callback with
    | none =>
      rw [seenOf_refused (some d) none (.inr rfl)]
      exact ⟨heap, 0, .inl rfl, hfail⟩
    | some cb =>
      have hfilled := run_filled (t := ⟨cb, userData⟩) d hn
      obtain hseen | hseen | hseen :=
        seenOf_hrxQueueHostCall (o := o) (n := n) hw hs d cb affinity ⟨cb, userData⟩ st
      · rw [Option.getD_some, hseen]
        exact ⟨heap, 0, .inl rfl, hfail⟩
      · rw [Option.getD_some, hseen]
        exact ⟨_, _, .inr rfl, hfilled.trans (.one .submit)⟩
      · rw [Option.getD_some, hseen]
        exact ⟨_, _, .inl rfl, (hfilled.trans (.one .refuse)).trans (.one .freeRefused)⟩

/-- The trampoline frees its thunk once the callback has returned. -/
theorem hostCallTrampoline_steps {t : HostCallThunk} (hp : heap p = some (some t))
    (callback : Hrx σ HrxStatus) (st : σ) :
    (∃ tail, ((hostCallTrampoline p callback).run o n st).events =
      (callback.run o n st).events ++ happens o (n + (callback.run o n st).events.length)
      (.freeHostCallThunk p) :: tail ∧
        ∀ e ∈ tail, seenOf t e = none) ∧
      Pool.Run Next ⟨heap, {.started p}⟩ [.invoked p t, .freed p]
        ⟨Function.update heap p none, 0⟩ := by
  refine ⟨⟨_, rfl, ?_⟩, run_trampoline hp⟩
  have hconvert : ∀ s, Confined (fun _ : σ ↦ ()) (fun c ↦ ∀ n x, seenOf t ⟨n, c, x⟩ = none)
      (hrxStatusToIree s) := by
    intro s
    cases s with
    | none => exact .pure _
    | some s => exact .bind (.call fun _ _ ↦ rfl) fun _ ↦ .pure _
  exact fun e he ↦ (hconvert _ _ _ _).2 e he e.pos e.answer

end Programs

end HrxSystem.Libhrx.HostCalls
