import HrxSystem.Libhrx.Api

namespace HrxSystem.Libhrx

open External Program Counting SemaphoreLists

/-- A call of the library. What is left of it after the ones that make, use and give back objects
are entry points that leave the objects alone. -/
inductive ApiCall
  | runtime (k : RuntimeCall)
  | create (k : CreateCall)
  | retain (x : Hold)
  | release (x : Hold)
  | virtualMemoryRelease (allocator : HrxAllocator) (virtualBuffer : HrxBuffer)
  | stream (k : StreamCall) (hk : k.uses = true)
  | buffer (k : BufferCall) (hk : k.uses = true)
  | invoke (module_ : HrxModule) (function : HrxFunction) (args rets : Option ℕ)
  | queue (device : HrxDevice) (affinity : ℕ) (waits signals : CallerListPtr) (k : QueueOperation)
  | elsewhere (m : Hrx Memory Returned) (hm : Aside Sparing m)

namespace ApiCall

/-- A fault of a queue operation ends the process, as a panic does. -/
def run : ApiCall → Hrx Memory Returned
  | runtime k => k.run
  | create k => k.run
  | retain x => do x.retain; return ⟨hrxOkStatus, .nothing⟩
  | release x => do x.release; return ⟨hrxOkStatus, .nothing⟩
  | virtualMemoryRelease allocator virtualBuffer =>
    hrxAllocatorVirtualMemoryRelease allocator virtualBuffer
  | stream k _ => k.run
  | buffer k _ => k.run
  | invoke module_ function args rets => hrxFunctionInvoke module_ function args rets
  | queue device affinity waits signals k => do
    match ← k.submit device affinity waits signals with
    | .error _ => return ⟨none, .panicked⟩
    | .ok status => return ⟨status, .nothing⟩
  | elsewhere m _ => m

def takes : ApiCall → Multiset Hold
  | release x => {x}
  | virtualMemoryRelease (some _) (some b) => {.ref (.buffer b)}
  | _ => 0

def gives : ApiCall → Returned → Multiset Hold
  | create _, r => r.written.refs.map .ref
  | retain x, _ => {x}
  | _, _ => 0

def needs : ApiCall → List Ref
  | create k => k.parent.toList
  | retain x => [x.toRef]
  | invoke (some m) (some f) _ _ => [.module_ m, .function f]
  | _ => []

def streams : ApiCall → List ℕ
  | create (.bufferAllocate s ..) => s.toList
  | stream k _ => k.stream.toList
  | release (.ref (.stream s)) => [s]
  | _ => []

end ApiCall

/-- A stream that is not there, or has a semaphore. `hrx_stream_create` leaves one without when the
error of `hrx_semaphore_create` is lost; a flush or the last release of it is a fault. -/
def Whole (mem : Memory) (s : ℕ) : Prop :=
  (mem.streams.cell s).all (fun arc ↦ arc.data.semaphore ≠ .null) = true

instance (mem : Memory) (s : ℕ) : Decidable (Whole mem s) := inferInstanceAs (Decidable (_ = true))

structure Caller where
  mem : Memory
  held : Multiset Hold

def Caller.initial : Caller := ⟨Memory.initial, 0⟩

namespace ApiCall

def step (k : ApiCall) : Hrx Caller Returned := do
  let c ← state
  let r ← focus c.mem (fun mem c ↦ { c with mem := mem }) k.run
  update fun c ↦ { c with held := c.held - k.takes + k.gives r }
  return r

/-- The caller gives up only what it holds, uses only what is live, leaves a stream without a
semaphore alone, and the process goes on. -/
structure Fair (n : ℕ) (c : Caller) (k : ApiCall) (o : Outside) : Prop where
  takes : k.takes ≤ c.held
  needs : ∀ r ∈ k.needs, (cellOf c.mem r).isSome = true
  whole : ∀ s ∈ k.streams, Whole c.mem s
  survives : (k.run.run o n c.mem).val.written ≠ .panicked

theorem run_step (k : ApiCall) (o : Outside) (n : ℕ) (c : Caller) :
    k.step.run o n c = ⟨(k.run.run o n c.mem).val, ⟨(k.run.run o n c.mem).state,
      c.held - k.takes + k.gives (k.run.run o n c.mem).val⟩, (k.run.run o n c.mem).events⟩ := by
  simp [step]

end ApiCall

abbrev ApiLog := List (Entry Call Answer Caller Returned ApiCall)

abbrev ApiRuns (c : Caller) (l : ApiLog) : Prop := Runs ApiCall.step ApiCall.Fair .initial c l

def outOf (held : Multiset Hold) : Multiset Ref := held.map Hold.toRef

/-- The references to IREE objects that the library took for a caller. -/
def lentTo (held : Multiset Hold) : Multiset Res := (held.map Hold.parts).sum

section Passed

variable {v : Watch} {t : Trace} {mem : Memory} {held : Multiset Hold} {o : Outside}

/-- What a call leaves: the references `e` are out, and of the references a device may hold what
came and what was there is what went and what is there. -/
structure Passed (v : Watch) (t : Trace) (mem : Memory) (h : Multiset Res) (es : Trace)
    (mem' : Memory) (h' : Multiset Res) (e : Multiset Ref) : Prop where
  owning : Owning e (Statics SharedState.Clear Steady) v (t ++ es) mem'
  balance : ∀ r : Res, r.ofDevice = true →
    (allAcquired es + (h + estate mem)).count r = (allReleased es + (h' + estate mem')).count r

theorem Entries.since {h h' : Multiset Res} {es : Trace} {mem' : Memory}
    (hentries : Entries estate (allReleased t + (h + estate mem)) (allAcquired t) h'
      (t ++ es) mem') :
    allAcquired es + (h + estate mem) = allReleased es + (h' + estate mem') := by
  rw [Entries, allAcquired_append, allReleased_append] at hentries
  refine add_left_cancel (a := allAcquired t + allReleased t) ?_
  calc _ = allAcquired t + allAcquired es + (allReleased t + (h + estate mem)) := by abel
    _ = _ := by rw [hentries]; abel

theorem passed_of_booked {α : Type} {m : Hrx Memory α} {C : α → Prop} {R : Standing Memory}
    {h : Multiset Res} {g : α → Multiset Res} {e : α → Multiset Ref} (hR : R.holds t mem)
    (hm : ∀ a b, Triple Always (Booked estate a b h R) m
      (fun r t x ↦ C r → InOrder a b (g r) (e r) v t x))
    (hC : C (m.run o t.length mem).val) :
    Passed v t mem h (m.run o t.length mem).events (m.run o t.length mem).state
      (g (m.run o t.length mem).val)
      (e (m.run o t.length mem).val) := by
  have hopen : Entries estate (allReleased t + (h + estate mem)) (allAcquired t) h t mem :=
    add_comm _ _
  obtain ⟨hentries, hO⟩ := hm _ _ o t mem trivial ⟨hopen, hR⟩ hC
  exact ⟨hO, fun r _ ↦ congrArg (Multiset.count r) hentries.since⟩

theorem count_sparing {es : Trace} (hes : ∀ ev ∈ es, Sparing ev.call) {r : Res}
    (hr : r.ofDevice = true) :
    (allAcquired es).count r = 0 ∧ (allReleased es).count r = 0 := by
  induction es with
  | nil => exact ⟨rfl, rfl⟩
  | cons ev es ih =>
    obtain ⟨hacq, hrel⟩ := hes ev (List.mem_cons_self ..) ev rfl r hr
    obtain ⟨hacq', hrel'⟩ := ih fun x hx ↦ hes x (List.mem_cons_of_mem _ hx)
    have hcons : ev :: es = [ev] ++ es := rfl
    rw [hcons, allAcquired_append, allReleased_append, allAcquired_single, allReleased_single,
      Multiset.count_add, Multiset.count_add, hacq', hrel', Multiset.count_eq_zero_of_notMem hacq,
      Multiset.count_eq_zero_of_notMem hrel]
    exact ⟨rfl, rfl⟩

theorem passed_of_sparing {α : Type} {m : Hrx Memory α} (hm : Aside Sparing m) {h : Multiset Res}
    {e : Multiset Ref} (hO : Owning e (Statics SharedState.Clear Steady) v t mem) :
    Passed v t mem h (m.run o t.length mem).events (m.run o t.length mem).state h e := by
  have hkept : Triple Always (Owning e (Statics SharedState.Clear Steady) v) m
      (fun _ ↦ Owning e (Statics SharedState.Clear Steady) v) :=
    Triple.of_confined (I := Owning e (Statics SharedState.Clear Steady) v) hm
      fun t ev x hx _ _ ↦ hx.snoc ev
  obtain ⟨hstate, hevents⟩ := hm o t.length mem
  refine ⟨hkept o t mem trivial hO, fun r hr ↦ ?_⟩
  obtain ⟨hacq, hrel⟩ := count_sparing hevents hr
  change (m.run o t.length mem).state = mem at hstate
  simp only [hstate, Multiset.count_add, hacq, hrel]

theorem outOf_add (x y : Multiset Hold) : outOf (x + y) = outOf x + outOf y :=
  Multiset.map_add _ _ _

theorem lentTo_add (x y : Multiset Hold) : lentTo (x + y) = lentTo x + lentTo y := by
  rw [lentTo, Multiset.map_add, Multiset.sum_add]
  rfl

theorem outOf_single (x : Hold) : outOf {x} = {x.toRef} := Multiset.map_singleton _ _

theorem lentTo_single (x : Hold) : lentTo {x} = x.parts := by
  rw [lentTo, Multiset.map_singleton, Multiset.sum_singleton]

theorem refused_sparing (code : HrxStatusCode) (message : String) :
    Aside Sparing (do return ⟨← hrxError code message, .nothing⟩ : Hrx Memory Returned) :=
  queueing_idle (refused_aside code message)

theorem outOf_refs (x : Multiset Ref) : outOf (x.map .ref) = x := by
  rw [outOf, Multiset.map_map]
  exact Multiset.map_id x

theorem lentTo_refs (x : Multiset Ref) : lentTo (x.map .ref) = 0 := by
  rw [lentTo, Multiset.map_map]
  exact Multiset.sum_eq_zero fun y hy ↦ by
    obtain ⟨r, -, rfl⟩ := Multiset.mem_map.mp hy
    rfl

theorem ApiCall.run_passed (k : ApiCall)
    (hO : Owning (outOf held) (Statics SharedState.Clear Steady) v t mem)
    (hfair : k.Fair t.length ⟨mem, held⟩ o)
    (hknown : ∀ m name out, k = .create (.lookupFunction (some m) name out) → ∀ f vmFunction,
      v.known f ⟨m, vmFunction⟩) :
    Passed v t mem (lentTo held) (k.run.run o t.length mem).events (k.run.run o t.length mem).state
      (lentTo (held - k.takes + k.gives (k.run.run o t.length mem).val))
      (outOf (held - k.takes + k.gives (k.run.run o t.length mem).val)) := by
  have hsame : held - 0 + 0 = held := by rw [add_zero, tsub_zero]
  cases k with
  | runtime k =>
    simp only [takes, gives, hsame]
    exact passed_of_booked (C := fun _ ↦ True) (R := owning (outOf held) _ v) hO
      (fun a b ↦ k.run_accounted.mono (fun _ _ hA ↦ hA) fun _ _ _ hA _ ↦ hA) trivial
  | create k =>
    have hparent :
        (aliveIf k.parent (owning (outOf held) (Statics SharedState.Clear Steady) v)).holds t
        mem := by
      cases hk : k.parent with
      | none => exact hO
      | some r => exact ⟨hfair.needs r (by simp [needs, hk]), hO⟩
    have hpassed := passed_of_booked (o := o) (C := fun r : Returned ↦ r.written ≠ .panicked)
      (g := fun _ ↦ lentTo held) (e := fun r ↦ outOf held + r.written.refs) hparent
      (fun a b ↦ k.run_accounted fun m name out hk ↦ hknown m name out (congrArg _ hk))
      hfair.survives
    simp only [takes, gives, tsub_zero, outOf_add, outOf_refs, lentTo_add, lentTo_refs, add_zero]
    exact hpassed
  | retain x =>
    have hlive :
        (alive x.toRef (owning (outOf held) (Statics SharedState.Clear Steady) v)).holds t mem :=
      ⟨hfair.needs x.toRef (List.mem_singleton_self _), hO⟩
    have hpassed := passed_of_booked (o := o) (C := fun _ : Returned ↦ True) (h := lentTo held)
      (g := fun _ ↦ x.parts + lentTo held) (e := fun _ ↦ outOf held + {x.toRef}) hlive
      (m := do x.retain; return ⟨hrxOkStatus, .nothing⟩)
      (fun a b ↦ x.retain_accounted.bind fun _ ↦ .pure fun _ _ hA _ ↦ hA) trivial
    have hlent : lentTo (held + {x}) = x.parts + lentTo held := by
      rw [lentTo_add, add_comm, lentTo_single]
    simp only [takes, gives, tsub_zero, outOf_add, outOf_single, hlent]
    exact hpassed
  | release x =>
    obtain ⟨rest, hrest⟩ := Multiset.le_iff_exists_add.mp hfair.takes
    simp only [takes] at hrest
    obtain rfl : held = {x} + rest := hrest
    have hout : outOf ({x} + rest) = outOf rest + {x.toRef} := by
      rw [outOf_add, add_comm, outOf_single]
    have hlent : lentTo ({x} + rest) = x.parts + lentTo rest := by rw [lentTo_add, lentTo_single]
    rw [hout] at hO
    have hstart :
        (owning (outOf rest + {x.toRef}) (Statics SharedState.Clear Steady) v).holds t mem := hO
    simp only [takes, gives, add_zero, add_tsub_cancel_left, hlent]
    exact passed_of_booked (C := fun _ : Returned ↦ True) (g := fun _ ↦ lentTo rest)
      (e := fun _ ↦ outOf rest)
      (m := do x.release; return ⟨hrxOkStatus, .nothing⟩) hstart
      (fun a b ↦ x.release_accounted.bind fun _ ↦ .pure fun _ _ hA _ ↦ hA) trivial
  | virtualMemoryRelease allocator virtualBuffer =>
    rcases allocator with _ | d
    · simp only [takes, gives, hsame]
      exact passed_of_sparing (refused_sparing _ _) hO
    rcases virtualBuffer with _ | x
    · simp only [takes, gives, hsame]
      exact passed_of_sparing (refused_sparing _ _) hO
    obtain ⟨rest, hrest⟩ := Multiset.le_iff_exists_add.mp hfair.takes
    simp only [takes] at hrest
    obtain rfl : held = {.ref (.buffer x)} + rest := hrest
    have hout : outOf ({.ref (.buffer x)} + rest) = outOf rest + {.buffer x} := by
      rw [outOf_add, add_comm, outOf_single]
      rfl
    have hlent : lentTo ({.ref (.buffer x)} + rest) = lentTo rest := by
      rw [lentTo_add, lentTo_single]
      exact zero_add _
    rw [hout] at hO
    have hstart :
        (owning (outOf rest + {.buffer x}) (Statics SharedState.Clear Steady) v).holds t mem := hO
    simp only [takes, gives, add_zero, add_tsub_cancel_left, hlent]
    exact passed_of_booked (C := fun _ : Returned ↦ True) (g := fun _ ↦ lentTo rest)
      (e := fun _ ↦ outOf rest) hstart
      (fun a b ↦ (virtualMemoryRelease_accounted d x).mono (fun _ _ hA ↦ hA) fun _ _ _ hA _ ↦ hA)
      trivial
  | stream k hk =>
    simp only [takes, gives, hsame]
    exact passed_of_booked (C := fun _ ↦ True) (R := owning (outOf held) _ v) hO
      (fun a b ↦ (k.run_booked hk streams_lasting).mono (fun _ _ hA ↦ hA) fun _ _ _ hA _ ↦ hA)
      trivial
  | buffer k hk =>
    simp only [takes, gives, hsame]
    exact passed_of_booked (C := fun _ ↦ True) (R := owning (outOf held) _ v) hO
      (fun a b ↦ (k.run_booked hk buffers_lasting).mono (fun _ _ hA ↦ hA) fun _ _ _ hA _ ↦ hA)
      trivial
  | invoke module_ function args rets =>
    simp only [takes, gives, hsame]
    exact passed_of_booked (C := fun _ ↦ True) (R := owning (outOf held) _ v) hO
      (fun a b ↦ (hrxFunctionInvoke_booked _ _ _ _).mono (fun _ _ hA ↦ hA) fun _ _ _ hA _ ↦ hA)
      trivial
  | queue device affinity waits signals k =>
    simp only [takes, gives, hsame]
    refine passed_of_sparing ((submit_queueing device affinity waits signals k).bind fun r ↦ ?_) hO
    cases r with
    | error fault => exact .pure _
    | ok status => exact .pure _
  | elsewhere m hm =>
    simp only [takes, gives, hsame]
    exact passed_of_sparing hm hO

end Passed

end HrxSystem.Libhrx
