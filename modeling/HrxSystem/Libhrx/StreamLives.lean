import HrxSystem.Libhrx.StreamCalls
import HrxSystem.Libhrx.Submissions

namespace HrxSystem.Libhrx

open External Program Counting HrxStreamS

variable {o : Outside} {n : ℕ} {mem : Memory} {a : ℕ} {arc : Arc HrxStreamS}

theorem StreamOp.run_walks {op : StreamOp} (hop : op ≠ .advanceTimeline) (shared : SharedState) :
    Walks (op.run shared) := by
  cases op with
  | advanceTimeline => exact absurd rfl hop
  | record command => exact (record_walks command).bind fun _ ↦ .pure _
  | executionBarrier => exact executionBarrier_walks.bind fun _ ↦ .pure _
  | flush => exact flushInner_walks.bind fun _ ↦ .pure _
  | synchronize => exact synchronize_walks.bind fun _ ↦ .pure _
  | wait => exact .of_aside (wait_aside.bind fun _ ↦ .pure _)
  | query => exact .of_aside query_aside
  | getSemaphore | getDevice | getTimelinePosition => exact .of_aside (.bind .state fun _ ↦ .pure _)
  | waitOn sem value => exact (waitOn_walks sem value).bind fun _ ↦ .pure _
  | bufferAllocate size memType usage =>
    exact (bufferAllocate_walks shared size memType usage).bind fun _ ↦ .pure _

theorem StreamOp.run_spends {op : StreamOp} (shared : SharedState) : Spends 1 (op.run shared) := by
  cases op with
  | record command =>
    exact Spends.bind (j := 1) (k := 0)
      (.afterBegin fun _ _ _ _ ho hcb ↦ recordCommand_spends command ho hcb) fun _ ↦ .pure _
  | executionBarrier =>
    exact Spends.bind (j := 1) (k := 0)
      (.afterBegin fun _ _ _ _ ho hcb ↦ recordBarrier_spends ho hcb) fun _ ↦ .pure _
  | flush => exact (flushInner_spends.bind (k := 1) fun _ ↦ .pure _).mono (by omega)
  | synchronize =>
    refine Spends.bind (j := 1) (k := 0) ?_ fun _ ↦ .pure _
    exact flushInner_spends.bind (k := 1) fun _ ↦ .ite (.pure _) (.of_aside wait_aside)
  | wait => exact .of_aside (wait_aside.bind fun _ ↦ .pure _)
  | query => exact .of_aside query_aside
  | getSemaphore | getDevice | getTimelinePosition => exact .of_aside (.bind .state fun _ ↦ .pure _)
  | advanceTimeline => exact fun _ _ _ _ ↦ by simp [StreamOp.run, HrxStreamS.advanceTimeline, owed]
  | waitOn sem value =>
    refine Spends.bind (j := 1) (k := 0) ?_ fun _ ↦ .pure _
    exact flushInner_spends.bind (k := 1) fun _ ↦ .ite (.pure _) (queueBarrier_spends sem value)
  | bufferAllocate size memType usage =>
    refine Spends.bind (j := 1) (k := 0) ?_ fun _ ↦ .pure _
    have herr : ∀ message, Spends 1
        (hrxError .invalidArgument message >>= fun s ↦
          Pure.pure (s, (none : Option (Obj × PoolPtr)))) :=
      fun _ ↦ .of_aside ((hrxError_aside _ _).bind fun _ ↦ .pure _)
    refine Spends.bind (j := 0) (k := 1) (.of_aside .state) fun _ ↦
      Spends.bind (j := 0) (k := 1) (.of_aside (.call rfl)) fun _ ↦ .ite (herr _) ?_
    exact flushInner_spends.bind (k := 1) fun _ ↦ .ite (.pure _) (queueAlloca_spends shared _ size)

section Teardown

variable {τ : Type} {f : Memory → τ}

theorem hrxDeviceRelease_confined (hf : ∀ mem h, f { mem with devices := h } = f mem) (device : ℕ) :
    Confined f (fun c ↦ quiet c = true) (hrxDeviceRelease device) :=
  hrxDeviceRelease_calls (fun _ ↦ rfl) (fun _ ↦ rfl) (fun _ ↦ rfl) hf device

theorem hrxSemaphoreRelease_confined (hf : ∀ mem h, f { mem with devices := h } = f mem)
    (hf' : ∀ mem h, f { mem with semaphores := h } = f mem) (semaphore : ℕ) :
    Confined f (fun c ↦ quiet c = true) (hrxSemaphoreRelease semaphore) := by
  have hrel : Confined f (fun c ↦ quiet c = true) (handleRelease .semaphores semaphore) :=
    .bind .state fun _ ↦ .bind (.update fun _ ↦ hf' _ _) fun _ ↦ .pure _
  refine hrel.bind fun s ↦ ?_
  cases s with
  | none => exact .pure _
  | some s => exact .bind (.call rfl) fun _ ↦ hrxDeviceRelease_confined hf _

/-- The fields of a dropped stream go after its destructor. -/
def teardown (st : HrxStreamS) : Hrx Memory Returned := do
  hrxSemaphoreRelease st.semaphore.addr
  hrxDeviceRelease st.device.addr
  return ⟨hrxOkStatus, .nothing⟩

theorem teardown_confined (hf : ∀ mem h, f { mem with devices := h } = f mem)
    (hf' : ∀ mem h, f { mem with semaphores := h } = f mem) (st : HrxStreamS) :
    Confined f (fun c ↦ quiet c = true) (teardown st) :=
  (hrxSemaphoreRelease_confined hf hf' _).bind fun _ ↦ (hrxDeviceRelease_confined hf _).bind fun _ ↦
    .pure _

end Teardown

/-- The calls that take a value of the timeline for the caller. -/
def StreamCall.skips : StreamCall → Bool
  | .advanceTimeline (some _) true => true
  | _ => false

/-- What call `k`, made at place `n`, makes of the stream it is on. -/
inductive Lives (k : StreamCall) (n : ℕ) : Arc HrxStreamS → Trace → Option (Arc HrxStreamS) → Prop
  | walked {strong strong' : ℕ} {st st' : HrxStreamS} {es : Trace} (hk : k.skips = false)
      (h : Steps n st es st') (hspent : (submissions es).length + owed st' ≤ owed st + 1) :
      Lives k n ⟨strong, st⟩ es (some ⟨strong', st'⟩)
  | skipped {strong : ℕ} {st : HrxStreamS} {es : Trace} (hk : k.skips = true)
      (hes : ∀ e ∈ es, quiet e.call = true) :
      Lives k n ⟨strong, st⟩ es (some ⟨strong, advanced st⟩)
  | dropped {strong : ℕ} {st st' : HrxStreamS} {o : Outside} {es fs tail : Trace}
      (hk : k.skips = false) (h : es = [] ∧ st' = st ∨ Small n st es st')
      (hspent : (submissions es).length ≤ owed st)
      (hdone : (∀ e ∈ es, ok e = true) → st'.hasPendingWork = false ∨ st'.pendingCb = none)
      (hfs : ∀ e ∈ fs, quiet e.call = true) (htail : ∀ e ∈ tail, quiet e.call = true) :
      Lives k n ⟨strong, st⟩ (es ++ fs ++ leftover o (n + (es ++ fs).length) st' ++ tail) none

theorem run_release_last {st : HrxStreamS} {strong : ℕ} (hs : strong ≤ 1)
    (ha : mem.streams.cell a = some ⟨strong, st⟩) :
    ((StreamCall.release a).run.run o n mem) =
      ((teardown st).run o (n + (HrxStreamS.drop.run o n st).events.length)
        { mem with streams := mem.streams.put a none }).after
          (HrxStreamS.drop.run o n st).events := by
  simp [StreamCall.run, hrxStreamRelease, teardown, handleRelease, Kind.streams,
    Heap.release, ha, hs]

theorem run_release_shared {st : HrxStreamS} {strong : ℕ} (hs : ¬ strong ≤ 1)
    (ha : mem.streams.cell a = some ⟨strong, st⟩) :
    ((StreamCall.release a).run.run o n mem) = ⟨⟨hrxOkStatus, .nothing⟩,
      { mem with streams := mem.streams.put a (some ⟨strong - 1, st⟩) }, []⟩ := by
  simp [StreamCall.run, hrxStreamRelease, handleRelease, Kind.streams, Heap.release, ha, hs]

theorem release_lives (ho : Roomy o) (ha : mem.streams.cell a = some arc) :
    Lives (.release a) n arc ((StreamCall.release a).run.run o n mem).events
        (((StreamCall.release a).run.run o n mem).state.streams.cell a) ∧
      ∀ b, b ≠ a → ((StreamCall.release a).run.run o n mem).state.streams.cell b =
        mem.streams.cell b := by
  obtain ⟨strong, st⟩ := arc
  by_cases hs : strong ≤ 1
  · rw [run_release_last hs ha]
    have htail : Confined Memory.streams (fun c ↦ quiet c = true) (teardown st) :=
      teardown_confined (fun _ _ ↦ rfl) (fun _ _ ↦ rfl) st
    obtain ⟨es, fs, st', hdrop, hfs, hspent, hsmall, hdone⟩ := drop_small ho n st
    obtain ⟨hstate, hquiet⟩ := htail o (n + (HrxStreamS.drop.run o n st).events.length)
      { mem with streams := mem.streams.put a none }
    rw [Outcome.after_events, Outcome.after_state, hstate, hdrop]
    refine ⟨?_, fun b hb ↦ Heap.put_cell_of_ne _ _ hb⟩
    rw [Heap.put_cell_self]
    rw [hdrop] at hquiet
    exact .dropped rfl hsmall hspent hdone hfs hquiet
  · rw [run_release_shared hs ha]
    refine ⟨?_, fun b hb ↦ Heap.put_cell_of_ne _ _ hb⟩
    rw [Heap.put_cell_self]
    exact .walked rfl (.nil n st) (by simp)

theorem StreamCall.resolve_of_skips {k : StreamCall} (hk : k.skips = true) :
    ∃ a, k = .advanceTimeline (some a) true := by
  unfold StreamCall.skips at hk
  split at hk
  · exact ⟨_, rfl⟩
  · cases hk

theorem StreamCall.skips_iff {k : StreamCall} {op : StreamOp} (hk : k.resolve = some (a, op)) :
    k.skips = true ↔ op = .advanceTimeline := by
  unfold StreamCall.resolve at hk
  split at hk
  case h_5 st x =>
    split at hk
    · split at hk
      · cases hk
      · cases hk
        simp [StreamCall.skips]
    · cases hk
  case h_15 st size memType usage =>
    split at hk
    · cases hk
    · cases hk
      simp [StreamCall.skips]
  case h_16 => cases hk
  all_goals
    cases hk
    simp [StreamCall.skips]

theorem StreamCall.run_lives {k : StreamCall} (ho : Roomy o) (hk : k.stream = some a)
    (ha : mem.streams.cell a = some arc) :
    Lives k n arc (k.run.run o n mem).events ((k.run.run o n mem).state.streams.cell a) ∧
      ∀ b, b ≠ a → (k.run.run o n mem).state.streams.cell b = mem.streams.cell b := by
  by_cases hretain : ∃ b, k = .retain b
  · obtain ⟨b, rfl⟩ := hretain
    obtain rfl : b = a := by simpa [StreamCall.stream] using hk
    obtain ⟨strong, st⟩ := arc
    have hr : (StreamCall.retain b).run.run o n mem = ⟨⟨hrxOkStatus, .nothing⟩,
        { mem with streams := mem.streams.put b (some ⟨strong + 1, st⟩) }, []⟩ := by
      simp [StreamCall.run, hrxStreamRetain, handleRetain, Kind.streams, Heap.retain, ha]
    rw [hr]
    refine ⟨?_, fun c hc ↦ Heap.put_cell_of_ne _ _ hc⟩
    rw [Heap.put_cell_self]
    exact .walked rfl (.nil n st) (by simp)
  by_cases hrelease : ∃ b, k = .release b
  · obtain ⟨b, rfl⟩ := hrelease
    obtain rfl : b = a := by simpa [StreamCall.stream] using hk
    exact release_lives ho ha
  rw [not_exists] at hretain hrelease
  cases hres : k.resolve with
  | none =>
    obtain ⟨s, hr⟩ := StreamCall.run_unresolved n mem ho hres hretain hrelease
    rw [hr]
    refine ⟨?_, fun b _ ↦ rfl⟩
    rw [ha]
    refine .walked ?_ steps_payload (by simp)
    cases hs : k.skips with
    | false => rfl
    | true =>
      obtain ⟨b, rfl⟩ := resolve_of_skips hs
      cases hres
  | some p =>
    obtain ⟨b, op⟩ := p
    obtain rfl : b = a := by simpa [stream_of_resolve hres] using hk
    obtain ⟨_, hcells, _, tail, hevents, htail⟩ := run_resolved (o := o) (n := n) hres ha
    rw [hcells, hevents]
    refine ⟨?_, fun c hc ↦ Function.update_of_ne hc ..⟩
    rw [Function.update_self]
    by_cases hop : op = .advanceTimeline
    · subst hop
      exact .skipped ((skips_iff hres).mpr rfl) htail
    · refine .walked (by simpa [hop] using (skips_iff hres).not)
        ((StreamOp.run_walks hop _ o n arc.data ho).trans (steps_of_quiet htail)) ?_
      rw [submissions_append, submissions_of_quiet htail, List.append_nil]
      exact StreamOp.run_spends _ o n arc.data ho

theorem StreamCall.run_null {k : StreamCall} (n : ℕ) (mem : Memory) (ho : Roomy o)
    (hk : k.stream = none) :
    ∃ s, k.run.run o n mem = ⟨⟨some s, .nothing⟩, mem, [payload o n]⟩ := by
  refine run_unresolved n mem ho ?_ ?_ ?_
  · cases hres : k.resolve with
    | none => rfl
    | some p =>
      obtain ⟨a, op⟩ := p
      have hs := stream_of_resolve hres
      rw [hk] at hs
      cases hs
  · rintro a rfl
    cases hk
  · rintro a rfl
    cases hk

def Live (mem : Memory) (k : StreamCall) : Prop :=
  ∀ a, k.stream = some a → ∃ arc, mem.streams.cell a = some arc

/-- What callers and the outside promise of each call on streams: whatever IREE refuses, the
payloads of the statuses can be allocated. -/
def Usual (_ : ℕ) (mem : Memory) (k : StreamCall) (o : Outside) : Prop := Live mem k ∧ Roomy o

abbrev StreamLog := List (Entry Call Answer Memory Returned StreamCall)

/-- The runs of stream calls from `mem₀` whose calls all satisfy `ok`. -/
abbrev StreamRuns (ok : ℕ → Memory → StreamCall → Outside → Prop) (mem₀ mem : Memory)
    (l : StreamLog) : Prop :=
  Runs StreamCall.run ok mem₀ mem l

structure FreshStream (mem : Memory) (a : ℕ) (s : Obj) : Prop where
  cell : ∃ strong st, mem.streams.cell a = some ⟨strong, st⟩ ∧ st.timepoint = 0 ∧
    st.pendingCb = none ∧ st.hasPendingWork = false ∧ st.semaphore.hal = s
  alone : ∀ b arc, b ≠ a → mem.streams.cell b = some arc → arc.data.semaphore.hal ≠ s

def oneStream : Memory where
  globals := { Memory.initial.globals with shared := ⟨some 5, some 6, .system, 1, true⟩ }
  devices := .put .empty 1 (some ⟨3, ⟨1, 0, 2, 3, 4, [], []⟩⟩)
  semaphores := .put .empty 1 (some ⟨1, ⟨0, ⟨1, 4, 2, 3⟩⟩⟩)
  streams := .put .empty 1 (some ⟨1, ⟨0, none, false, 0, ⟨1, 0⟩, ⟨1, 4, 2, 3⟩⟩⟩)
  buffers := .empty
  executables := .empty
  modules := .empty
  functions := .empty

theorem oneStream_fresh : FreshStream oneStream 1 0 := by
  refine ⟨⟨1, _, rfl, rfl, rfl, rfl, rfl⟩, ?_⟩
  intro b arc hb harc
  rw [oneStream, Heap.put_cell_of_ne _ _ hb] at harc
  cases harc

def allSucceed : Outside := fun _ _ ↦ { value := 1 }

theorem allSucceed_roomy : Roomy allSucceed := fun _ ↦ rfl

def allBut (p : Call → Bool) : Outside := fun _ c ↦
  if p c then { status := some ⟨13, none⟩ } else { value := 1 }

def isSemaphoreWait : Call → Bool
  | .semaphoreWait .. => true
  | _ => false

def isQueueExecute : Call → Bool
  | .queueExecute .. => true
  | _ => false

theorem allBut_roomy {p : Call → Bool} (hp : p (.malloc 16) = false) : Roomy (allBut p) := by
  intro n
  simp [allBut, hp]

end HrxSystem.Libhrx
