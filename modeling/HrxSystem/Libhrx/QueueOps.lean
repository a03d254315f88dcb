import HrxSystem.Libhrx.SemaphoreLists

namespace HrxSystem.Libhrx

open External Program Counting HrxStreamS SemaphoreLists

variable {σ : Type}

/-- The calls that use command buffers: those on streams, and the direct queue
operations that record into one. -/
inductive QueueCall
  | stream (k : StreamCall)
  | streamCreate (device : HrxDevice) (flags : ℕ) (stream : Bool)
  | fill (device : HrxDevice) (affinity : ℕ) (waitSemaphores signalSemaphores : CallerListPtr)
      (buffer : HrxBuffer) (offset size : ℕ) (pattern : Option ℕ) (patternSize : ℕ)
  | copy (device : HrxDevice) (affinity : ℕ) (waitSemaphores signalSemaphores : CallerListPtr)
      (src : HrxBuffer) (srcOffset : ℕ) (dst : HrxBuffer) (dstOffset size : ℕ)

/-- A memory fault ends the process, as a panic does. -/
def faulting (m : Hrx σ (Except MemoryFault HrxStatus)) : Hrx σ Returned := do
  match ← m with
  | .error _ => return ⟨none, .panicked⟩
  | .ok status => return ⟨status, .nothing⟩

namespace QueueCall

def run : QueueCall → Hrx Memory Returned
  | stream k => k.run
  | streamCreate device flags out => hrxStreamCreate device flags out
  | fill device affinity waits signals buffer offset size pattern patternSize =>
    faulting (hrxQueueFill device affinity waits signals buffer offset size pattern patternSize)
  | copy device affinity waits signals src srcOffset dst dstOffset size =>
    faulting (hrxQueueCopy device affinity waits signals src srcOffset dst dstOffset size)

/-- The lists that a direct queue operation comes to read fit its stack arrays. -/
def Fitting (o : Outside) (n : ℕ) : QueueCall → Prop
  | fill device affinity waits signals buffer offset size pattern patternSize =>
    (QueueOperation.fill buffer offset size pattern patternSize).refusal o n device affinity =
      none →
      Fits waits ∧ Fits signals
  | copy device affinity waits signals src srcOffset dst dstOffset size =>
    (QueueOperation.copy src srcOffset dst dstOffset size).refusal o n device affinity = none →
      Fits waits ∧ Fits signals
  | _ => True

def onStream : QueueCall → Option ℕ
  | stream k => k.stream
  | _ => none

def direct : QueueCall → Bool
  | fill .. | copy .. => true
  | _ => false

end QueueCall

/-- What a direct queue operation does with its command buffer `n` before it releases it. -/
inductive Transfer (n : ℕ) : Trace → Prop
  | notBegun {b : Happened} (hb : b.call = .commandBufferBegin (some n)) : Transfer n [b]
  | notRecorded {b c : Happened} {command : Command} (hb : b.call = .commandBufferBegin (some n))
      (hbok : ok b = true) (hc : c.call = .commandBufferRecord (some n) command) : Transfer n [b, c]
  | notEnded {b c e : Happened} {command : Command} (hb : b.call = .commandBufferBegin (some n))
      (hbok : ok b = true) (hc : c.call = .commandBufferRecord (some n) command)
      (hcok : ok c = true)
      (he : e.call = .commandBufferEnd (some n)) : Transfer n [b, c, e]
  | executed {b c e x : Happened} {command : Command} {d f : ℕ} {w g : List SemaphorePoint}
      (hb : b.call = .commandBufferBegin (some n)) (hbok : ok b = true)
      (hc : c.call = .commandBufferRecord (some n) command) (hcok : ok c = true)
      (he : e.call = .commandBufferEnd (some n)) (heok : ok e = true)
      (hx : x.call = .queueExecute d f w g (some n)) : Transfer n [b, c, e, x]

/-- A created command buffer that is given up before it is submitted, or one that was not
created. -/
def Relinquished (n : ℕ) (es : Trace) : Prop :=
  ∃ x v tail, es = x :: v ++ tail ∧ (∃ d k f, x.call = .commandBufferCreate d k f) ∧ x.pos = n ∧
    (∀ e ∈ tail, quiet e.call = true) ∧
    (v = [] ∧ ok x = false ∨
      ∃ u r, v = u ++ [r] ∧ Transfer n u ∧ r.call = .commandBufferRelease (some n))

theorem payloads_quiet (o : Outside) (n : ℕ) (e : Happened) :
    ∀ x ∈ payloads o n e, quiet x.call = true := by
  intro x hx
  rw [payloads_calls o n e x hx]
  rfl

theorem transferBuffer_cases (o : Outside) (n : ℕ) (s : σ) (device : DevicePtr) (qa : ℕ)
    (command : Command) : ∃ r es, (transferBuffer device qa command).run o n s = ⟨r, s, es⟩ ∧
      ((∃ status, r = .error status ∧ Relinquished n es) ∨
        transferRefusal o n device qa command = none ∧ r = .ok n ∧ ∃ x b c e, es = [x, b, c, e] ∧
          (∃ d k f, x.call = .commandBufferCreate d k f) ∧ x.pos = n ∧
          b.call = .commandBufferBegin (some n) ∧ ok b = true ∧
          c.call = .commandBufferRecord (some n) command ∧ ok c = true ∧
          e.call = .commandBufferEnd (some n) ∧ ok e = true) := by
  let x := happens o n (.commandBufferCreate device.halDevice 1 qa)
  let b := happens o (n + 1) (.commandBufferBegin (some n))
  let c := happens o (n + 2) (.commandBufferRecord (some n) command)
  let e := happens o (n + 3) (.commandBufferEnd (some n))
  let release := fun i ↦ happens o i (.commandBufferRelease (some n))
  cases hx : ok (happens o n (.commandBufferCreate device.halDevice 1 qa)) with
  | false =>
    have hrun : (transferBuffer device qa command).run o n s =
        ⟨.error (converted o (n + 1) x), s, x :: payloads o (n + 1) x⟩ := by
      simp [transferBuffer, hx, run_hrxStatusFromIree_made, x]
    exact ⟨_, _, hrun, .inl ⟨_, rfl, x, [], _, rfl, ⟨_, _, _, rfl⟩, rfl, payloads_quiet _ _ _,
      .inl ⟨rfl, hx⟩⟩⟩
  | true =>
    cases hb : ok (happens o (n + 1) (.commandBufferBegin (some n))) with
    | false =>
      have hrun : (transferBuffer device qa command).run o n s =
          ⟨.error (converted o (n + 3) b), s, x :: [b, release (n + 2)] ++ payloads o
            (n + 3) b⟩ := by
        simp [transferBuffer, hx, hb, run_hrxStatusFromIree_made, x, b, release]
      exact ⟨_, _, hrun, .inl ⟨_, rfl, x, [b, _], _, rfl, ⟨_, _, _, rfl⟩, rfl, payloads_quiet _ _ _,
        .inr ⟨[b], _, rfl, .notBegun rfl, rfl⟩⟩⟩
    | true =>
      cases hc : ok (happens o (n + 2) (.commandBufferRecord (some n) command)) with
      | false =>
        have hrun : (transferBuffer device qa command).run o n s =
            ⟨.error (converted o (n + 4) c), s,
              x :: [b, c, release (n + 3)] ++ payloads o (n + 4) c⟩ := by
          simp [transferBuffer, hx, hb, hc, run_hrxStatusFromIree_made, x, b, c, release]
        exact ⟨_, _, hrun, .inl ⟨_, rfl, x, [b, c, _], _, rfl, ⟨_, _, _, rfl⟩, rfl,
          payloads_quiet _ _ _, .inr ⟨[b, c], _, rfl, .notRecorded rfl hb rfl, rfl⟩⟩⟩
      | true =>
        cases he : ok (happens o (n + 3) (.commandBufferEnd (some n))) with
        | false =>
          have hrun : (transferBuffer device qa command).run o n s =
              ⟨.error (converted o (n + 5) e), s,
                x :: [b, c, e, release (n + 4)] ++ payloads o (n + 5) e⟩ := by
            simp [transferBuffer, hx, hb, hc, he, run_hrxStatusFromIree_made, x, b, c, e, release]
          exact ⟨_, _, hrun, .inl ⟨_, rfl, x, [b, c, e, _], _, rfl, ⟨_, _, _, rfl⟩, rfl,
            payloads_quiet _ _ _, .inr ⟨[b, c, e], _, rfl, .notEnded rfl hb rfl hc rfl, rfl⟩⟩⟩
        | true =>
          have hrun : (transferBuffer device qa command).run o n s = ⟨.ok n, s, [x, b, c, e]⟩ := by
            simp [transferBuffer, hx, hb, hc, he, x, b, c, e]
          have hread : transferRefusal o n device qa command = none := by
            simp [transferRefusal, hx, hb, hc, he]
          exact ⟨_, _, hrun,
            .inr ⟨hread, rfl, x, b, c, e, rfl, ⟨_, _, _, rfl⟩, rfl, rfl, hb, rfl, hc, rfl, he⟩⟩

/-- A direct queue operation whose lists fit fails to create its command buffer, or releases it. -/
theorem transfer_cases (o : Outside) (n : ℕ) (s : σ) (device : DevicePtr) (qa : ℕ)
    (waits signals : CallerListPtr) (command : Command)
    (hfits : transferRefusal o n device qa command = none → Fits waits ∧ Fits signals) :
    ∃ r es, (faulting (submitting (transferBuffer device qa command) waits signals
      (executeTransfer device qa))).run o n s = ⟨r, s, es⟩ ∧ Relinquished n es := by
  obtain ⟨r, es, hrun,
    ⟨status, rfl, hgives⟩ | ⟨hread, rfl, x, b, c, e, rfl, hx, hpos, hb, hbok, hc, hcok,
    he, heok⟩⟩ := transferBuffer_cases o n s device qa command
  · have hall : (faulting (submitting (transferBuffer device qa command) waits signals
        (executeTransfer device qa))).run o n s = ⟨⟨status, .nothing⟩, s, es⟩ := by
      simp [faulting, submitting, hrun]
    exact ⟨_, _, hall, hgives⟩
  · obtain ⟨hw, hg⟩ := hfits hread
    let q :=
      happens o (n + 4)
        (.queueExecute device.halDevice qa (entries waits) (entries signals) (some n))
    have hall : (faulting (submitting (transferBuffer device qa command) waits signals
        (executeTransfer device qa))).run o n s = ⟨⟨converted o (n + 6) q, .nothing⟩, s,
          x :: [b, c, e, q, happens o (n + 5) (.commandBufferRelease (some n))] ++ payloads o
            (n + 6) q⟩ := by
      simp [faulting, submitting, hrun, withLists, toIreeSemList_ok hw, toIreeSemList_ok hg,
        executeTransfer, run_hrxStatusFromIree_made, q]
    exact ⟨_, _, hall, x, [b, c, e, q, _], _, rfl, hx, hpos, payloads_quiet _ _ _,
      .inr ⟨[b, c, e, q], _, rfl, .executed hb hbok hc hcok he heok rfl, rfl⟩⟩

/-- Whatever a direct queue operation is given, if its lists fit, it checks it, fails to create its
command buffer, or releases it. -/
theorem QueueCall.direct_cases {k : QueueCall} (hk : k.direct = true) (o : Outside) (n : ℕ)
    (mem : Memory) (hfits : k.Fitting o n) : (k.run.run o n mem).state = mem ∧
      ((∀ e ∈ (k.run.run o n mem).events, quiet e.call = true) ∨
        Relinquished n (k.run.run o n mem).events) := by
  have hrefuse : ∀ message, ((faulting (refuse .invalidArgument message)).run o n mem).state = mem ∧
      ∀ e ∈ ((faulting (refuse .invalidArgument message)).run o n mem).events,
      quiet e.call = true := by
    intro message
    have herror := hrxError_aside .invalidArgument message o n mem
    simpa [faulting, refuse] using herror
  cases k with
  | stream k => cases hk
  | streamCreate device flags out => cases hk
  | fill device affinity waits signals buffer offset size pattern patternSize =>
    simp only [Fitting, QueueOperation.refusal] at hfits
    simp only [run, hrxQueueFill]
    split
    · obtain ⟨r, es, hrun, hgives⟩ := transfer_cases o n mem _ _ waits signals _ hfits
      rw [hrun]
      exact ⟨rfl, .inr hgives⟩
    · exact ⟨(hrefuse _).1, .inl (hrefuse _).2⟩
  | copy device affinity waits signals src srcOffset dst dstOffset size =>
    simp only [Fitting, QueueOperation.refusal] at hfits
    simp only [run, hrxQueueCopy]
    split
    · obtain ⟨r, es, hrun, hgives⟩ := transfer_cases o n mem _ _ waits signals _ hfits
      rw [hrun]
      exact ⟨rfl, .inr hgives⟩
    · exact ⟨(hrefuse _).1, .inl (hrefuse _).2⟩

theorem hrxDeviceRetain_confined (device : ℕ) :
    Confined Memory.streams (fun c ↦ quiet c = true) (hrxDeviceRetain device) := .update fun _ ↦ rfl

theorem hrxSemaphoreCreate_confined (device : HrxDevice) (initialValue : ℕ) (out : Bool) :
    Confined Memory.streams (fun c ↦ quiet c = true)
      (hrxSemaphoreCreate device initialValue out) := by
  have hstatus : ∀ s, Confined Memory.streams (fun c ↦ quiet c = true)
      (hrxStatusFromIree s : Hrx Memory HrxStatus) := fun s o n mem ↦
    ⟨congrArg Memory.streams (hrxStatusFromIree_aside s o n mem).1,
      (hrxStatusFromIree_aside s o n mem).2⟩
  have herror : ∀ message, Confined Memory.streams (fun c ↦ quiet c = true)
      (hrxError .invalidArgument message : Hrx Memory HrxStatus) := fun message o n mem ↦
    ⟨congrArg Memory.streams (hrxError_aside _ message o n mem).1,
      (hrxError_aside _ message o n mem).2⟩
  unfold hrxSemaphoreCreate
  split
  · refine .bind (.call rfl) fun e ↦ .ite ((hstatus _).bind fun _ ↦ .pure _) ?_
    refine (hrxDeviceRetain_confined _).bind fun _ ↦ .bind ?_ fun _ ↦ .pure _
    exact .bind (.call rfl) fun _ ↦ .bind .state fun _ ↦ .bind (.update fun _ ↦ rfl) fun _ ↦ .pure _
  · exact (herror _).bind fun _ ↦ .pure _

theorem streamOn_cases (o : Outside) (n : ℕ) (mem : Memory) (dev : DevicePtr) (flags : ℕ)
    (s : HrxStatus) (sem : HrxSemaphore) :
    (∀ e ∈ ((streamOn dev flags s sem).run o n mem).events, quiet e.call = true) ∧
      (((streamOn dev flags s sem).run o n mem).state.streams = mem.streams ∨
        ∃ a st, mem.streams.cell a = none ∧ st.pendingCb = none ∧ st.hasPendingWork = false ∧
          ((streamOn dev flags s sem).run o n mem).state.streams =
            mem.streams.put a (some ⟨1, st⟩)) := by
  cases s with
  | some err =>
    have hrel :
        Confined Memory.streams (fun c ↦ quiet c = true) (streamOn dev flags (some err) sem) :=
      (hrxDeviceRelease_confined (fun _ _ ↦ rfl) _).bind fun _ ↦ .pure _
    exact ⟨(hrel o n mem).2, .inl (hrel o n mem).1⟩
  | none =>
    refine ⟨by simp [streamOn, hrxStatusIsOk, intoHandle, quiet],
      .inr ⟨mem.streams.fresh (happens o n .arcNew).answer.value,
      ⟨0, none, false, flags, sem.getD .null, dev⟩, Heap.fresh_cell _ _, rfl, rfl, rfl⟩⟩

/-- `hrx_stream_create` adds at most one stream, which has no command buffer. -/
theorem hrxStreamCreate_cases (o : Outside) (n : ℕ) (mem : Memory) (device : HrxDevice) (flags : ℕ)
    (out : Bool) :
    (∀ e ∈ ((hrxStreamCreate device flags out).run o n mem).events, quiet e.call = true) ∧
      (((hrxStreamCreate device flags out).run o n mem).state.streams = mem.streams ∨
        ∃ a st, mem.streams.cell a = none ∧ st.pendingCb = none ∧ st.hasPendingWork = false ∧
          ((hrxStreamCreate device flags out).run o n mem).state.streams =
            mem.streams.put a (some ⟨1, st⟩)) := by
  unfold hrxStreamCreate
  split
  · rename_i dev
    have hretain := hrxDeviceRetain_confined dev.addr o n mem
    simp only [run_bind, Outcome.after_events, Outcome.after_state]
    generalize (hrxDeviceRetain dev.addr).run o n mem = r₁ at *
    have hsem := hrxSemaphoreCreate_confined (some dev) 0 true o (n + r₁.events.length) r₁.state
    generalize (hrxSemaphoreCreate (some dev) 0 true).run o
      (n + r₁.events.length) r₁.state = r₂ at *
    obtain ⟨hquiet, hstreams⟩ := streamOn_cases o
      (n + r₁.events.length + r₂.events.length) r₂.state dev flags r₂.val.1 r₂.val.2
    rw [hsem.1, hretain.1] at hstreams
    refine ⟨?_, hstreams⟩
    intro e he
    obtain he | he | he := by simpa only [List.mem_append] using he
    · exact hretain.2 e he
    · exact hsem.2 e he
    · exact hquiet e he
  · have herr := Confined.bind (f := id) (P := fun c ↦ quiet c = true)
      (k := fun s ↦ Pure.pure (⟨s, .nothing⟩ : Returned))
      (hrxError_aside .invalidArgument "device or stream is NULL") (fun _ ↦ .pure _) o n mem
    exact ⟨herr.2, .inl (congrArg Memory.streams herr.1)⟩

end HrxSystem.Libhrx
