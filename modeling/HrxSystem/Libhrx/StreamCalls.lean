import HrxSystem.Libhrx.StreamApi
import HrxSystem.Libhrx.StreamSteps

namespace HrxSystem.Libhrx

open External Program Counting HrxStreamS

/-- A call of `stream.rs` on an existing stream, or of `hrx_buffer_allocate`. A
`Bool` argument says whether the out pointer is non-null. -/
inductive StreamCall
  | fillBuffer (stream : HrxStream) (buffer : HrxBuffer) (offset size : ℕ) (pattern : Option ℕ)
      (patternSize : ℕ)
  | copyBuffer (stream : HrxStream) (src : HrxBuffer) (srcOffset : ℕ) (dst : HrxBuffer)
      (dstOffset size : ℕ)
  | updateBuffer (stream : HrxStream) (hostData : Option ℕ) (hostDataSize : ℕ) (dst : HrxBuffer)
      (dstOffset : ℕ)
  | executionBarrier (stream : HrxStream)
  | dispatch (stream : HrxStream) (args : DispatchArgs)
  | flush (stream : HrxStream)
  | synchronize (stream : HrxStream)
  | wait (stream : HrxStream)
  | query (stream : HrxStream) (complete : Bool)
  | getSemaphore (stream : HrxStream) (semaphore : Bool)
  | getDevice (stream : HrxStream) (device : Bool)
  | getTimelinePosition (stream : HrxStream) (position : Bool)
  | advanceTimeline (stream : HrxStream) (value : Bool)
  | waitOn (stream : HrxStream) (position : HrxTimelinePoint)
  | bufferAllocate (stream : HrxStream) (size memType usage : ℕ) (buffer : Bool)
  | retain (stream : ℕ)
  | release (stream : ℕ)

def returning {σ : Type} (m : Hrx σ HrxStatus) : Hrx σ Returned := do return ⟨← m, .nothing⟩

namespace StreamCall

def run : StreamCall → Hrx Memory Returned
  | fillBuffer stream buffer offset size pattern patternSize =>
    returning (hrxStreamFillBuffer stream buffer offset size pattern patternSize)
  | copyBuffer stream src srcOffset dst dstOffset size =>
    returning (hrxStreamCopyBuffer stream src srcOffset dst dstOffset size)
  | updateBuffer stream hostData hostDataSize dst dstOffset =>
    returning (hrxStreamUpdateBuffer stream hostData hostDataSize dst dstOffset)
  | executionBarrier stream => returning (hrxStreamExecutionBarrier stream)
  | dispatch stream args => returning (hrxStreamDispatch stream args)
  | flush stream => returning (hrxStreamFlush stream)
  | synchronize stream => returning (hrxStreamSynchronize stream)
  | wait stream => returning (hrxStreamWait stream)
  | query stream complete => hrxStreamQuery stream complete
  | getSemaphore stream semaphore => hrxStreamGetSemaphore stream semaphore
  | getDevice stream device => hrxStreamGetDevice stream device
  | getTimelinePosition stream position => hrxStreamGetTimelinePosition stream position
  | advanceTimeline stream value => hrxStreamAdvanceTimeline stream value
  | waitOn stream position => returning (hrxStreamWaitOn stream position)
  | bufferAllocate stream size memType usage buffer =>
    hrxBufferAllocate stream size memType usage buffer
  | retain stream => do hrxStreamRetain stream; return ⟨hrxOkStatus, .nothing⟩
  | release stream => do hrxStreamRelease stream; return ⟨hrxOkStatus, .nothing⟩

def stream : StreamCall → HrxStream
  | fillBuffer s .. | copyBuffer s .. | updateBuffer s .. | executionBarrier s | dispatch s _
  | flush s | synchronize s | wait s | query s _ | getSemaphore s _ | getDevice s _
  | getTimelinePosition s _ | advanceTimeline s _ | waitOn s _ | bufferAllocate s .. => s
  | retain s | release s => some s

end StreamCall

/-- What is left of a call once its arguments were accepted. -/
inductive StreamOp
  | record (command : Option Command)
  | executionBarrier
  | flush
  | synchronize
  | wait
  | query
  | getSemaphore
  | getDevice
  | getTimelinePosition
  | advanceTimeline
  | waitOn (semaphore : SemaphorePtr) (value : ℕ)
  | bufferAllocate (size memType usage : ℕ)

def StreamOp.run (shared : SharedState) : StreamOp → Hrx HrxStreamS Returned
  | record command => returning (HrxStreamS.record command)
  | executionBarrier => returning HrxStreamS.executionBarrier
  | flush => returning flushInner
  | synchronize => returning HrxStreamS.synchronize
  | wait => returning HrxStreamS.wait
  | query => HrxStreamS.query
  | getSemaphore => do return ⟨hrxOkStatus, .semaphore (← state).semaphore⟩
  | getDevice => do return ⟨hrxOkStatus, .device (← state).device⟩
  | getTimelinePosition => do
    let st ← state
    return ⟨hrxOkStatus, .point st.semaphore st.timepoint⟩
  | advanceTimeline => HrxStreamS.advanceTimeline
  | waitOn semaphore value => returning (HrxStreamS.waitOn semaphore value)
  | bufferAllocate size memType usage => do
    return ⟨(← HrxStreamS.bufferAllocate shared size memType usage).1, .nothing⟩

/-- The stream and the operation of a call whose arguments pass the checks. -/
def StreamCall.resolve : StreamCall → Option (ℕ × StreamOp)
  | fillBuffer (some st) (some buf) offset size (some p) patternSize =>
    some (st, .record (some (.fillBuffer ⟨buf.hal, offset, size⟩ p patternSize)))
  | copyBuffer (some st) (some s) srcOffset (some d) dstOffset size =>
    some (st, .record (some (.copyBuffer ⟨s.hal, srcOffset, size⟩ ⟨d.hal, dstOffset, size⟩)))
  | updateBuffer (some st) (some h) hostDataSize (some d) dstOffset =>
    some (st, .record (some (.updateBuffer h ⟨d.hal, dstOffset, hostDataSize⟩)))
  | executionBarrier (some st) => some (st, .executionBarrier)
  | dispatch (some st) x =>
    match x.executable, x.config with
    | some executable, some config =>
      if (x.bindingCount > 0 ∧ x.bindings.isNone) ∨
        (x.constantsSize > 0 ∧ x.constants.isNone) then none
      else some (st, .record (x.command executable config))
    | _, _ => none
  | flush (some st) => some (st, .flush)
  | synchronize (some st) => some (st, .synchronize)
  | wait (some st) => some (st, .wait)
  | query (some st) true => some (st, .query)
  | getSemaphore (some st) true => some (st, .getSemaphore)
  | getDevice (some st) true => some (st, .getDevice)
  | getTimelinePosition (some st) true => some (st, .getTimelinePosition)
  | advanceTimeline (some st) true => some (st, .advanceTimeline)
  | waitOn (some st) ⟨some sem, value⟩ => some (st, .waitOn sem value)
  | bufferAllocate (some st) size memType usage true =>
    if size = 0 then none else some (st, .bufferAllocate size memType usage)
  | _ => none

variable {α : Type} {o : Outside} {n : ℕ} {mem : Memory} {a : ℕ} {arc : Arc HrxStreamS}

theorem run_onStream {dead : α} {m : Hrx HrxStreamS α} (ha : mem.streams.cell a = some arc) :
    (onStream a dead m).run o n mem = ⟨(m.run o n arc.data).val,
      { mem with streams := mem.streams.modify a fun _ ↦ (m.run o n arc.data).state },
      (m.run o n arc.data).events⟩ := by
  simp [onStream, ha]

theorem modify_cell (st : HrxStreamS) (ha : mem.streams.cell a = some arc) :
    (mem.streams.modify a fun _ ↦ st).cell =
      Function.update mem.streams.cell a (some ⟨arc.strong, st⟩) := by
  simp only [Heap.modify, ha]
  rfl

/-- A call `r` on the library does to stream `a` what program run `q` does, and
to no other stream anything. It may call out some more, aside. -/
structure Agrees (mem : Memory) (a : ℕ) (arc : Arc HrxStreamS)
    (r : Outcome Call Answer Memory Returned) (q : Outcome Call Answer HrxStreamS Returned) :
    Prop where
  status : r.val.status = q.val.status
  cells : r.state.streams.cell = Function.update mem.streams.cell a (some ⟨arc.strong, q.state⟩)
  globals : r.state.globals = mem.globals
  events : ∃ tail, r.events = q.events ++ tail ∧ ∀ e ∈ tail, quiet e.call = true

theorem agrees_onStream {dead : Returned} {m : Hrx HrxStreamS Returned}
    (ha : mem.streams.cell a = some arc) :
    Agrees mem a arc ((onStream a dead m).run o n mem) (m.run o n arc.data) := by
  rw [run_onStream ha]
  exact ⟨rfl, modify_cell _ ha, rfl, [], by simp⟩

theorem agrees_returning {dead : HrxStatus} {m : Hrx HrxStreamS HrxStatus}
    (ha : mem.streams.cell a = some arc) :
    Agrees mem a arc ((returning (onStream a dead m)).run o n mem)
      ((returning m).run o n arc.data) := by
  simp only [returning, run_bind, run_onStream ha, run_pure, Outcome.after_mk]
  exact ⟨rfl, modify_cell _ ha, rfl, [], by simp⟩

theorem agrees_bufferAllocate {size memType usage : ℕ} (hsize : size ≠ 0)
    (ha : mem.streams.cell a = some arc) :
    Agrees mem a arc ((hrxBufferAllocate (some a) size memType usage true).run o n mem)
      (((StreamOp.bufferAllocate size memType usage).run mem.globals.shared).run o n arc.data) := by
  simp only [hrxBufferAllocate, hsize, if_false, run_bind, run_state, run_onStream ha,
    StreamOp.run, run_pure, Outcome.after_nil, List.length_nil, Nat.add_zero, ha]
  generalize (HrxStreamS.bufferAllocate mem.globals.shared size memType usage).run o n arc.data = q
  obtain ⟨⟨status, made⟩, st', es⟩ := q
  cases made with
  | none =>
    refine ⟨rfl, modify_cell _ ha, rfl, [], ?_⟩
    simp
  | some made =>
    refine ⟨rfl, modify_cell _ ha, rfl, [happens o (n + es.length) .arcNew], ?_, ?_⟩
    · simp [hrxDeviceRetain, handleRetain, intoHandle]
    · simp [quiet]

theorem StreamCall.run_resolved {k : StreamCall} {op : StreamOp} (hk : k.resolve = some (a, op))
    (ha : mem.streams.cell a = some arc) :
    Agrees mem a arc (k.run.run o n mem) ((op.run mem.globals.shared).run o n arc.data) := by
  unfold StreamCall.resolve at hk
  split at hk
  case h_5 st x =>
    split at hk
    · split at hk
      · cases hk
      · rename_i hx hc hargs
        cases hk
        simp only [StreamCall.run, hrxStreamDispatch, hx, hc, hargs, if_false]
        exact agrees_returning ha
    · cases hk
  case h_15 st size memType usage =>
    split at hk
    · cases hk
    · rename_i hsize
      cases hk
      exact agrees_bufferAllocate hsize ha
  case h_16 => cases hk
  all_goals
    cases hk
    first
    | exact agrees_returning ha
    | exact agrees_onStream ha

theorem run_failing {σ : Type} (ho : Roomy o) (message : String) (s : σ) :
    (returning (hrxError .invalidArgument message)).run o n s =
      ⟨⟨some ⟨3, some message⟩, .nothing⟩, s, [payload o n]⟩ := by
  have he := run_hrxError ho (by decide : HrxStatusCode.invalidArgument ≠ .ok) message n s
  simp only [returning, run_bind, he, run_pure, Outcome.after_mk, List.append_nil]
  rfl

theorem StreamCall.run_unresolved {k : StreamCall} (n : ℕ) (mem : Memory) (ho : Roomy o)
    (hk : k.resolve = none) (hretain : ∀ a, k ≠ .retain a) (hrelease : ∀ a, k ≠ .release a) :
    ∃ s, k.run.run o n mem = ⟨⟨some s, .nothing⟩, mem, [payload o n]⟩ := by
  have hfail : ∀ message, ∃ s, (returning (hrxError .invalidArgument message)).run o n mem =
      ⟨⟨some s, .nothing⟩, mem, [payload o n]⟩ := fun message ↦ ⟨_, run_failing ho message mem⟩
  cases k
  case retain a => exact absurd rfl (hretain a)
  case release a => exact absurd rfl (hrelease a)
  case dispatch stream x =>
    simp only [StreamCall.run, hrxStreamDispatch]
    split
    · split
      · exact hfail _
      · rename_i hx hc hargs
        simp only [resolve, hx, hc, hargs, if_false, reduceCtorEq] at hk
    · exact hfail _
  case bufferAllocate stream size memType usage buffer =>
    simp only [StreamCall.run, hrxBufferAllocate]
    split
    · split
      · exact hfail _
      · rename_i hsize
        simp [resolve, hsize] at hk
    · exact hfail _
  case waitOn stream position =>
    simp only [StreamCall.run, hrxStreamWaitOn]
    split
    · exact hfail _
    · exact hfail _
    · rename_i hp
      obtain ⟨sem, value⟩ := position
      obtain rfl : sem = some _ := hp
      simp [resolve] at hk
  case executionBarrier stream | flush stream | synchronize stream | wait stream =>
    cases stream with
    | none => exact hfail _
    | some a => cases hk
  all_goals
    simp only [StreamCall.run, hrxStreamQuery, hrxStreamGetSemaphore, hrxStreamGetDevice,
      hrxStreamGetTimelinePosition, hrxStreamAdvanceTimeline, hrxStreamFillBuffer,
      hrxStreamCopyBuffer, hrxStreamUpdateBuffer]
    split
    · simp [resolve] at hk
    · exact hfail _

theorem StreamCall.stream_of_resolve {k : StreamCall} {op : StreamOp}
    (hk : k.resolve = some (a, op)) : k.stream = some a := by
  unfold StreamCall.resolve at hk
  split at hk
  case h_5 st x =>
    split at hk
    · split at hk
      · cases hk
      · cases hk
        rfl
    · cases hk
  case h_15 st size memType usage =>
    split at hk
    · cases hk
    · cases hk
      rfl
  case h_16 => cases hk
  all_goals
    cases hk
    rfl

end HrxSystem.Libhrx
