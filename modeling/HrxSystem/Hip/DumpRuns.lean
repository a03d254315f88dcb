import HrxSystem.Hip.FreedMemory
import HrxSystem.Hip.TableRuns

namespace HrxSystem.Hip

open External Program

def Tracer.writes (lines : List TraceLine) (st : Tracer) : Tracer :=
  { st with output := st.output ++ if st.traceFile then lines else [] }

section Writes

variable (st : Tracer) (lines : List TraceLine)

@[simp] theorem writes_config : (st.writes lines).config = st.config := rfl

@[simp] theorem writes_buffers : (st.writes lines).buffers = st.buffers := rfl

@[simp] theorem writes_nil : st.writes [] = st := by
  simp [Tracer.writes]

@[simp] theorem writes_writes (lines' : List TraceLine) :
    (st.writes lines).writes lines' = st.writes (lines ++ lines') := by
  cases hfile : st.traceFile <;> simp [Tracer.writes, hfile]

theorem raw_eq (line : TraceLine) : st.raw line = st.writes [line] := by
  rw [Tracer.raw, Tracer.writes]
  split <;> simp

theorem message_eq (level : ℤ) (line : TraceLine) :
    st.message level line = st.writes (if level ≤ st.config.traceLevel then [line] else []) := by
  rw [Tracer.message]
  by_cases hlevel : level ≤ st.config.traceLevel
  · rw [if_pos hlevel, ← raw_eq, Tracer.raw]
    cases hfile : st.traceFile <;> simp [hlevel]
  · rw [if_neg hlevel, writes_nil, if_pos]
    simp [Int.not_le.mp hlevel]

end Writes

section OneBuffer

variable (config : TracerConfig) (force : Bool) (b : TrackedBuffer)

def dumpLimit : ℕ := if force then b.size else config.traceDumpMax

def readSize : ℕ :=
  if !force && config.traceDumpMax > 0 && b.size > config.traceDumpMax then config.traceDumpMax
    else b.size

def dumpRequest : HipRequest :=
  if b.btype = .device then .stage b.ptr (readSize config force b) else .read b.ptr
    (readSize config force b)

/-- The text that `dump_buffer_hex` writes within the bounds of its data. -/
def hexText (data : List UInt8) (size maxBytes : ℕ) : String :=
  "    " ++ String.join ((data.take (min size maxBytes)).zipIdx.map fun p ↦ hexPiece p.2 p.1) ++
    (if size > maxBytes then "... (" ++ toString (size - maxBytes) ++ " more bytes)" else "") ++
    "\n"

/-- The lines about a buffer whose read was answered with `a`. -/
def dumpLines (a : HipAnswer) : List TraceLine :=
  if b.btype = .device ∧ a.ret ≠ 0 then
    if 1 ≤ config.traceLevel then [.dumpFailed b a.ret] else []
  else if config.traceDump = 2 ∧ force = false then
    [.dumpHash b (computeHash (firstBytes (readSize config force b) a.bytes))]
  else
    [.dumpEntry b, .dumpHex
      (hexText (firstBytes (readSize config force b) a.bytes) b.size (dumpLimit config force b))]

theorem dumpBufferHex_eq_some {data : List UInt8} {size maxBytes : ℕ}
    (h : min size maxBytes ≤ data.length) :
    dumpBufferHex data size maxBytes = some (hexText data size maxBytes) := by
  rw [dumpBufferHex, if_pos h, hexText]

theorem firstBytes_length (n : ℕ) (bytes : List UInt8) : (firstBytes n bytes).length = n := by
  simp [firstBytes]
  omega

theorem readSize_le : readSize config force b ≤ b.size := by
  rw [readSize]
  split
  case isTrue h =>
    simp only [Bool.and_eq_true, decide_eq_true_eq] at h
    exact h.2.le
  case isFalse => exact le_rfl

theorem shown_le_readSize : min b.size (dumpLimit config force b) ≤ readSize config force b := by
  rw [dumpLimit, readSize]
  cases force with
  | true => simp
  | false =>
    by_cases h : config.traceDumpMax > 0 ∧ b.size > config.traceDumpMax
    · simp [h]
    · simp [h]

variable {config force b} {present : Present} {o : Backend} {n : ℕ} {st : Tracer}

theorem run_reportBuffer {data : List UInt8} {maxDump : ℕ} (h : min b.size maxDump ≤ data.length) :
    (reportBuffer force maxDump b data).run o n st = ⟨some (), st.writes
      (if st.config.traceDump = 2 ∧ force = false then [.dumpHash b (computeHash data)]
        else [.dumpEntry b, .dumpHex (hexText data b.size maxDump)]), []⟩ := by
  by_cases hhash : st.config.traceDump = 2 ∧ force = false
  · rw [if_pos hhash]
    simp [reportBuffer, rawWrite, hhash, raw_eq]
  · rw [if_neg hhash]
    simp [reportBuffer, rawWrite, hhash, raw_eq, dumpBufferHex_eq_some h]

theorem run_dumpBuffer_unused (h : b.inUse = false) :
    (dumpBuffer present force b).run o n st = ⟨some (), st, []⟩ := by
  simp [dumpBuffer, h]

theorem dumpBuffer_eq (huse : b.inUse = true) (hsize : b.size ≠ 0) :
    dumpBuffer present force b = (do
    let st ← state
    if b.btype = .device then
      if !present .hipMemcpy then return none
      let e ← call (.stage b.ptr (readSize st.config force b))
      if e.answer.ret ≠ 0 then
        traceMsg 1 (.dumpFailed b e.answer.ret)
        return some ()
      reportBuffer force (dumpLimit st.config force b) b
        (firstBytes (readSize st.config force b) e.answer.bytes)
    else
      let e ← call (.read b.ptr (readSize st.config force b))
      reportBuffer force (dumpLimit st.config force b) b
        (firstBytes (readSize st.config force b) e.answer.bytes)) := by
  rw [dumpBuffer, if_neg (by simp [huse, hsize])]
  rfl

theorem run_dumpBuffer (hp : b.btype = .device → present .hipMemcpy = true) (huse : b.inUse = true)
    (hsize : b.size ≠ 0) :
    (dumpBuffer present force b).run o n st =
      ⟨some (), st.writes (dumpLines st.config force b (o n (dumpRequest st.config force b))),
        [happens o n (dumpRequest st.config force b)]⟩ := by
  have hreport : ∀ bytes, (reportBuffer force (dumpLimit st.config force b) b
      (firstBytes (readSize st.config force b) bytes)).run o (n + 1) st = _ :=
      fun bytes ↦ run_reportBuffer <| by
    rw [firstBytes_length]
    exact shown_le_readSize st.config force b
  by_cases hdev : b.btype = .device
  · have hreq : dumpRequest st.config force b = .stage b.ptr (readSize st.config force b) :=
      if_pos hdev
    rw [hreq]
    generalize ha : o n (.stage b.ptr (readSize st.config force b)) = a
    by_cases hret : a.ret = 0
    · simp [dumpBuffer_eq huse hsize, hdev, hp hdev, happens, ha, hret, hreport, dumpLines]
    · simp [dumpBuffer_eq huse hsize, hdev, hp hdev, happens, ha, hret, dumpLines,
        traceMsg, message_eq]
  · have hreq : dumpRequest st.config force b = .read b.ptr (readSize st.config force b) :=
      if_neg hdev
    rw [hreq]
    simp [dumpBuffer_eq huse hsize, hdev, happens, hreport, dumpLines]

end OneBuffer

section AllBuffers

variable (config : TracerConfig) (force : Bool) (o : Backend) (n : ℕ)

/-- The reads of a dump of the entries in use `bs`, from place `n` of the trace on. -/
def dumpReads (bs : List TrackedBuffer) : HipTrace :=
  (bs.zipIdx n).map fun p ↦ happens o p.2 (dumpRequest config force p.1)

def dumpReport (bs : List TrackedBuffer) : List TraceLine :=
  (bs.zipIdx n).flatMap fun p ↦ dumpLines config force p.1 (o p.2 (dumpRequest config force p.1))

def dumpHeader (label : String) (count : ℕ) : List TraceLine :=
  if 3 ≤ config.traceLevel then [.dumpHeader label count force] else []

variable {config force o n} {present : Present} {st : Tracer}

theorem run_dumpBuffers {bs : List TrackedBuffer}
    (hp : ∀ b ∈ bs, b.inUse = true → b.btype = .device → present .hipMemcpy = true)
    (hbs : ∀ b ∈ bs, b.inUse = true → b.size ≠ 0) : (dumpBuffers present force bs).run o n st =
      ⟨some (), st.writes (dumpReport st.config force o n (bs.filter TrackedBuffer.inUse)),
        dumpReads st.config force o n (bs.filter TrackedBuffer.inUse)⟩ := by
  induction bs generalizing n st with
  | nil => simp [dumpBuffers, dumpReport, dumpReads]
  | cons b bs ih =>
    have hp' := fun c hc ↦ hp c (List.mem_cons_of_mem b hc)
    have hbs' := fun c hc ↦ hbs c (List.mem_cons_of_mem b hc)
    cases huse : b.inUse with
    | false =>
      rw [List.filter_cons_of_neg (by simp [huse]), dumpBuffers, orAbort, run_bind,
        run_dumpBuffer_unused huse]
      exact ih hp' hbs'
    | true =>
      rw [List.filter_cons_of_pos huse, dumpBuffers, orAbort, run_bind,
        run_dumpBuffer (hp b List.mem_cons_self huse) huse (hbs b List.mem_cons_self huse)]
      simp only [List.length_singleton]
      rw [ih hp' hbs', writes_config, writes_writes]
      rfl

/-- A dump that returns found `hipMemcpy`, if it had a device buffer to copy. -/
theorem staged_of_returns {bs : List TrackedBuffer} (hbs : ∀ b ∈ bs, b.inUse = true → b.size ≠ 0)
    (h : ((dumpBuffers present force bs).run o n st).val.isSome = true) :
    ∀ b ∈ bs, b.inUse = true → b.btype = .device → present .hipMemcpy = true := by
  cases hp : present .hipMemcpy with
  | true => exact fun _ _ _ _ ↦ rfl
  | false =>
    induction bs generalizing n st with
    | nil => exact fun b hb ↦ absurd hb List.not_mem_nil
    | cons b bs ih =>
      have hbs' := fun c hc ↦ hbs c (List.mem_cons_of_mem b hc)
      rw [dumpBuffers, orAbort, run_bind] at h
      have hhead : b.inUse = true → b.btype ≠ .device := by
        intro huse hdev
        rw [dumpBuffer_eq huse (hbs b List.mem_cons_self huse)] at h
        simp [hdev, hp] at h
      have hrest : ∃ n' st', ((dumpBuffers present force bs).run o n' st').val.isSome = true := by
        cases huse : b.inUse with
        | false =>
          rw [run_dumpBuffer_unused huse] at h
          exact ⟨_, _, h⟩
        | true =>
          have hdev : b.btype = .device → present .hipMemcpy = true :=
            fun hdev ↦ absurd hdev (hhead huse)
          rw [run_dumpBuffer hdev huse (hbs b List.mem_cons_self huse)] at h
          exact ⟨_, _, h⟩
      obtain ⟨n', st', hrest⟩ := hrest
      intro c hc huse hdev
      rcases List.mem_cons.mp hc with rfl | hc
      · exact absurd hdev (hhead huse)
      · exact ih hbs' hrest c hc huse hdev

/-- A dump reads the entries in use, each once and in order, and reports them under their number. -/
theorem run_dumpAllBuffersEx (label : String) (hdump : st.config.traceDump ≠ 0)
    (hp : ∀ b ∈ st.buffers.used, b.btype = .device → present .hipMemcpy = true)
    (hbs : ∀ b ∈ st.buffers.used, b.size ≠ 0) : (dumpAllBuffersEx present label force).run o n st =
      ⟨some (), st.writes (dumpHeader st.config force label st.buffers.count ++
        dumpReport st.config force o n st.buffers.used),
        dumpReads st.config force o n st.buffers.used⟩ := by
  have hp' :
      ∀ b ∈ st.buffers.buffers, b.inUse = true → b.btype = .device → present .hipMemcpy = true :=
    fun b hb huse ↦ hp b (List.mem_filter.mpr ⟨hb, huse⟩)
  have hbs' : ∀ b ∈ st.buffers.buffers, b.inUse = true → b.size ≠ 0 :=
    fun b hb huse ↦ hbs b (List.mem_filter.mpr ⟨hb, huse⟩)
  rw [dumpAllBuffersEx, run_bind, run_state, if_neg hdump, run_bind, traceMsg,
    run_update, message_eq]
  simp only [List.length_nil, Nat.add_zero, Outcome.after_nil]
  rw [run_dumpBuffers hp' hbs', writes_config, writes_writes]
  rfl

end AllBuffers

def freshTable : BufferTable := ⟨List.replicate maxTrackedBuffers emptyBuffer, 0, 1⟩

section Sizes

def Sized (st : Tracer) : Prop := ∀ b ∈ st.buffers.used, b.size ≠ 0

variable {st st' : Tracer} {present : Present} {direct : PresentDirect} {o : Backend} {n : ℕ}

theorem unused_slots (k : ℕ) : (List.replicate k emptyBuffer).filter TrackedBuffer.inUse = [] := by
  rw [List.filter_eq_nil_iff]
  intro b hb
  rw [List.eq_of_mem_replicate hb]
  exact Bool.false_ne_true

theorem freshTable_used : freshTable.used = [] := unused_slots maxTrackedBuffers

theorem initial_sized (config : TracerConfig) (traceFile ownsFile : Bool) :
    Sized (.initial config traceFile ownsFile) := by
  intro b hb
  rw [initial_buffers, ← freshTable, freshTable_used] at hb
  exact absurd hb List.not_mem_nil

theorem Sized.congr (h : Sized st) (hst : st'.buffers = st.buffers) : Sized st' := by
  rw [Sized, hst]
  exact h

theorem Sized.apply (h : Sized st) (op : TableOp) : Sized (op.apply st) := by
  have hstep := op.apply_step st
  rw [Sized]
  generalize (op.apply st).buffers = t at hstep
  cases hstep with
  | ignored => exact h
  | added _ hsize hused =>
    intro b hb
    rcases List.mem_cons.mp (hused.mem_iff.mp hb) with rfl | hb
    · exact hsize
    · exact h b hb
  | removed _ hused => exact fun b hb ↦ h b (hused.mem_iff.mpr (List.mem_cons_of_mem _ hb))

theorem Sized.run {x : Exported} (h : Sized st)
    (hret : ((x.run present direct).run o n st).val.isSome = true) :
    Sized ((x.run present direct).run o n st).state := by
  have hmalloc :
      ∀ {c p size btype}, ((tracedMalloc present c p size btype).run o n st).val.isSome = true →
      Sized ((tracedMalloc present c p size btype).run o n st).state := by
    intro c p size btype hret
    refine Sized.congr ?_ (tracedMalloc_run hret).2
    split
    · exact h.apply (.add _ size btype)
    · exact h
  have hfree : ∀ {c p}, ((tracedFree present c p).run o n st).val.isSome = true →
      Sized ((tracedFree present c p).run o n st).state := fun hret ↦
    (h.apply (.remove _)).congr (tracedFree_run hret).2.1
  cases hx : x.isMemory with
  | false => exact h.congr (Exported.run_within hx o n st rfl).1
  | true =>
    cases x with
    | direct name args => cases hx
    | routed c =>
      cases c with
      | hipMalloc | hipHostMalloc => exact hmalloc hret
      | hipFree | hipHostFree => exact hfree hret
      | _ => cases hx

end Sizes

theorem orAbort_returns {σ α β : Type} {m : HipM σ (Option α)} {k : α → HipM σ (Option β)}
    {o : Backend} {n : ℕ} {s : σ} (h : ((orAbort m k).run o n s).val.isSome = true) :
    ∃ a s' es, m.run o n s = ⟨some a, s', es⟩ ∧
      ((k a).run o (n + es.length) s').val.isSome = true ∧
      (orAbort m k).run o n s = ((k a).run o (n + es.length) s').after es := by
  rw [orAbort, run_bind] at h ⊢
  generalize m.run o n s = r at h ⊢
  obtain ⟨v, s', es⟩ := r
  cases v with
  | none => cases h
  | some a => exact ⟨a, s', es, rfl, h, rfl⟩

theorem unwrapCall_returns {σ : Type} {present : Present} {c : HipCall} {o : Backend} {n : ℕ}
    {s : σ} (h : ((unwrapCall present c).run o n s).val.isSome = true) :
    (unwrapCall present c).run o n s =
      ⟨some (o n (.call c)), s, [happens o n (.call c)]⟩ := by
  cases hc : present c.symbol with
  | false => simp [unwrapCall, hc] at h
  | true => simp [unwrapCall, hc, happens]

section Around

variable (st : Tracer) (o : Backend) (n : ℕ) (dumps force : Bool) (label : String)

/-- What a dump asks for from place `n` of the trace on. -/
def dumpEvents : HipTrace :=
  if st.config.traceDump = 0 then [] else dumpReads st.config force o n st.buffers.used

def dumpOutput : List TraceLine :=
  if st.config.traceDump = 0 then []
  else dumpHeader st.config force label st.buffers.count ++
    dumpReport st.config force o n st.buffers.used

/-- A synchronization and a dump, if the launch is to have them. -/
def aroundEvents : HipTrace :=
  if dumps then happens o n (.call .hipDeviceSynchronize) :: dumpEvents st o (n + 1) force else []

def aroundLines : List TraceLine := if dumps then dumpOutput st o (n + 1) force label else []

variable {st o n dumps force label} {present : Present}

theorem run_dumpAll (hst : Sized st)
    (h : ((dumpAllBuffersEx present label force).run o n st).val.isSome = true) :
    (dumpAllBuffersEx present label force).run o n st =
      ⟨some (), st.writes (dumpOutput st o n force label), dumpEvents st o n force⟩ := by
  by_cases hdump : st.config.traceDump = 0
  · simp [dumpAllBuffersEx, hdump, dumpOutput, dumpEvents]
  · have hbs : ∀ b ∈ st.buffers.buffers, b.inUse = true → b.size ≠ 0 :=
      fun b hb huse ↦ hst b (List.mem_filter.mpr ⟨hb, huse⟩)
    rw [dumpAllBuffersEx, run_bind, run_state, if_neg hdump, run_bind] at h
    have hp := staged_of_returns hbs h
    rw [run_dumpAllBuffersEx label hdump (fun b hb ↦ hp b (List.mem_of_mem_filter hb)
      (List.mem_filter.mp hb).2) hst, dumpOutput, dumpEvents, if_neg hdump, if_neg hdump]

theorem run_around (hst : Sized st) (h : ((if dumps then syncAndDump present label force
      else return some () : HipM Tracer (Option Unit)).run o n st).val.isSome = true) :
    (if dumps then syncAndDump present label force else return some () :
      HipM Tracer (Option Unit)).run o n st =
      ⟨some (), st.writes (aroundLines st o n dumps force label),
        aroundEvents st o n dumps force⟩ := by
  cases dumps with
  | false => simp [aroundLines, aroundEvents]
  | true =>
    simp only [if_true] at h ⊢
    obtain ⟨a, st', es, hsync, hdump, hrun⟩ := orAbort_returns h
    have hcall := unwrapCall_returns (congrArg (fun r ↦ r.val.isSome) hsync)
    rw [hsync] at hcall
    simp only [Outcome.mk.injEq] at hcall
    obtain ⟨-, rfl, rfl⟩ := hcall
    rw [syncAndDump, hrun, run_dumpAll hst hdump, aroundLines, aroundEvents, if_pos rfl, if_pos rfl]
    rfl

end Around


end HrxSystem.Hip
