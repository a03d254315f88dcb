import HrxSystem.Libhrx.Buffer

namespace HrxSystem.Libhrx

open External Program Counting

/-- The part the two synchronous transfers share; `forward` is the IREE transfer to or from the HAL
buffer. -/
def HrxBufferS.transfer (offset size : ℕ) (forward : Obj → Call) : Hrx HrxBufferS Returned := do
  let buf ← state
  if u64Add offset size > buf.size then
    return ⟨← hrxError .outOfRange "transfer exceeds buffer size", .nothing⟩
  let s ← call (forward buf.halBuffer)
  return ⟨← hrxStatusFromIree s.answer.status, .nothing⟩

def hrxSynchronousH2d (device : HrxDevice) (hostSrc : Option ℕ) (dst : HrxBuffer)
    (dstOffset size : ℕ) :
    Hrx Memory Returned :=
  match device, hostSrc, dst with
  | some d, some p, some b => onBuffer b.addr <| HrxBufferS.transfer dstOffset size fun hal ↦
      .deviceTransferH2d d.halDevice p hal dstOffset size .infinite
  | _, _, _ => return ⟨← hrxError .invalidArgument "NULL argument", .nothing⟩

def hrxSynchronousD2h (device : HrxDevice) (src : HrxBuffer) (srcOffset : ℕ) (hostDst : Option ℕ)
    (size : ℕ) :
    Hrx Memory Returned :=
  match device, src, hostDst with
  | some d, some b, some p => onBuffer b.addr <| HrxBufferS.transfer srcOffset size fun hal ↦
      .deviceTransferD2h d.halDevice hal srcOffset p size .infinite
  | _, _, _ => return ⟨← hrxError .invalidArgument "NULL argument", .nothing⟩

/-- A transfer past the end is refused before IREE hears of it, and any other reaches IREE as
`forward`. -/
structure Bounded (bufferSize offset size : ℕ) (forward : Call) (o : Outside) (n : ℕ)
    (r : Outcome Call Answer Memory Returned) : Prop where
  refused : bufferSize < offset + size → (∀ e ∈ r.events, e.call = .malloc 16) ∧
    ∃ error, r.val.status = some error ∧ error.code = HrxStatusCode.outOfRange.toInt
  forwarded : offset + size ≤ bufferSize →
    r.val.status = converted o (n + 1) (happens o n forward) ∧
      ∃ rest : Trace, r.events = happens o n forward :: rest ∧ ∀ e ∈ rest, e.call = .malloc 16

/-- The 64-bit sum exceeds the buffer whenever the sum does, and the error then finds room. -/
def Caught (bufferSize offset size : ℕ) (o : Outside) (n : ℕ) : Prop :=
  bufferSize < offset + size → bufferSize < u64Add offset size ∧ ok (payload o n) = true

theorem u64Add_le (a b : ℕ) : u64Add a b ≤ a + b := Nat.mod_le _ _

section Transfer

variable {a : ℕ} {mem : Memory} {arc : Arc HrxBufferS} {offset size : ℕ} (forward : Obj → Call)

theorem run_transfer_refused (hcell : mem.buffers.cell a = some arc)
    (h : arc.data.size < u64Add offset size) (o : Outside) (n : ℕ) :
    ((onBuffer a (HrxBufferS.transfer offset size forward)).run o n mem).val.status =
        made o n ⟨HrxStatusCode.outOfRange.toInt, some "transfer exceeds buffer size"⟩ ∧
      ((onBuffer a (HrxBufferS.transfer offset size forward)).run o n mem).events =
        [payload o n] := by
  have hcode : HrxStatusCode.outOfRange ≠ .ok := by decide
  have herr := run_hrxError_made hcode "transfer exceeds buffer size" o n arc.data
  simp [onBuffer, hcell, HrxBufferS.transfer, h, herr]

theorem run_transfer_forwarded (hcell : mem.buffers.cell a = some arc)
    (h : u64Add offset size ≤ arc.data.size) (o : Outside) (n : ℕ) :
    ((onBuffer a (HrxBufferS.transfer offset size forward)).run o n mem).val.status =
        converted o (n + 1) (happens o n (forward arc.data.halBuffer)) ∧
      ((onBuffer a (HrxBufferS.transfer offset size forward)).run o n mem).events =
        happens o n (forward arc.data.halBuffer) ::
          payloads o (n + 1) (happens o n (forward arc.data.halBuffer)) := by
  simp [onBuffer, hcell, HrxBufferS.transfer, Nat.not_lt.mpr h, run_hrxStatusFromIree_made]

theorem transfer_bounded_iff (hcell : mem.buffers.cell a = some arc)
    (hforward : forward arc.data.halBuffer ≠ .malloc 16) (o : Outside) (n : ℕ) :
    Bounded arc.data.size offset size (forward arc.data.halBuffer) o n
        ((onBuffer a (HrxBufferS.transfer offset size forward)).run o n mem) ↔
      Caught arc.data.size offset size o n := by
  constructor
  · intro hb hlong
    obtain ⟨hcalls, error, herror, -⟩ := hb.refused hlong
    have hsum : arc.data.size < u64Add offset size := by
      by_contra hsum
      obtain ⟨-, hevents⟩ := run_transfer_forwarded forward hcell (Nat.not_lt.mp hsum) o n
      rw [hevents] at hcalls
      exact hforward (hcalls _ (List.mem_cons_self ..))
    refine ⟨hsum, ?_⟩
    rw [(run_transfer_refused forward hcell hsum o n).1] at herror
    exact (made_eq_some_iff.mp herror).1
  · intro hc
    constructor
    · intro hlong
      obtain ⟨hsum, hroom⟩ := hc hlong
      obtain ⟨hstatus, hevents⟩ := run_transfer_refused forward hcell hsum o n
      refine ⟨?_, _, hstatus.trans (made_eq_some_iff.mpr ⟨hroom, rfl⟩), rfl⟩
      rw [hevents]
      intro e he
      rw [List.mem_singleton.mp he]
      rfl
    · intro hshort
      obtain ⟨hstatus, hevents⟩ :=
        run_transfer_forwarded forward hcell ((u64Add_le offset size).trans hshort) o n
      exact ⟨hstatus, _, hevents, payloads_calls o (n + 1) _⟩

end Transfer

/-- Both transfers keep to the buffer exactly where the 64-bit sum does not wrap back into it. -/
theorem synchronous_transfers_bounded_iff (d : DevicePtr) (host : ℕ) (b : BufferPtr)
    (offset size : ℕ) {mem : Memory} {arc : Arc HrxBufferS}
    (hcell : mem.buffers.cell b.addr = some arc) (o : Outside) (n : ℕ) :
    (Bounded arc.data.size offset size
        (.deviceTransferH2d d.halDevice host arc.data.halBuffer offset size .infinite) o n
        ((hrxSynchronousH2d (some d) (some host) (some b) offset size).run o n mem) ↔
      Caught arc.data.size offset size o n) ∧
    (Bounded arc.data.size offset size
        (.deviceTransferD2h d.halDevice arc.data.halBuffer offset host size .infinite) o n
        ((hrxSynchronousD2h (some d) (some b) offset (some host) size).run o n mem) ↔
      Caught arc.data.size offset size o n) := by
  constructor
  · refine transfer_bounded_iff
      (fun hal ↦ .deviceTransferH2d d.halDevice host hal offset size .infinite) hcell ?_ o n
    simp
  · refine transfer_bounded_iff
      (fun hal ↦ .deviceTransferD2h d.halDevice hal offset host size .infinite) hcell ?_ o n
    simp

def eightBytes : Memory :=
  { Memory.initial
    with buffers := Heap.empty.put 3 (some ⟨1, ⟨none, 2, none, ⟨1, 1, 1, 1⟩, 0x30, 8⟩⟩) }

theorem eightBytes_cell : eightBytes.buffers.cell 3 = some
    ⟨1, ⟨none, 2, none, ⟨1, 1, 1, 1⟩, 0x30, 8⟩⟩ := rfl

theorem synchronous_transfers_bounded_inside :
    Caught 8 4 4 (fun _ _ ↦ {}) 0 ∧
      Bounded 8 4 4 (.deviceTransferH2d 1 5 2 4 4 .infinite) (fun _ _ ↦ {}) 0
        ((hrxSynchronousH2d (some ⟨1, 1, 1, 1⟩) (some 5) (some ⟨3, 2⟩) 4 4).run
          (fun _ _ ↦ {}) 0 eightBytes) := by
  have hcaught : Caught 8 4 4 (fun _ _ ↦ {}) 0 := fun h ↦ absurd h (by decide)
  exact ⟨hcaught, (synchronous_transfers_bounded_iff ⟨1, 1, 1, 1⟩ 5 ⟨3, 2⟩ 4 4 eightBytes_cell
    (fun _ _ ↦ {}) 0).1.mpr hcaught⟩

/-- `offset = usize::MAX` and two bytes wrap to 1, and the transfer goes to IREE. -/
theorem synchronous_transfer_wraps :
    ¬Bounded 8 (2 ^ 64 - 1) 2 (.deviceTransferH2d 1 5 2 (2 ^ 64 - 1) 2 .infinite) (fun _ _ ↦ {}) 0
      ((hrxSynchronousH2d (some ⟨1, 1, 1, 1⟩) (some 5) (some ⟨3, 2⟩) (2 ^ 64 - 1) 2).run
        (fun _ _ ↦ {}) 0 eightBytes) := by
  intro h
  have hsum : u64Add (2 ^ 64 - 1) 2 ≤ 8 := by decide
  obtain ⟨-, hevents⟩ := run_transfer_forwarded
    (fun hal ↦ .deviceTransferH2d 1 5 hal (2 ^ 64 - 1) 2 .infinite) eightBytes_cell hsum
    (fun _ _ ↦ {}) 0
  have hcalls := (h.refused (by decide)).1
  have hfirst :=
    hcalls (happens (fun _ _ ↦ {}) 0 (.deviceTransferH2d 1 5 2 (2 ^ 64 - 1) 2 .infinite)) (by
    refine hevents.symm ▸ ?_
    exact List.mem_cons_self ..)
  simp at hfirst

end HrxSystem.Libhrx
