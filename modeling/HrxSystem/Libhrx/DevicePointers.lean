import HrxSystem.Libhrx.Buffer

namespace HrxSystem.Libhrx.DevicePointers

open External Program Counting

/-- The calls of the map protocol on one buffer; a flag says that the out pointer is not NULL. -/
inductive MapCall
  | map (flags offset size : ℕ) (mappedPtr : Bool)
  | unmap
  | getDevicePtr (devicePtr : Bool)
deriving DecidableEq

namespace MapCall

def run (b : BufferPtr) : MapCall → Hrx Memory Returned
  | map flags offset size mappedPtr => hrxBufferMap (some b) flags offset size mappedPtr
  | unmap => hrxBufferUnmap (some b)
  | getDevicePtr devicePtr => hrxBufferGetDevicePtr (some b) devicePtr

def isGetDevicePtr : MapCall → Bool
  | getDevicePtr _ => true
  | _ => false

end MapCall

/-- A call of a run, and what IREE and libc answer it. -/
structure Attempt where
  call : MapCall
  mapped : IreeStatus
  unmapped : IreeStatus
  payload : IreeStatus
deriving DecidableEq

/-- The outside of one call. IREE maps a range of the buffer at its offset from `base`. -/
def Attempt.outside (base : ℕ) (a : Attempt) : Outside := fun _ c ↦
  match c with
  | .bufferMapRange _ _ offset _ => { status := a.mapped, value := base + offset }
  | .bufferUnmapRange _ => { status := a.unmapped }
  | .malloc _ => { status := a.payload }
  | _ => {}

def results (base : ℕ) (b : BufferPtr) (mem : Memory) (run : List Attempt) :
    List (MapCall × Returned) :=
  (play (MapCall.run b) mem [] (run.map fun a ↦ (a.call, a.outside base))).2.map fun e ↦
    (e.call, e.result.val)

def mapResults (results : List (MapCall × Returned)) : List (MapCall × Returned) :=
  results.filter fun r ↦ !r.1.isGetDevicePtr

/-- A successful `hrx_buffer_get_device_ptr` gives byte 0 of the buffer, and no map or unmap would
come out differently without it. -/
def Independent (base : ℕ) (b : BufferPtr) (mem : Memory) (run : List Attempt) : Prop :=
  ∀ i devicePtr r, (results base b mem run)[i]? = some (.getDevicePtr devicePtr, r) →
    hrxStatusIsOk r.status = true → r.written = .pointer base ∧
      mapResults (results base b mem run) = mapResults (results base b mem (run.eraseIdx i))

/-- No map or unmap of the run notices that its buffer starts with a whole mapping of its own. -/
def Unseen : List Attempt → Prop
  | [] => True
  | a :: run =>
    match a.call with
    | .map _ _ _ true => a.mapped.isSome ∧ a.payload.isSome ∧ Unseen run
    | .map _ _ _ false => Unseen run
    | .unmap => a.unmapped.isNone ∨ a.payload.isSome
    | .getDevicePtr true => a.mapped.isNone ∨ Unseen run
    | .getDevicePtr false => Unseen run

def Attempt.next (a : Attempt) (out : Option ℕ) : Option ℕ :=
  match a.call, out with
  | .unmap, _ => none
  | .map _ offset _ true, none => if a.mapped.isNone then some offset else none
  | .getDevicePtr true, none => if a.mapped.isNone then some 0 else none
  | _, out => out

/-- What a `hrx_buffer_get_device_ptr` has to meet and what has to follow it. -/
def Attempt.Clean (a : Attempt) (out : Option ℕ) (run : List Attempt) : Prop :=
  match a.call, out with
  | .getDevicePtr true, some offset => offset = 0
  | .getDevicePtr true, none => if a.mapped.isNone then Unseen run else a.payload.isNone
  | .getDevicePtr false, _ => a.payload.isNone
  | _, _ => True

def Separate : Option ℕ → List Attempt → Prop
  | _, [] => True
  | out, a :: run => a.Clean out run ∧ Separate (a.next out) run

def errorFrom (s : IreeStatus) : HrxStatusS :=
  ⟨hrxCodeFromIree (s.elim 0 IreeError.code),
    some ((s.bind IreeError.text).getD "IREE error (could not format message)")⟩

namespace Attempt

def made (a : Attempt) (s : HrxStatusS) : HrxStatus := if a.payload.isNone then some s else none

def converted (a : Attempt) (s : IreeStatus) : HrxStatus :=
  if s.isNone then none else a.made (errorFrom s)

def result (base : ℕ) (a : Attempt) (out : Option ℕ) : Returned :=
  match a.call, out with
  | .map _ _ _ false, _ =>
    ⟨a.made ⟨HrxStatusCode.invalidArgument.toInt, some "buffer or mapped_ptr is NULL"⟩, .nothing⟩
  | .map _ _ _ true, some _ =>
    ⟨a.made ⟨HrxStatusCode.failedPrecondition.toInt, some "buffer is already mapped"⟩, .nothing⟩
  | .map _ offset _ true, none =>
    if a.mapped.isNone then ⟨none, .pointer (base + offset)⟩ else ⟨a.converted a.mapped, .nothing⟩
  | .unmap, none => ⟨none, .nothing⟩
  | .unmap, some _ => ⟨a.converted a.unmapped, .nothing⟩
  | .getDevicePtr false, _ =>
    ⟨a.made ⟨HrxStatusCode.invalidArgument.toInt, some "buffer or device_ptr is NULL"⟩, .nothing⟩
  | .getDevicePtr true, some offset => ⟨none, .pointer (base + offset)⟩
  | .getDevicePtr true, none =>
    if a.mapped.isNone then ⟨none, .pointer base⟩
    else ⟨a.made
      ⟨HrxStatusCode.unavailable.toInt, some "cannot get device pointer for this buffer type"⟩,
      .pointer 0⟩

@[simp] theorem made_outside (a : Attempt) (base n : ℕ) (s : HrxStatusS) :
    Libhrx.made (a.outside base) n s = a.made s := rfl

@[simp] theorem ok_map (a : Attempt) (base n : ℕ) (hal : Obj) (access offset length : ℕ) :
    ok (happens (a.outside base) n (.bufferMapRange hal access offset length)) = a.mapped.isNone :=
  rfl

@[simp] theorem value_map (a : Attempt) (base n : ℕ) (hal : Obj) (access offset length : ℕ) :
    (happens (a.outside base) n (.bufferMapRange hal access offset length)).answer.value =
      base + offset := rfl

@[simp] theorem converted_map (a : Attempt) (base n n' : ℕ) (hal : Obj) (access offset length : ℕ) :
    Libhrx.converted (a.outside base) n
      (happens (a.outside base) n' (.bufferMapRange hal access offset length)) =
        a.converted a.mapped := rfl

@[simp] theorem converted_unmap (a : Attempt) (base n n' : ℕ) (mapping : Obj) :
    Libhrx.converted (a.outside base) n (happens (a.outside base) n' (.bufferUnmapRange mapping)) =
      a.converted a.unmapped := rfl

end Attempt

def Holds (base : ℕ) (b : BufferPtr) (out : Option ℕ) (mem : Memory) : Prop :=
  ∃ arc, mem.buffers.cell b.addr = some arc ∧ arc.data.map.map MappedRange.ptr = out.map (base + ·)

section Step

variable {base : ℕ} {b : BufferPtr} {out : Option ℕ} {mem : Memory} {a : Attempt}

theorem holds_refused {code : HrxStatusCode} (hc : code ≠ .ok) (message : String) (n : ℕ)
    (h : Holds base b out mem) :
    ((return ⟨← hrxError code message, .nothing⟩ : Hrx Memory Returned).run
      (a.outside base) n mem).val =
        ⟨a.made ⟨code.toInt, some message⟩, .nothing⟩ ∧
      Holds base b out
        ((return ⟨← hrxError code message, .nothing⟩ : Hrx Memory Returned).run
          (a.outside base) n mem).state := by
  have herr := run_hrxError_made hc message (a.outside base) n mem
  refine ⟨?_, ?_⟩
  · simp [herr, Attempt.made_outside]
  · simpa [herr] using h

theorem holds_onBuffer {m : Hrx HrxBufferS Returned} {r : Returned} {out' : Option ℕ} (n : ℕ)
    (h : Holds base b out mem)
    (hm : ∀ buf : HrxBufferS, buf.map.map MappedRange.ptr = out.map (base + ·) →
      (m.run (a.outside base) n buf).val = r ∧
        (m.run (a.outside base) n buf).state.map.map MappedRange.ptr = out'.map (base + ·)) :
    ((onBuffer b.addr m).run (a.outside base) n mem).val = r ∧
      Holds base b out' ((onBuffer b.addr m).run (a.outside base) n mem).state := by
  obtain ⟨arc, hcell, hout⟩ := h
  obtain ⟨hval, hstate⟩ := hm arc.data hout
  refine ⟨by simpa [onBuffer, hcell] using hval, ?_⟩
  refine ⟨⟨arc.strong, (m.run (a.outside base) n arc.data).state⟩, ?_, hstate⟩
  simp [onBuffer, hcell, Heap.modify]

theorem mapRange_result (flags offset size n : ℕ) (hcall : a.call = .map flags offset size true)
    (buf : HrxBufferS) (h : buf.map.map MappedRange.ptr = out.map (base + ·)) :
    ((HrxBufferS.mapRange flags offset size).run (a.outside base) n buf).val = a.result base out ∧
      ((HrxBufferS.mapRange flags offset size).run (a.outside base) n buf).state.map.map
        MappedRange.ptr =
        (a.next out).map (base + ·) := by
  cases out with
  | some off =>
    obtain ⟨m, hm, hptr⟩ : ∃ m, buf.map = some m ∧ m.ptr = base + off := by simpa using h
    have hc : HrxStatusCode.failedPrecondition ≠ .ok := by decide
    simp [HrxBufferS.mapRange, hm, hptr, run_hrxError_made hc, Attempt.result, Attempt.next, hcall]
  | none =>
    have hm : buf.map = none := by simpa using h
    cases hs : a.mapped with
    | none => simp [HrxBufferS.mapRange, hm, hs, Attempt.result, Attempt.next, hcall, hrxOkStatus]
    | some err =>
      simp [HrxBufferS.mapRange, hm, hs, run_hrxStatusFromIree_made, Attempt.result,
        Attempt.next, hcall]

theorem unmap_result (n : ℕ) (hcall : a.call = .unmap) (buf : HrxBufferS)
    (h : buf.map.map MappedRange.ptr = out.map (base + ·)) :
    (HrxBufferS.unmap.run (a.outside base) n buf).val = a.result base out ∧
      (HrxBufferS.unmap.run (a.outside base) n buf).state.map.map MappedRange.ptr =
        (a.next out).map (base + ·) := by
  cases out with
  | some off =>
    obtain ⟨m, hm, -⟩ : ∃ m, buf.map = some m ∧ m.ptr = base + off := by simpa using h
    simp [HrxBufferS.unmap, hm, run_hrxStatusFromIree_made, Attempt.result, Attempt.next, hcall]
  | none =>
    have hm : buf.map = none := by simpa using h
    simp [HrxBufferS.unmap, hm, Attempt.result, Attempt.next, hcall, hrxOkStatus]

theorem getDevicePtr_result (n : ℕ) (hcall : a.call = .getDevicePtr true) (buf : HrxBufferS)
    (h : buf.map.map MappedRange.ptr = out.map (base + ·)) :
    (HrxBufferS.getDevicePtr.run (a.outside base) n buf).val = a.result base out ∧
      (HrxBufferS.getDevicePtr.run (a.outside base) n buf).state.map.map MappedRange.ptr =
        (a.next out).map (base + ·) := by
  cases out with
  | some off =>
    obtain ⟨m, hm, hptr⟩ : ∃ m, buf.map = some m ∧ m.ptr = base + off := by simpa using h
    simp [HrxBufferS.getDevicePtr, hm, hptr, Attempt.result, Attempt.next, hcall, hrxOkStatus]
  | none =>
    have hm : buf.map = none := by simpa using h
    cases hs : a.mapped with
    | none =>
      simp [HrxBufferS.getDevicePtr, hm, hs, Attempt.result, Attempt.next, hcall, hrxOkStatus]
    | some err =>
      have hc : HrxStatusCode.unavailable ≠ .ok := by decide
      simp [HrxBufferS.getDevicePtr, hm, hs, run_hrxError_made hc, Attempt.result,
        Attempt.next, hcall]

theorem run_holds (n : ℕ) (h : Holds base b out mem) :
    ((a.call.run b).run (a.outside base) n mem).val = a.result base out ∧
      Holds base b (a.next out) ((a.call.run b).run (a.outside base) n mem).state := by
  have hc : HrxStatusCode.invalidArgument ≠ .ok := by decide
  cases hcall : a.call with
  | map flags offset size mappedPtr =>
    cases mappedPtr with
    | true => exact holds_onBuffer n h (mapRange_result flags offset size n hcall)
    | false =>
      have hr : a.result base out = ⟨a.made ⟨HrxStatusCode.invalidArgument.toInt,
          some "buffer or mapped_ptr is NULL"⟩, .nothing⟩ := by simp [Attempt.result, hcall]
      have hn : a.next out = out := by simp [Attempt.next, hcall]
      rw [hr, hn]
      exact holds_refused hc _ n h
  | unmap => exact holds_onBuffer n h (unmap_result n hcall)
  | getDevicePtr devicePtr =>
    cases devicePtr with
    | true => exact holds_onBuffer n h (getDevicePtr_result n hcall)
    | false =>
      have hr : a.result base out = ⟨a.made ⟨HrxStatusCode.invalidArgument.toInt,
          some "buffer or device_ptr is NULL"⟩, .nothing⟩ := by simp [Attempt.result, hcall]
      have hn : a.next out = out := by simp [Attempt.next, hcall]
      rw [hr, hn]
      exact holds_refused hc _ n h

end Step

def answers (base : ℕ) : Option ℕ → List Attempt → List (MapCall × Returned)
  | _, [] => []
  | out, a :: run => (a.call, a.result base out) :: answers base (a.next out) run

theorem play_answers {base : ℕ} {b : BufferPtr} {out : Option ℕ} {mem : Memory}
    (h : Holds base b out mem) (run : List Attempt)
    (l : List (Entry Call Answer Memory Returned MapCall)) :
    ((play (MapCall.run b) mem l (run.map fun a ↦ (a.call, a.outside base))).2.map
        fun e ↦ (e.call, e.result.val)) =
      (l.map fun e ↦ (e.call, e.result.val)) ++ answers base out run := by
  induction run generalizing out mem l with
  | nil => simp [play, answers]
  | cons a run ih =>
    obtain ⟨hval, hnext⟩ := run_holds (a := a) (trace l).length h
    rw [List.map_cons, play, ih hnext]
    simp [answers, hval]

theorem results_eq {base : ℕ} {b : BufferPtr} {out : Option ℕ} {mem : Memory}
    (h : Holds base b out mem) (run : List Attempt) :
    results base b mem run = answers base out run := by
  simpa [results] using play_answers h run []

theorem hrxCodeFromIree_ne_failedPrecondition (code : ℤ) :
    hrxCodeFromIree code ≠ HrxStatusCode.failedPrecondition.toInt := by
  unfold hrxCodeFromIree
  split_ifs <;> decide

theorem mapResults_cons (a : Attempt) (r : Returned) (rs : List (MapCall × Returned)) :
    mapResults ((a.call, r) :: rs) =
      if a.call.isGetDevicePtr then mapResults rs else (a.call, r) :: mapResults rs := by
  cases h : a.call.isGetDevicePtr <;> simp [mapResults, h]

section Unseen

variable (base : ℕ) {a : Attempt}

/-- A map that was told "already mapped" noticed, unless there was no room to tell it. -/
theorem map_result_eq_iff {flags offset size : ℕ} (hcall : a.call = .map flags offset size true) :
    a.result base (some 0) = a.result base none ↔ a.mapped.isSome ∧ a.payload.isSome := by
  cases hm : a.mapped with
  | none => simp [Attempt.result, hcall, hm]
  | some err =>
    cases hp : a.payload with
    | none =>
      have hne := hrxCodeFromIree_ne_failedPrecondition err.code
      simp [Attempt.result, hcall, hm, Attempt.made, Attempt.converted, hp, errorFrom, hne.symm]
    | some e => simp [Attempt.result, hcall, hm, Attempt.made, Attempt.converted, hp]

theorem unmap_result_eq_iff (hcall : a.call = .unmap) :
    a.result base (some 0) = a.result base none ↔ a.unmapped.isNone ∨ a.payload.isSome := by
  cases hu : a.unmapped with
  | none => simp [Attempt.result, hcall, hu, Attempt.converted]
  | some err =>
    cases hp : a.payload with
    | none => simp [Attempt.result, hcall, hu, Attempt.converted, Attempt.made, hp]
    | some e => simp [Attempt.result, hcall, hu, Attempt.converted, Attempt.made, hp]

theorem unseen_iff (run : List Attempt) :
    mapResults (answers base (some 0) run) = mapResults (answers base none run) ↔ Unseen run := by
  induction run with
  | nil => simp [answers, Unseen]
  | cons a run ih =>
    simp only [answers, mapResults_cons]
    cases hcall : a.call with
    | unmap =>
      have hnext : a.next (some 0) = a.next none := by simp [Attempt.next, hcall]
      have hres := unmap_result_eq_iff base hcall
      simpa [Unseen, hcall, hnext, MapCall.isGetDevicePtr] using hres
    | map flags offset size mappedPtr =>
      cases mappedPtr with
      | true =>
        have hres := map_result_eq_iff base hcall
        have hstay : a.next (some 0) = some 0 := by simp [Attempt.next, hcall]
        have hnext : a.mapped.isSome → a.next none = none := by
          intro hm
          simp [Attempt.next, hcall, Option.isSome_iff_ne_none.mp hm]
        simp only [Unseen, hcall, MapCall.isGetDevicePtr, Bool.false_eq_true, if_false,
          List.cons.injEq, Prod.mk.injEq, true_and, hres, and_assoc]
        refine and_congr_right fun hm ↦ and_congr_right fun _ ↦ ?_
        rw [hstay, hnext hm, ih]
      | false =>
        have hres : a.result base (some 0) = a.result base none := by simp [Attempt.result, hcall]
        have hnext : ∀ out, a.next out = out := by simp [Attempt.next, hcall]
        simp [Unseen, hcall, MapCall.isGetDevicePtr, hres, hnext, ih]
    | getDevicePtr devicePtr =>
      cases devicePtr with
      | true =>
        have hstay : a.next (some 0) = some 0 := by simp [Attempt.next, hcall]
        cases hm : a.mapped with
        | none =>
          have hnext : a.next none = some 0 := by simp [Attempt.next, hcall, hm]
          simp [Unseen, hcall, MapCall.isGetDevicePtr, hstay, hnext, hm]
        | some err =>
          have hnext : a.next none = none := by simp [Attempt.next, hcall, hm]
          simp [Unseen, hcall, MapCall.isGetDevicePtr, hstay, hnext, hm, ih]
      | false =>
        have hnext : ∀ out, a.next out = out := by simp [Attempt.next, hcall]
        simp [Unseen, hcall, MapCall.isGetDevicePtr, hnext, ih]

end Unseen

def First (base : ℕ) (out : Option ℕ) (a : Attempt) (run : List Attempt) : Prop :=
  a.call.isGetDevicePtr = true → hrxStatusIsOk (a.result base out).status = true →
    (a.result base out).written = .pointer base ∧
      mapResults (answers base (a.next out) run) = mapResults (answers base out run)

theorem first_iff {base : ℕ} (hbase : 0 < base) (out : Option ℕ) (a : Attempt)
    (run : List Attempt) :
    First base out a run ↔ a.Clean out run := by
  unfold First
  cases hcall : a.call with
  | map flags offset size mappedPtr => simp [MapCall.isGetDevicePtr, Attempt.Clean, hcall]
  | unmap => simp [MapCall.isGetDevicePtr, Attempt.Clean, hcall]
  | getDevicePtr devicePtr =>
    cases devicePtr with
    | false =>
      cases hp : a.payload <;>
        simp [MapCall.isGetDevicePtr, Attempt.Clean, Attempt.result, hcall, Attempt.made, hp,
          hrxStatusIsOk]
    | true =>
      cases out with
      | some offset =>
        simp [MapCall.isGetDevicePtr, Attempt.Clean, Attempt.result, Attempt.next, hcall,
          hrxStatusIsOk]
      | none =>
        cases hm : a.mapped with
        | none =>
          simp [MapCall.isGetDevicePtr, Attempt.Clean, Attempt.result, Attempt.next, hcall, hm,
            hrxStatusIsOk, unseen_iff base run]
        | some err =>
          cases hp : a.payload <;>
            simp [MapCall.isGetDevicePtr, Attempt.Clean, Attempt.result, hcall, hm,
              Attempt.made, hp, hrxStatusIsOk, hbase.ne]

def Kept (base : ℕ) (out : Option ℕ) (run : List Attempt) : Prop :=
  ∀ i devicePtr r, (answers base out run)[i]? = some (.getDevicePtr devicePtr, r) →
    hrxStatusIsOk r.status = true → r.written = .pointer base ∧
      mapResults (answers base out run) = mapResults (answers base out (run.eraseIdx i))

theorem mapResults_answers_cons (base : ℕ) (out : Option ℕ) (a : Attempt)
    (run run' : List Attempt) :
    mapResults (answers base out (a :: run)) = mapResults (answers base out (a :: run')) ↔
      mapResults (answers base (a.next out) run) = mapResults (answers base (a.next out) run') := by
  simp only [answers, mapResults_cons]
  split <;> simp

theorem kept_cons (base : ℕ) (out : Option ℕ) (a : Attempt) (run : List Attempt) :
    Kept base out (a :: run) ↔ First base out a run ∧ Kept base (a.next out) run := by
  constructor
  · intro h
    constructor
    · intro hget hok
      obtain ⟨devicePtr, hcall⟩ : ∃ devicePtr, a.call = .getDevicePtr devicePtr := by
        cases hcall : a.call <;> simp_all [MapCall.isGetDevicePtr]
      obtain ⟨hwritten, hsame⟩ := h 0 devicePtr (a.result base out) (by simp [answers, hcall]) hok
      refine ⟨hwritten, ?_⟩
      simpa [answers, mapResults_cons, hget] using hsame
    · intro i devicePtr r hr hok
      obtain ⟨hwritten, hsame⟩ := h (i + 1) devicePtr r (by simpa [answers] using hr) hok
      exact ⟨hwritten, (mapResults_answers_cons base out a _ _).mp hsame⟩
  · rintro ⟨hfirst, hrest⟩ i devicePtr r hr hok
    cases i with
    | zero =>
      obtain ⟨hcall, rfl⟩ : a.call = .getDevicePtr devicePtr ∧ a.result base out = r := by
        simpa [answers] using hr
      have hget : a.call.isGetDevicePtr = true := by simp [hcall, MapCall.isGetDevicePtr]
      obtain ⟨hwritten, hsame⟩ := hfirst hget hok
      refine ⟨hwritten, ?_⟩
      simpa [answers, mapResults_cons, hget] using hsame
    | succ i =>
      obtain ⟨hwritten, hsame⟩ := hrest i devicePtr r (by simpa [answers] using hr) hok
      exact ⟨hwritten, (mapResults_answers_cons base out a _ _).mpr hsame⟩

theorem kept_iff {base : ℕ} (hbase : 0 < base) (out : Option ℕ) (run : List Attempt) :
    Kept base out run ↔ Separate out run := by
  induction run generalizing out with
  | nil => simp [Kept, answers, Separate]
  | cons a run ih => rw [kept_cons, first_iff hbase, ih, Separate]

/-- The getter and the map protocol keep out of each other's way exactly on the runs that keep them
apart. -/
theorem device_pointer_independent_iff {base : ℕ} (hbase : 0 < base) (b : BufferPtr) {mem : Memory}
    {arc : Arc HrxBufferS} (hcell : mem.buffers.cell b.addr = some arc) (hmap : arc.data.map = none)
    (run : List Attempt) : Independent base b mem run ↔ Separate none run := by
  have hholds : Holds base b none mem := ⟨arc, hcell, by simp [hmap]⟩
  unfold Independent
  simp only [results_eq hholds]
  exact kept_iff hbase none run

def unmapped : Memory :=
  { Memory.initial
    with buffers := Heap.empty.put 3 (some ⟨1, ⟨none, 2, none, ⟨1, 1, 1, 1⟩, 0x30, 8⟩⟩) }

def granted (call : MapCall) : Attempt := ⟨call, none, none, none⟩

theorem device_pointer_independent_apart :
    Separate none
      [granted (.getDevicePtr true), granted .unmap, granted (.map 1 4 4 true), granted .unmap] ∧
      Independent 4096 ⟨3, 2⟩ unmapped
        [granted (.getDevicePtr true), granted .unmap, granted (.map 1 4 4 true),
          granted .unmap] := by
  have hrun : Separate none
      [granted (.getDevicePtr true),
        granted .unmap, granted (.map 1 4 4 true), granted .unmap] := by
    simp [Separate, granted, Attempt.Clean, Unseen]
  exact ⟨hrun, (device_pointer_independent_iff (by decide) ⟨3, 2⟩ rfl rfl _).mpr hrun⟩

theorem unmapped_holds : Holds 4096 ⟨3, 2⟩ none unmapped := ⟨_, rfl, rfl⟩

/-- The pointer of a map at offset 4 is handed out as the buffer's, and the mapping that the getter
made itself refuses the next map. -/
theorem device_pointer_shares_map :
    ¬Independent 4096 ⟨3, 2⟩ unmapped [granted (.map 1 4 4 true), granted (.getDevicePtr true)] ∧
      ¬Independent 4096 ⟨3, 2⟩ unmapped
        [granted (.getDevicePtr true), granted (.map 1 0 8 true)] := by
  constructor
  · intro h
    obtain ⟨hwritten, -⟩ :=
      h 1 true ⟨none, .pointer 4100⟩ (by rw [results_eq unmapped_holds]; rfl) rfl
    simp at hwritten
  · intro h
    obtain ⟨-, hsame⟩ := h 0 true ⟨none, .pointer 4096⟩ (by rw [results_eq unmapped_holds]; rfl) rfl
    rw [results_eq unmapped_holds, results_eq unmapped_holds] at hsame
    simp [answers, mapResults, granted, Attempt.result, Attempt.next, MapCall.isGetDevicePtr]
      at hsame

end HrxSystem.Libhrx.DevicePointers
