import HrxSystem.Hip.Launches

namespace HrxSystem.Hip

open External Program

namespace TraceLine

def listed? : TraceLine → Option TrackedBuffer
  | dumpHash b _ | dumpEntry b => some b
  | _ => none

def failed? : TraceLine → Option TrackedBuffer
  | dumpFailed b _ => some b
  | _ => none

/-- The entry that a line lists, or whose copy it reports failed. -/
def visited? : TraceLine → Option TrackedBuffer
  | dumpFailed b _ | dumpHash b _ | dumpEntry b => some b
  | _ => none

def count? : TraceLine → Option ℕ
  | dumpHeader _ count _ => some count
  | _ => none

end TraceLine

def TrackedBuffer.copied (b : TrackedBuffer) (a : HipAnswer) : Bool :=
  b.btype ≠ .device || a.ret = 0

/-- The entries whose read, the event beside them, brought their bytes. -/
def copiedEntries (bs : List TrackedBuffer) (es : HipTrace) : List TrackedBuffer :=
  ((bs.zip es).filter fun p ↦ p.1.copied p.2.answer).map Prod.fst

def failedEntries (bs : List TrackedBuffer) (es : HipTrace) : List TrackedBuffer :=
  ((bs.zip es).filter fun p ↦ !p.1.copied p.2.answer).map Prod.fst

section Visits

variable (config : TracerConfig) (force : Bool) (o : Backend) (n : ℕ) (bs : List TrackedBuffer)

section OneEntry

variable (b : TrackedBuffer) (a : HipAnswer)

theorem copied_eq : b.copied a = !decide (b.btype = .device ∧ a.ret ≠ 0) := by
  simp [TrackedBuffer.copied, Bool.decide_and]

theorem dumpLines_listed : (dumpLines config force b a).filterMap TraceLine.listed? =
    if b.copied a then [b] else [] := by
  rw [dumpLines, copied_eq]
  by_cases hfailed : b.btype = .device ∧ a.ret ≠ 0
  · rw [decide_eq_true hfailed, if_pos hfailed]
    split <;> rfl
  · rw [decide_eq_false hfailed, if_neg hfailed]
    split <;> rfl

theorem dumpLines_failed : (dumpLines config force b a).filterMap TraceLine.failed? =
    if !b.copied a && 1 ≤ config.traceLevel then [b] else [] := by
  rw [dumpLines, copied_eq]
  by_cases hfailed : b.btype = .device ∧ a.ret ≠ 0
  · rw [decide_eq_true hfailed, if_pos hfailed]
    by_cases hlevel : 1 ≤ config.traceLevel
    · simp [hlevel, TraceLine.failed?]
    · simp [hlevel]
  · rw [decide_eq_false hfailed, if_neg hfailed]
    split <;> rfl

theorem dumpLines_visited (hlevel : 1 ≤ config.traceLevel) :
    (dumpLines config force b a).filterMap TraceLine.visited? = [b] := by
  rw [dumpLines, if_pos hlevel]
  split
  · rfl
  · split <;> rfl

theorem dumpLines_count : (dumpLines config force b a).filterMap TraceLine.count? = [] := by
  rw [dumpLines]
  split
  · split <;> rfl
  split <;> rfl

end OneEntry

theorem dumpReads_calls :
    (dumpReads config force o n bs).map Event.call = bs.map (dumpRequest config force) := by
  have hcall :
      (Event.call ∘ fun p : TrackedBuffer × ℕ ↦ happens o p.2 (dumpRequest config force p.1)) =
      dumpRequest config force ∘ Prod.fst := rfl
  rw [dumpReads, List.map_map, hcall, ← List.map_map, List.zipIdx_map_fst]

/-- What each read decides about its entry, the report of the dump shows in order. -/
theorem dumpReport_filterMap {g : TraceLine → Option TrackedBuffer}
    {q : TrackedBuffer → HipAnswer → Bool}
    (hg : ∀ b a, (dumpLines config force b a).filterMap g = if q b a then [b] else []) :
    (dumpReport config force o n bs).filterMap g =
      ((bs.zip (dumpReads config force o n bs)).filter fun p ↦ q p.1 p.2.answer).map Prod.fst := by
  induction bs generalizing n with
  | nil => rfl
  | cons b bs ih =>
    have hreport : dumpReport config force o n (b :: bs) =
        dumpLines config force b (o n (dumpRequest config force b)) ++
          dumpReport config force o (n + 1) bs := rfl
    have hreads : dumpReads config force o n (b :: bs) =
        happens o n (dumpRequest config force b) :: dumpReads config force o (n + 1) bs := rfl
    rw [hreport, hreads, List.filterMap_append, hg, ih, List.zip_cons_cons, List.filter_cons]
    cases hq : q b (o n (dumpRequest config force b)) with
    | true =>
      rw [if_pos rfl,
        if_pos (show q b (happens o n (dumpRequest config force b)).answer = true from hq)]
      rfl
    | false =>
      rw [if_neg Bool.false_ne_true, if_neg]
      · rfl
      · exact fun h ↦ Bool.false_ne_true (hq.symm.trans h)

theorem dumpReport_visited (hlevel : 1 ≤ config.traceLevel) :
    (dumpReport config force o n bs).filterMap TraceLine.visited? = bs := by
  rw [dumpReport, List.filterMap_flatMap]
  simp only [dumpLines_visited config force _ _ hlevel]
  rw [← List.map_eq_flatMap, List.zipIdx_map_fst]

theorem dumpReport_count : (dumpReport config force o n bs).filterMap TraceLine.count? = [] := by
  rw [dumpReport, List.filterMap_flatMap]
  simp only [dumpLines_count]
  simp

theorem dumpReport_listed : (dumpReport config force o n bs).filterMap TraceLine.listed? =
    copiedEntries bs (dumpReads config force o n bs) :=
  dumpReport_filterMap config force o n bs (dumpLines_listed config force)

theorem dumpReport_failed : (dumpReport config force o n bs).filterMap TraceLine.failed? =
    if 1 ≤ config.traceLevel then failedEntries bs (dumpReads config force o n bs) else [] := by
  rw [dumpReport_filterMap config force o n bs (dumpLines_failed config force)]
  by_cases hlevel : 1 ≤ config.traceLevel
  · simp [hlevel, failedEntries]
  · simp [hlevel]

end Visits

theorem freshTable_repInv : RepInv freshTable 0 0 := by
  have hused : freshTable.used = [] := freshTable_used
  exact ⟨List.length_replicate, by rw [hused]; rfl, by rw [hused]; rfl,
    rfl, by simp [hused], by simp [hused], by simp [hused]⟩

/-- A dump that visits each entry in use once. It reads them in order; the lines it writes list, at
every level, each entry whose bytes came, and from level 1 on they report each other one, all in the
order of the table. -/
structure Visits (st : Tracer) (force : Bool)
    (r : Outcome HipRequest HipAnswer Tracer (Option Unit)) :
    Prop where
  returns : r.val = some ()
  reads : r.events.map Event.call = st.buffers.used.map (dumpRequest st.config force)
  lines : ∃ w, r.state = st.writes w ∧
    w.filterMap TraceLine.listed? = copiedEntries st.buffers.used r.events ∧
    (w.filterMap TraceLine.failed? =
      if 1 ≤ st.config.traceLevel then failedEntries st.buffers.used r.events else []) ∧
    (1 ≤ st.config.traceLevel → w.filterMap TraceLine.visited? = st.buffers.used) ∧
    w.filterMap TraceLine.count? = if 3 ≤ st.config.traceLevel then [st.buffers.used.length] else []

/-- The table after the operations `ops` on the table of `st₀`. -/
structure TableSound (st₀ : Tracer) (ops : List TableOp) (st : Tracer) : Prop where
  count : st.buffers.count = st.buffers.used.length
  bounded : st.buffers.count ≤ maxTrackedBuffers
  decrement : ∀ ptr, (∃ b ∈ st.buffers.used, b.ptr = ptr) →
    (bufferTableRemove ptr st).buffers.count + 1 = st.buffers.count
  distinct : (st.buffers.used.map TrackedBuffer.allocId).Nodup
  below : ∀ b ∈ st.buffers.used, b.allocId < st.buffers.nextAllocId
  made : ∀ b ∈ st.buffers.used, ∃ i, MadeAt st₀ ops i b
  ordered : ∀ i j b c, MadeAt st₀ ops i b → MadeAt st₀ ops j c → (i < j ↔ b.allocId < c.allocId)
  valid : ∀ b ∈ st.buffers.used, b.ptr ≠ 0 ∧ b.size ≠ 0
  full : st.buffers.count = maxTrackedBuffers → ∀ ptr size btype, ∃ w,
    bufferTableAdd ptr size btype st = st.writes w
  untracked : ∀ ptr, (∀ b ∈ st.buffers.used, b.ptr ≠ ptr) → bufferTableRemove ptr st = st

/-- After every sequence of additions and removals the table is sound, and a dump visits the entries
in use. -/
theorem table_runs_sound {st : Tracer} (hst : st.buffers = freshTable) {ops : List TableOp}
    (hops : ops.length < 2 ^ 64) : TableSound st ops (applyOps st ops) ∧
      ∀ (present : Present) (label : String) (force : Bool) (o : Backend) (n : ℕ),
        (∀ b ∈ (applyOps st ops).buffers.used, b.btype = .device → present .hipMemcpy = true) →
        (applyOps st ops).config.traceDump ≠ 0 →
        Visits (applyOps st ops) force
          ((dumpAllBuffersEx present label force).run o n (applyOps st ops)) := by
  have hfresh : RepInv st.buffers 0 0 := hst ▸ freshTable_repInv
  obtain ⟨adds, removes, hinv, hle⟩ := applyOps_repInv hfresh hops
  refine ⟨⟨hinv.count, hinv.count ▸ hinv.used_le, fun ptr ↦ hinv.decrement (hinv.small hle hops),
    hinv.distinct,
    hinv.below, fun b hb ↦ exists_madeAt hfresh hb, fun i j b c hb hc ↦ hb.lt_iff hfresh hops hc,
    hinv.valid, ?_, ?_⟩, ?_⟩
  · intro hfull ptr size btype
    rw [bufferTableAdd_full (by rw [← hinv.count, hfull, hinv.slots])]
    split
    · exact ⟨[], (writes_nil _).symm⟩
    · exact ⟨_, message_eq ..⟩
  · intro ptr hptr
    refine bufferTableRemove_absent fun hmem ↦ ?_
    obtain ⟨b, hb, rfl⟩ := mem_entries_iff.mp hmem
    exact hptr b hb rfl
  · intro present label force o n hp hdump
    rw [run_dumpAllBuffersEx label hdump hp fun b hb ↦ (hinv.valid b hb).2]
    refine ⟨rfl, dumpReads_calls .., _, rfl, ?_, ?_, fun hlevel ↦ ?_, ?_⟩
    · rw [List.filterMap_append, dumpReport_listed, dumpHeader]
      split <;> rfl
    · rw [List.filterMap_append, dumpReport_failed, dumpHeader]
      split <;> split <;> rfl
    · rw [List.filterMap_append, dumpReport_visited _ _ _ _ _ hlevel, dumpHeader]
      split <;> rfl
    · rw [List.filterMap_append, dumpReport_count, List.append_nil, dumpHeader, hinv.count]
      split <;> rfl

def addTwice : List TableOp := [.add 4096 64 .device, .remove 8, .add 4096 64 .host]

theorem table_runs_sound_addTwice :
    TableSound (.initial (syncing 3 1) true false) addTwice
      (applyOps (.initial (syncing 3 1) true false) addTwice) ∧
      Visits (applyOps (.initial (syncing 3 1) true false) addTwice) true
        ((dumpAllBuffersEx (fun _ ↦ true) "" true).run (fun _ _ ↦ {}) 0
          (applyOps (.initial (syncing 3 1) true false) addTwice)) := by
  have hsound := @table_runs_sound _ (initial_buffers (syncing 3 1) true false) addTwice (by decide)
  refine ⟨hsound.1, hsound.2 _ _ _ _ _ (fun _ _ _ ↦ rfl) ?_⟩
  have hconfig : (Tracer.initial (syncing 3 1) true false).config = syncing 3 1 :=
    congrArg Tally.config (@initial_tally (syncing 3 1) true false)
  rw [applyOps_config, hconfig]
  decide

theorem bufferTableAdd_traceFile (p : Ptr) (size : ℕ) (btype : BufferType) (st : Tracer) :
    (bufferTableAdd p size btype st).traceFile = st.traceFile := by
  rw [bufferTableAdd]
  split
  · rfl
  split
  · exact congrArg Tally.traceFile (message_tally ..)
  · rfl

def silent : Tracer := applyOps (.initial (syncing 0 1) true false) [.add 4096 64 .device]

theorem silent_eq : silent = bufferTableAdd 4096 64 .device (.initial (syncing 0 1) true false) :=
  rfl

theorem silent_used : silent.buffers.used = [⟨4096, 64, .device, true, 1⟩] := by
  have hslots : (Tracer.initial (syncing 0 1) true false).buffers.buffers =
      List.replicate (65535 + 1) emptyBuffer := by
    rw [initial_buffers]
    rfl
  have hnext : (Tracer.initial (syncing 0 1) true false).buffers.nextAllocId = 1 := by
    rw [initial_buffers]
  have hadded :=
    @bufferTableAdd_fresh _ _ _ _ .device hslots (show 4096 ≠ 0 by decide) (show 64 ≠ 0 by decide)
  rw [hnext] at hadded
  rw [silent_eq, BufferTable.used, hadded, List.filter_cons_of_pos rfl, unused_slots]

/-- At level 0 a dump says nothing about an entry whose copy fails: it is neither listed nor
reported. -/
theorem failed_copy_unreported :
    silent.buffers.used = [⟨4096, 64, .device, true, 1⟩] ∧ silent.config.traceDump ≠ 0 ∧
    silent.traceFile = true ∧
      (dumpAllBuffersEx (fun _ ↦ true) "" false).run (fun _ _ ↦ { ret := 1 }) 0 silent =
        ⟨some (), silent, [happens (fun _ _ ↦ { ret := 1 }) 0 (.stage 4096 64)]⟩ := by
  have hconfig : silent.config = syncing 0 1 :=
    (applyOps_config ..).trans (congrArg Tally.config (@initial_tally (syncing 0 1) true false))
  have hfile : silent.traceFile = true := by
    rw [silent_eq, bufferTableAdd_traceFile]
    exact congrArg Tally.traceFile (@initial_tally (syncing 0 1) true false)
  have hdump : silent.config.traceDump ≠ 0 := by
    rw [hconfig]
    decide
  have hsized : ∀ b ∈ silent.buffers.used, b.size ≠ 0 := by
    rw [silent_used]
    simp
  refine ⟨silent_used, hdump, hfile, ?_⟩
  rw [run_dumpAllBuffersEx "" hdump (fun _ _ _ ↦ rfl) hsized, silent_used, hconfig]
  exact congrArg (Outcome.mk (some ()) · _) (writes_nil silent)

end HrxSystem.Hip
