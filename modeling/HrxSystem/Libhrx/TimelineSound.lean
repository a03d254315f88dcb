import HrxSystem.Libhrx.FailedRecording
import HrxSystem.Libhrx.Lanes

namespace HrxSystem.Libhrx

open External Program Counting HrxStreamS Timeline

variable {o : Outside} {n a : ℕ} {s : Obj} {cb : Obj} {t es : Trace} {st st' : HrxStreamS}
variable {mem mem₀ : Memory} {k : StreamCall} {l : StreamLog} {d₀ d : Device Obj Work}

/-- When a barrier on `s` is accepted the values before its own are reached, or it waits for
them. -/
def InTurn (s : Obj) (e : Happened) (d : Device Obj Work) : Prop :=
  ∀ x v, submission e = some x → x.payload.job = .barrier → x.signals = [⟨s, v⟩] → Follows s d x v

section Recorded

def Holds (st : HrxStreamS) (cb : Obj) : Prop := st.pendingCb = some cb ∧ st.hasPendingWork = true

theorem beginCb_unrecorded (ho : Roomy o) (h : (beginCb.run o n st).val = none) :
    ∃ cb es, beginCb.run o n st = ⟨none, { st with pendingCb := some cb }, es⟩ ∧
      commandsIn es = [] := by
  obtain ⟨_, hr, -⟩ | ⟨cb, hcb, hr⟩ | ⟨-, -, -, hr⟩ := beginCb_cases ho n st
  · rw [hr] at h
    cases h
  · exact ⟨cb, [], by rw [hr, ← hcb], rfl⟩
  · exact ⟨n, _, hr, by simp [commandsIn, recordOf, createCall]⟩

theorem record_holds (ho : Roomy o) {c : Option Command} (h : ((record c).run o n st).val = none) :
    ∃ cb, Holds ((record c).run o n st).state cb ∧
      contents cb ((record c).run o n st).events = (StreamOp.record c).commands := by
  rw [record_eq] at h ⊢
  cases hb : (beginCb.run o n st).val with
  | some err =>
    rw [orReturn_failed (s := err) (by rw [← hb])] at h
    cases h
  | none =>
    obtain ⟨cb, es, hr, hes⟩ := beginCb_unrecorded ho hb
    rw [orReturn_ok hr] at h ⊢
    cases c with
    | none =>
      rw [recordCommand_null ho] at h
      cases h
    | some c =>
      cases hx : ok (happens o (n + es.length) (.commandBufferRecord (some cb) c)) with
      | false =>
        rw [recordCommand_notRecorded ho rfl hx] at h
        cases h
      | true =>
        cases hy : ok
          (happens o (n + es.length + 1) (.commandBufferRecord (some cb) .executionBarrier)) with
        | false =>
          rw [recordCommand_half ho rfl hx hy] at h
          cases h
        | true =>
          rw [recordCommand_recorded rfl hx hy]
          refine ⟨cb, ⟨rfl, rfl⟩, ?_⟩
          rw [Outcome.after_events, contents_append, contents_of_none hes, List.nil_append]
          simp [contents, uses, cbOf, commandsIn, recordOf, hx, hy, StreamOp.commands]

theorem executionBarrier_holds (ho : Roomy o) (h : (executionBarrier.run o n st).val = none) :
    ∃ cb, Holds (executionBarrier.run o n st).state cb ∧
      contents cb (executionBarrier.run o n st).events = StreamOp.executionBarrier.commands := by
  rw [executionBarrier_eq] at h ⊢
  cases hb : (beginCb.run o n st).val with
  | some err =>
    rw [orReturn_failed (s := err) (by rw [← hb])] at h
    cases h
  | none =>
    obtain ⟨cb, es, hr, hes⟩ := beginCb_unrecorded ho hb
    rw [orReturn_ok hr] at h ⊢
    cases hx :
        ok (happens o (n + es.length) (.commandBufferRecord (some cb) .executionBarrier)) with
    | false =>
      rw [recordBarrier_notRecorded ho rfl hx] at h
      cases h
    | true =>
      rw [recordBarrier_recorded rfl hx]
      refine ⟨cb, ⟨rfl, rfl⟩, ?_⟩
      rw [Outcome.after_events, contents_append, contents_of_none hes, List.nil_append]
      simp [contents, uses, cbOf, commandsIn, recordOf, hx, StreamOp.commands]

theorem StreamCall.run_holds {arc : Arc HrxStreamS} (ho : Roomy o) (hk : k.stream = some a)
    (hrec : k.recording = true) (ha : mem.streams.cell a = some arc)
    (h : (k.run.run o n mem).val.status = none) :
    ∃ cb arc', (k.run.run o n mem).state.streams.cell a = some arc' ∧ Holds arc'.data cb ∧
      contents cb (k.run.run o n mem).events = k.commands := by
  cases hres : k.resolve with
  | none =>
    obtain ⟨err, hr⟩ :=
      run_unresolved n mem ho hres (by rintro b rfl; cases hrec) (by rintro b rfl; cases hrec)
    rw [hr] at h
    cases h
  | some p =>
    obtain ⟨b, op⟩ := p
    obtain rfl : b = a := by simpa [stream_of_resolve hres] using hk
    obtain ⟨hstatus, hcells, -, tail, hevents, htail⟩ := run_resolved (o := o) (n := n) hres ha
    have hop : ∃ cb, Holds ((op.run mem.globals.shared).run o n arc.data).state cb ∧
        contents cb ((op.run mem.globals.shared).run o n arc.data).events = op.commands := by
      rw [hstatus] at h
      obtain ⟨c, rfl⟩ | rfl := resolve_recording hrec hres
      · simp only [StreamOp.run, returning, run_bind, run_pure, Outcome.after_val,
          Outcome.after_events, Outcome.after_state, List.append_nil] at h ⊢
        exact record_holds ho h
      · simp only [StreamOp.run, returning, run_bind, run_pure, Outcome.after_val,
          Outcome.after_events, Outcome.after_state, List.append_nil] at h ⊢
        exact executionBarrier_holds ho h
    obtain ⟨cb, hholds, hcontents⟩ := hop
    refine ⟨cb, _, by rw [hcells, Function.update_self], hholds, ?_⟩
    rw [hevents, contents_append, contents_of_none (commandsIn_of_quiet htail), List.append_nil,
      hcontents, commands, hres]

end Recorded

/-- Command buffer `cb` was accepted for execution in `es`, at place `n` or later. -/
def Executes (s : Obj) (n : ℕ) (cb : Obj) (es : Trace) : Prop :=
  ∃ x ∈ lane s es, x.payload.job = .execute (some cb) ∧ n ≤ x.payload.pos

theorem Executes.append_right (h : Executes s n cb t) (es : Trace) : Executes s n cb (t ++ es) := by
  obtain ⟨x, hx, hjob⟩ := h
  exact ⟨x, by simp [hx], hjob⟩

/-- What a stream holds it keeps until it is accepted for execution. -/
theorem Small.holds (h : Small n st es st') (hs : st.semaphore.hal = s) (hcb : Holds st cb) :
    Holds st' cb ∨ Executes s n cb es := by
  cases h with
  | @executed cb' d f x y z hown hw hx hy =>
    refine .inr ⟨⟨st.waitList, st.signalList, n + 1, .execute (some cb)⟩, ?_, rfl, Nat.le_succ n⟩
    obtain rfl : cb' = cb := by simpa [hcb.1] using hown.symm
    simp [lane, submissions, submission, ok, hx, hy, Submission.signalsOn, signalList, hs]
  | opened hnone _ _ =>
    rw [hcb.1] at hnone
    cases hnone
  | recorded _ _ _ | barriered _ _ => exact .inl ⟨hcb.1, rfl⟩
  | _ => exact .inl hcb

theorem Steps.holds (h : Steps n st es st') (hs : st.semaphore.hal = s) (hcb : Holds st cb) :
    Holds st' cb ∨ Executes s n cb es := by
  induction h with
  | nil => exact .inl hcb
  | @cons n st st₁ st₂ es fs hsmall _ ih =>
    obtain hcb | hexec := hsmall.holds hs hcb
    · obtain hcb | ⟨x, hx, hjob, hpos⟩ := ih (by rw [hsmall.fixed.1, hs]) hcb
      · exact .inl hcb
      · exact .inr ⟨x, by simp [hx], hjob, by omega⟩
    · exact .inr (hexec.append_right fs)

theorem Lives.holds {arc arc' : Arc HrxStreamS} {cell' : Option (Arc HrxStreamS)}
    (h : Lives k n arc es cell') (harc' : cell' = some arc') (hs : arc.data.semaphore.hal = s)
    (hcb : Holds arc.data cb) : Holds arc'.data cb ∨ Executes s n cb es := by
  cases h with
  | walked _ hsteps _ =>
    cases harc'
    exact hsteps.holds hs hcb
  | skipped _ _ =>
    cases harc'
    exact .inl hcb
  | dropped _ _ _ _ _ _ => cases harc'

theorem Program.pos_lt {C A σ α : Type} (m : Program C A σ α) (o : Oracle C A) (n : ℕ) (s : σ) :
    ∀ e ∈ (m.run o n s).events, e.pos < n + (m.run o n s).events.length := by
  intro e he
  have hpos := List.mem_map_of_mem (f := Event.pos) he
  rw [m.ordered, List.mem_range'_1] at hpos
  exact hpos.2

abbrev StreamEntry := Entry Call Answer Memory Returned StreamCall

def Recorded (a : ℕ) (r : StreamEntry) : Prop :=
  r.call.stream = some a ∧ r.call.recording = true ∧ r.result.val.status = none

def Pending (a : ℕ) (s : Obj) (mem : Memory) (l : StreamLog) : Prop :=
  ∀ r ∈ l, Recorded a r → ∃ cb m, contents cb r.result.events = r.call.commands ∧
    (∀ e ∈ r.result.events, e.pos < m) ∧ m ≤ (trace l).length ∧
    (Executes s m cb (trace l) ∨ ∀ arc, mem.streams.cell a = some arc → Holds arc.data cb)

theorem Pending.call (h : Pending a s mem l)
    (hs : ∀ arc, mem.streams.cell a = some arc → arc.data.semaphore.hal = s)
    (hk : Usual (trace l).length mem k o) :
    Pending a s (k.run.run o (trace l).length mem).state
      (l ++ [⟨mem, k, k.run.run o (trace l).length mem⟩]) := by
  obtain ⟨hlive, ho⟩ := hk
  have htrace : trace (l ++ [⟨mem, k, k.run.run o (trace l).length mem⟩]) =
      trace l ++ (k.run.run o (trace l).length mem).events := by simp
  intro r hr hrec
  rw [htrace, List.length_append]
  obtain hr | hr := List.mem_append.mp hr
  · obtain ⟨cb, m, hcontents, hpos, hm, hheld⟩ := h r hr hrec
    refine ⟨cb, m, hcontents, hpos, by omega, ?_⟩
    obtain hexec | hholds := hheld
    · exact .inl (hexec.append_right _)
    by_cases hka : k.stream = some a
    · obtain ⟨arc, harc⟩ := hlive a hka
      obtain ⟨hlives, -⟩ := StreamCall.run_lives (n := (trace l).length) ho hka harc
      cases hcell : (k.run.run o (trace l).length mem).state.streams.cell a with
      | none => exact .inr nofun
      | some arc' =>
        obtain hcb | ⟨x, hx, hjob, hle⟩ := hlives.holds hcell (hs arc harc) (hholds arc harc)
        · refine .inr ?_
          rintro _ ⟨⟩
          exact hcb
        · exact .inl ⟨x, by simp [hx], hjob, by omega⟩
    · rw [StreamCall.run_cell_of_ne ho hlive hka]
      exact .inr hholds
  · rw [List.mem_singleton.mp hr] at hrec ⊢
    obtain ⟨hka, hrecording, hstatus⟩ := hrec
    obtain ⟨arc, harc⟩ := hlive a hka
    obtain ⟨cb, arc', hcell, hholds, hcontents⟩ :=
      StreamCall.run_holds ho hka hrecording harc hstatus
    refine ⟨cb, _, hcontents, Program.pos_lt _ _ _ _, le_rfl, .inr fun arc'' harc'' ↦ ?_⟩
    obtain rfl := Option.some.inj (hcell.symm.trans harc'')
    exact hholds

theorem pending_of_run (hfresh : FreshStream mem₀ a s) (h : StreamRuns (KeepsLane a) mem₀ mem l) :
    Pending a s mem l := by
  induction h with
  | start => exact fun _ hr ↦ by cases hr
  | call k o hrun hk ih =>
    exact ih.call (fun arc harc ↦ ((KeepsLane.inv hfresh hrun).timepoint arc harc).1) hk.1

theorem hrxSemaphoreWait_waited {σ : Type} (ho : Roomy o) {sem : SemaphorePtr} {value timeoutNs : ℕ}
    {x : σ} (h : ((hrxSemaphoreWait (some sem) value timeoutNs).run o n x).val = none) :
    ∃ e ∈ ((hrxSemaphoreWait (some sem) value timeoutNs).run o n x).events, ok e = true ∧
      e.call = .semaphoreWait ⟨sem.hal, value⟩ (semaphoreTimeout timeoutNs) := by
  refine ⟨happens o n _, by simp [hrxSemaphoreWait], ?_, rfl⟩
  by_contra hfailed
  rw [Bool.not_eq_true] at hfailed
  have hr := run_hrxStatusFromIree ho hfailed (n + 1) x
  simp only [hrxSemaphoreWait, run_bind, run_call, List.length_singleton, Outcome.after_val, hr]
    at h
  cases h

/-- A stream that was synchronized holds nothing and has waited for its timepoint. -/
theorem synchronize_waited (ho : Roomy o) (h : (synchronize.run o n st).val = none) :
    (∀ cb, ¬ Holds (synchronize.run o n st).state cb) ∧
      ((synchronize.run o n st).state.timepoint = 0 ∨
        ∃ e ∈ (synchronize.run o n st).events, ∃ timeout, ok e = true ∧
          e.call = .semaphoreWait ⟨(synchronize.run o n st).state.semaphore.hal,
            (synchronize.run o n st).state.timepoint⟩ timeout) := by
  rw [synchronize_eq] at h ⊢
  cases hf : flushInner.run o n st with
  | mk val st' es =>
    cases val with
    | some err =>
      rw [orReturn_failed hf] at h
      cases h
    | none =>
      have hflushed : st'.hasPendingWork = false ∨ st'.pendingCb = none := by
        have hflushed := @flushInner_flushed o n st ho (by rw [hf])
        rwa [hf] at hflushed
      have hsame : (wait.run o (n + es.length) st').state = st' :=
        (wait_aside o (n + es.length) st').1
      rw [orReturn_ok hf] at h ⊢
      rw [Outcome.after_state, hsame]
      refine ⟨?_, ?_⟩
      · rintro cb ⟨hcb, hwork⟩
        obtain hidle | hnone := hflushed
        · exact absurd hwork (by simp [hidle])
        · exact absurd hcb (by simp [hnone])
      by_cases htp : st'.timepoint = 0
      · exact .inl htp
      have hwait : wait.run o (n + es.length) st' =
          (hrxSemaphoreWait (some st'.semaphore) st'.timepoint (2 ^ 64 - 1)).run o
          (n + es.length) st' := by
        simp [wait, htp]
      rw [hwait] at h ⊢
      obtain ⟨e, he, hok, hcall⟩ := hrxSemaphoreWait_waited ho h
      exact .inr ⟨e, List.mem_append_right _ he, _, hok, hcall⟩

/-- The commands that the call of `r` recorded have been executed: they are in a command buffer
whose execution was submitted after them and is done. -/
def Executed (d : Device Obj Work) (r : StreamEntry) : Prop :=
  ∃ cb, contents cb r.result.events = r.call.commands ∧
    ∃ x ∈ d.done, x.payload.job = .execute (some cb) ∧ ∀ e ∈ r.result.events, e.pos < x.payload.pos

/-- Semaphore `s` of stream `a` tells what is done, and so does `hrx_stream_synchronize`. -/
structure TimelineTold (a : ℕ) (s : Obj) (l : StreamLog) (t : Trace) (d : Device Obj Work) :
    Prop where
  done : ∀ x ∈ d.accepted, ∀ p ∈ x.signals, p.semaphore = s → p.value ≤ d.value s → x ∈ d.done
  synchronized : ∀ l₁ e l₂, l = l₁ ++ e :: l₂ → trace (l₁ ++ [e]) <+: t →
    e.call = .synchronize (some a) → e.result.val.status = none →
    ∀ r ∈ l₁, Recorded a r → Executed d r

theorem run_synchronize {arc : Arc HrxStreamS} (ho : Roomy o) (ha : mem.streams.cell a = some arc)
    (h : ((StreamCall.synchronize (some a)).run.run o n mem).val.status = none) :
    ∃ arc', ((StreamCall.synchronize (some a)).run.run o n mem).state.streams.cell a = some arc' ∧
      (∀ cb, ¬ Holds arc'.data cb) ∧
      (arc'.data.timepoint = 0 ∨
        ∃ e ∈ ((StreamCall.synchronize (some a)).run.run o n mem).events, ∃ timeout, ok e = true ∧
          e.call = .semaphoreWait ⟨arc'.data.semaphore.hal, arc'.data.timepoint⟩ timeout) := by
  obtain ⟨hstatus, hcells, -, tail, hevents, -⟩ :=
    StreamCall.run_resolved (k := .synchronize (some a)) (o := o) (n := n) rfl ha
  rw [hstatus] at h
  simp only [StreamOp.run, returning, run_bind, run_pure, Outcome.after_val, Outcome.after_events,
    Outcome.after_state, List.append_nil] at h hcells hevents
  obtain ⟨hholds, hwaited⟩ := synchronize_waited ho h
  refine ⟨_, by rw [hcells, Function.update_self], hholds, ?_⟩
  refine hwaited.imp_right ?_
  rintro ⟨e, he, hwait⟩
  exact ⟨e, by rw [hevents]; exact List.mem_append_left _ he, hwait⟩

/-- Every submission of the lane follows the ones before it, if the barriers do. -/
theorem LaneInv.follows {e : Happened} {x : Submission Obj Work} {v : ℕ} (h : LaneInv a s mem l)
    (hlen : l.length < 2 ^ 64) (he : e ∈ trace l) (hturn : InTurn s e d)
    (hx : submission e = some x) (hv : x.signals = [⟨s, v⟩]) : Follows s d x v := by
  by_cases hjob : x.payload.job = .barrier
  · exact hturn x v hx hjob hv
  have hmem : x ∈ lane s (trace l) :=
    Timeline.mem_lane.mpr ⟨List.mem_filterMap.mpr ⟨e, he, hx⟩, signalsOn_of_signals hv⟩
  obtain ⟨i, hi⟩ := List.getElem?_of_mem hmem
  obtain ⟨hsignals, hwaits⟩ := h.numbered hlen (List.prefix_refl _) hi
  obtain rfl : v = i + 1 := by
    rw [hv] at hsignals
    simpa using hsignals
  by_cases hpos : 0 < i
  · exact .inr ⟨_, hwaits hjob hpos, rfl, le_rfl⟩
  · exact .inl (by omega)

/-- On a semaphore that only its lane signals, what is below its value is done. -/
theorem lane_done {sees : Happened → Device Obj Work → Prop} (hfresh : FreshStream mem₀ a s)
    (h : StreamRuns (KeepsLane a) mem₀ mem l) (hlen : l.length < 2 ^ 64) (hidle : d₀.Idle)
    (hzero : d₀.value s = 0) (ht : t <+: trace l) (hd : Interleaves submission sees (· ≠ s) d₀ t d)
    (hturn : ∀ e ∈ t, ∀ d, sees e d → InTurn s e d) :
    ∀ x ∈ d.accepted, ∀ p ∈ x.signals, p.semaphore = s → p.value ≤ d.value s → x ∈ d.done := by
  have hinv := KeepsLane.inv hfresh h
  have hnum : Numbered s (t.filterMap submission) := fun i x hx ↦ (hinv.numbered hlen ht hx).1
  have hdone := hd.done_iff hidle hzero (by simp) hnum
    fun e he d x v hsees hx hv ↦ hinv.follows hlen (ht.subset he) (hturn e he d hsees) hx hv
  intro x hx p hp hps hle
  obtain ⟨v, hv, -⟩ | hne := hnum.signals_cases (by rwa [← hd.accepted hidle])
  · rw [hv, List.mem_singleton] at hp
    subst hp
    exact ((hdone x hx v hv).2).mpr hle
  · exact absurd hps (hne p hp)

theorem LaneInv.signals_le {arc : Arc HrxStreamS} {x : Submission Obj Work} (h : LaneInv a s mem l)
    (hlen : l.length < 2 ^ 64) (hcell : mem.streams.cell a = some arc) (hx : x ∈ lane s (trace l)) :
    ∃ v, x.signals = [⟨s, v⟩] ∧ v ≤ arc.data.timepoint := by
  obtain ⟨i, hi⟩ := List.getElem?_of_mem hx
  obtain ⟨hsignals, -⟩ := h.numbered hlen (List.prefix_refl _) hi
  obtain ⟨hlt, -⟩ := List.getElem?_eq_some_iff.mp hi
  obtain ⟨-, htp⟩ := h.timepoint arc hcell
  have hlength := h.length_le
  rw [Nat.mod_eq_of_lt (by omega)] at htp
  exact ⟨i + 1, hsignals, by omega⟩

/-- What was accepted on the lane up to a point where the timepoint of the stream is reached is
done. -/
theorem LaneInv.done_of_reached {arc : Arc HrxStreamS} {x : Submission Obj Work}
    (h : LaneInv a s mem l) (hlen : l.length < 2 ^ 64) (hcell : mem.streams.cell a = some arc)
    (hx : x ∈ lane s (trace l)) (hpre : trace l <+: t)
    (haccepted : d.accepted = t.filterMap submission)
    (hdone : ∀ x ∈ d.accepted, ∀ p ∈ x.signals, p.semaphore = s → p.value ≤ d.value s → x ∈ d.done)
    (hreached : arc.data.timepoint ≤ d.value s) : x ∈ d.done := by
  obtain ⟨v, hsignals, hle⟩ := h.signals_le hlen hcell hx
  refine hdone x ?_ ⟨s, v⟩ (by rw [hsignals]; exact List.mem_singleton_self _) rfl
    (hle.trans hreached)
  rw [haccepted]
  exact (hpre.filterMap submission).subset (List.mem_filter.mp hx).1

theorem length_upTo {l₁ l₂ : StreamLog} {e : StreamEntry} (hl : l = l₁ ++ e :: l₂)
    (hlen : l.length < 2 ^ 64) :
    (l₁ ++ [e]).length < 2 ^ 64 := by
  rw [hl] at hlen
  simp only [List.length_append, List.length_cons, List.length_nil] at hlen ⊢
  omega

theorem timeline_told (hfresh : FreshStream mem₀ a s) (h : StreamRuns (KeepsLane a) mem₀ mem l)
    (hlen : l.length < 2 ^ 64) (hidle : d₀.Idle) (hzero : d₀.value s = 0) (ht : t <+: trace l)
    (hd : Interleaves submission (fun e d ↦ Answers e d ∧ InTurn s e d) (· ≠ s) d₀ t d) :
    TimelineTold a s l t d := by
  have hlane := lane_done hfresh h hlen hidle hzero ht hd fun _ _ _ hsees ↦ hsees.2
  refine ⟨hlane, ?_⟩
  intro l₁ e l₂ hl hpre hcall hstatus r hr hrec
  obtain ⟨hbefore, hafter, o, hk, hresult⟩ := h.upTo hl
  have hinv' := KeepsLane.inv hfresh hafter
  obtain ⟨cb, m, hcontents, hpos, -, hheld⟩ :=
    pending_of_run hfresh hafter r (List.mem_append_left _ hr) hrec
  rw [hcall] at hk hresult
  obtain ⟨arc, harc⟩ := hk.1.1 a rfl
  rw [hresult] at hstatus
  obtain ⟨arc', hcell, hholds, hwaited⟩ := run_synchronize hk.1.2 harc hstatus
  rw [← hresult] at hcell hwaited
  obtain hexec | hheld := hheld
  swap
  · exact absurd (hheld arc' hcell) (hholds cb)
  obtain ⟨x, hx, hjob, hle⟩ := hexec
  refine ⟨cb, hcontents, x, ?_, hjob, fun f hf ↦ (hpos f hf).trans_le hle⟩
  refine hinv'.done_of_reached (length_upTo hl hlen) hcell hx hpre (hd.accepted hidle) hlane ?_
  -- The wait of the call saw the timepoint.
  obtain ⟨hs, -⟩ := hinv'.timepoint arc' hcell
  obtain hzero' | ⟨f, hf, timeout, hok, hwait⟩ := hwaited
  · rw [hzero']
    exact Nat.zero_le _
  have hft : f ∈ t :=
    hpre.subset (by rw [trace_append, trace_single]; exact List.mem_append_right _ hf)
  obtain ⟨d', ⟨hanswers, -⟩, hvalue⟩ := hd.saw hft
  have hreached : arc'.data.timepoint ≤ d'.value arc'.data.semaphore.hal :=
    hanswers _ timeout hwait hok
  rw [hs] at hreached
  exact hreached.trans (hvalue s)

theorem seen_aside {es : Trace}
    (h : ∀ e ∈ es, isSemaphoreWait e.call = false ∧ isQueueBarrier e.call = false) :
    ∀ e ∈ es, ∀ d, Answers e d ∧ InTurn s e d := by
  intro e he d
  obtain ⟨hwait, hbarrier⟩ := h e he
  exact ⟨answers_of_unasked hwait, fun x v hx hjob ↦ absurd hjob (job_ne_barrier hbarrier hx)⟩

theorem seen_wait {e : Happened} {p : SemaphorePoint} {timeout : Timeout}
    (hcall : e.call = .semaphoreWait p timeout) (hp : d.Reached p) :
    Answers e d ∧ InTurn s e d := by
  refine ⟨?_, fun x v hx hjob ↦ absurd hjob (job_ne_barrier (by rw [hcall]; rfl) hx)⟩
  intro q timeout' hq _
  rw [hcall] at hq
  cases hq
  exact hp

def joinedProgram : List (StreamCall × Outside) :=
  [(.executionBarrier (some 1), allSucceed), (.synchronize (some 1), allSucceed),
    (.waitOn (some 1) ⟨some ⟨9, 7⟩, 1⟩, allSucceed), (.synchronize (some 1), allSucceed)]

theorem timeline_told_joined :
    ∃ d, d.value 0 = 2 ∧ TimelineTold 1 0 (play StreamCall.run oneStream [] joinedProgram).2
      (trace (play StreamCall.run oneStream [] joinedProgram).2) d := by
  have hrun : StreamRuns (KeepsLane 1) oneStream _ _ := Runs.play .start joinedProgram (by
    refine ⟨⟨⟨?_, allSucceed_roomy⟩, by decide⟩, ⟨⟨?_, allSucceed_roomy⟩, by decide⟩,
      ⟨⟨?_, allSucceed_roomy⟩, by decide⟩, ⟨⟨?_, allSucceed_roomy⟩, by decide⟩, trivial⟩
    all_goals
      intro a h
      cases h
      exact ⟨_, rfl⟩)
  let x : Submission Obj Work := ⟨[], [⟨0, 1⟩], 4, .execute (some 0)⟩
  let y : Submission Obj Work := ⟨[⟨7, 1⟩], [⟨0, 2⟩], 7, .barrier⟩
  let t := trace (play StreamCall.run oneStream [] joinedProgram).2
  have h₁ : Interleaves submission (fun e d ↦ Answers e d ∧ InTurn 0 e d) (· ≠ 0) newDevice _ _ :=
    (((Interleaves.boot.calls (t.take 6) fun e he _ ↦ seen_aside (by decide) e he _).start x
      (by decide)
      (by simp [x])).finish x (by simp [Device.start]) (by simp [Device.start, newDevice]))
  have h₂ :=
    h₁.event (happens allSucceed 6 (.semaphoreWait ⟨0, 1⟩ .infinite)) (seen_wait rfl (by decide))
  have h₃ := h₂.event (happens allSucceed 7 (.queueBarrier 4 affinityAny [⟨7, 1⟩] [⟨0, 2⟩])) (by
    refine ⟨answers_of_unasked rfl, ?_⟩
    intro z v hz _ hv
    obtain rfl := Option.some.inj hz
    cases hv
    exact .inl (by decide))
  have h₄ := (((h₃.raise ⟨7, 1⟩ (by decide)).start y (by decide) (by decide)).finish y
    (by simp [Device.start])
    (by simp [Device.start, Device.raise, Device.accept, Device.finish, newDevice, x, y])).event
    (happens allSucceed 8 (.semaphoreWait ⟨0, 2⟩ .infinite)) (seen_wait rfl (by decide))
  exact ⟨_, by decide, timeline_told oneStream_fresh hrun (by decide) newDevice_idle rfl
    (List.prefix_refl _) h₄⟩

def aheadProgram : List (StreamCall × Outside) :=
  [(.executionBarrier (some 1), allSucceed), (.flush (some 1), allSucceed),
    (.waitOn (some 1) ⟨some ⟨9, 7⟩, 1⟩, allSucceed), (.synchronize (some 1), allSucceed)]

/-- The barrier of `hrx_stream_wait_on` ends before the work flushed in front of it has started, and
the synchronization returns OK. -/
theorem timeline_ahead_of_work :
    ¬ ∀ mem₀ mem a s l t d₀ d, FreshStream mem₀ a s →
      StreamRuns (fun n mem k o ↦ Usual n mem k o ∧ k.skips = false) mem₀ mem l →
      l.length < 2 ^ 64 →
      d₀.Idle → d₀.value s = 0 → t <+: trace l → Interleaves submission Answers (· ≠ s) d₀ t d →
      TimelineTold a s l t d := by
  intro h
  have hrun : StreamRuns (fun n mem k o ↦ Usual n mem k o ∧ k.skips = false) oneStream _ _ :=
    Runs.play .start aheadProgram (by
      refine ⟨⟨⟨?_, allSucceed_roomy⟩, rfl⟩, ⟨⟨?_, allSucceed_roomy⟩, rfl⟩,
        ⟨⟨?_, allSucceed_roomy⟩, rfl⟩, ⟨⟨?_, allSucceed_roomy⟩, rfl⟩, trivial⟩
      all_goals
        intro a h
        cases h
        exact ⟨_, rfl⟩)
  let x : Submission Obj Work := ⟨[], [⟨0, 1⟩], 4, .execute (some 0)⟩
  let y : Submission Obj Work := ⟨[⟨7, 1⟩], [⟨0, 2⟩], 6, .barrier⟩
  let t := trace (play StreamCall.run oneStream [] aheadProgram).2
  have hnowait : ∀ e ∈ t.take 7, isSemaphoreWait e.call = false := by decide
  have hd : Interleaves submission Answers (· ≠ 0) newDevice _ _ :=
    (((Interleaves.boot.calls (t.take 7) fun e he _ ↦ answers_of_unasked (hnowait e he)).raise
      ⟨7, 1⟩
      (by decide)).start y (by decide) (by decide)).finish y (by simp [Device.start])
      (by simp [Device.start, Device.raise, newDevice])
  have hd' := hd.event (happens allSucceed 7 (.semaphoreWait ⟨0, 2⟩ .infinite))
    (seen_wait (s := 0) rfl (by decide)).1
  have htold :=
    h oneStream _ 1 0 _ t newDevice _ oneStream_fresh hrun (by decide) newDevice_idle rfl
    (List.prefix_refl _) hd'
  have hdone := htold.done x (by decide) ⟨0, 1⟩ (by decide) rfl (by decide)
  simp [Device.accept, Device.finish, Device.start, Device.raise, newDevice, x, y] at hdone

end HrxSystem.Libhrx
