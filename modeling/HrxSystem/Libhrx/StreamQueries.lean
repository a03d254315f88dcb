import HrxSystem.Libhrx.TimelineSound

namespace HrxSystem.Libhrx

open External Program Counting HrxStreamS Timeline

variable {o : Outside} {n a : ℕ} {s : Obj} {t : Trace} {st : HrxStreamS} {mem mem₀ : Memory}
  {k : StreamCall}
variable {l : StreamLog} {d₀ d : Device Obj Work}

/-- The calls that record, submit, wait for or ask about the work of a stream. -/
def StreamCall.plain : StreamCall → Bool
  | .flush _ | .synchronize _ | .wait _ | .query .. => true
  | k => k.recording

def flushesOnly : Call → Bool
  | .queueAlloca .. | .queueBarrier .. => false
  | _ => true

abbrev FlushesOnly {σ α : Type} (m : Hrx σ α) : Prop :=
  Confined (fun _ ↦ ()) (fun c ↦ flushesOnly c = true) m

section FlushesOnly

theorem status_flushesOnly {σ : Type} (s : IreeStatus) :
    FlushesOnly (hrxStatusFromIree s : Hrx σ HrxStatus) :=
  hrxStatusFromIree_calls (fun _ ↦ rfl) s

theorem beginCb_flushesOnly : FlushesOnly beginCb := by
  refine .bind .state fun _ ↦ .ite (.pure _)
    (.bind (.call rfl) fun _ ↦ .ite (status_flushesOnly _) ?_)
  refine .bind (.call rfl) fun _ ↦ .ite ?_ ?_
  · exact .bind (.call rfl) fun _ ↦ .bind (.update fun _ ↦ rfl) fun _ ↦ status_flushesOnly _
  · exact .bind (.update fun _ ↦ rfl) fun _ ↦ .pure _

theorem record_flushesOnly (c : Option Command) : FlushesOnly (record c) := by
  refine .bind beginCb_flushesOnly fun _ ↦ .ite (.pure _) ?_
  cases c with
  | none => exact hrxError_calls (fun _ ↦ rfl) _ _
  | some c =>
    refine .bind .state fun _ ↦ .bind (.call rfl) fun _ ↦ .ite (status_flushesOnly _) ?_
    refine .bind (.bind .state fun _ ↦ .call rfl) fun _ ↦ .ite (status_flushesOnly _) ?_
    exact .bind (.update fun _ ↦ rfl) fun _ ↦ .pure _

theorem executionBarrier_flushesOnly : FlushesOnly executionBarrier := by
  refine .bind beginCb_flushesOnly fun _ ↦ .ite (.pure _) ?_
  refine .bind .state fun _ ↦ .bind (.call rfl) fun _ ↦ .ite (status_flushesOnly _) ?_
  exact .bind (.update fun _ ↦ rfl) fun _ ↦ .pure _

theorem flushInner_flushesOnly : FlushesOnly flushInner := by
  refine .bind .state fun _ ↦ .ite (.pure _)
    (.bind (.call rfl) fun _ ↦ .ite (status_flushesOnly _) ?_)
  refine .bind (.call rfl) fun _ ↦ .ite (status_flushesOnly _) ?_
  exact .bind (.update fun _ ↦ rfl) fun _ ↦ .bind (.call rfl) fun _ ↦ .bind (.update fun _ ↦ rfl)
    fun _ ↦ .pure _

theorem wait_flushesOnly : FlushesOnly wait :=
  .bind .state fun _ ↦ .ite (.pure _) (.bind (.call rfl) fun _ ↦ status_flushesOnly _)

theorem query_flushesOnly : FlushesOnly query := by
  refine .bind .state fun _ ↦ .ite (.pure _) (.bind ?_ fun _ ↦ .ite (.pure _) (.pure _))
  exact .bind (.call rfl) fun _ ↦ .bind (status_flushesOnly _) fun _ ↦ .pure _

theorem flushesOnly_of_quiet {c : Call} (h : quiet c = true) : flushesOnly c = true := by
  cases c <;> first | rfl | cases h

theorem returning_flushesOnly {σ : Type} {m : Hrx σ HrxStatus} (hm : FlushesOnly m) :
    FlushesOnly (returning m) :=
  .bind hm fun _ ↦ .pure _

theorem StreamCall.plain_cases {op : StreamOp} (hk : k.plain = true)
    (hres : k.resolve = some (a, op)) :
    (∃ c, op = .record c) ∨ op = .executionBarrier ∨ op = .flush ∨ op = .synchronize ∨ op = .wait ∨
      op = .query := by
  cases hrec : k.recording with
  | true =>
    rcases resolve_recording hrec hres with hop | hop
    · exact .inl hop
    · exact .inr (.inl hop)
  | false =>
    unfold StreamCall.resolve at hres
    split at hres
    case h_16 => cases hres
    all_goals first
      | cases hrec; done
      | cases hk; done
      | cases hres; simp

theorem StreamCall.plain_flushesOnly {op : StreamOp} (hk : k.plain = true)
    (hres : k.resolve = some (a, op)) (shared : SharedState) : FlushesOnly (op.run shared) := by
  rcases plain_cases hk hres with ⟨c, rfl⟩ | rfl | rfl | rfl | rfl | rfl
  · exact returning_flushesOnly (record_flushesOnly c)
  · exact returning_flushesOnly executionBarrier_flushesOnly
  · exact returning_flushesOnly flushInner_flushesOnly
  · exact returning_flushesOnly
      (.bind flushInner_flushesOnly fun _ ↦ .ite (.pure _) wait_flushesOnly)
  · exact returning_flushesOnly wait_flushesOnly
  · exact query_flushesOnly

theorem StreamCall.run_plain (hu : Usual n mem k o) (hka : k.stream = some a)
    (hk : k.plain = true) :
    ∀ e ∈ (k.run.run o n mem).events, flushesOnly e.call = true := by
  obtain ⟨hlive, ho⟩ := hu
  cases hres : k.resolve with
  | none =>
    obtain ⟨err, hr⟩ :=
      run_unresolved n mem ho hres (by rintro b rfl; cases hk) (by rintro b rfl; cases hk)
    rw [hr]
    intro e he
    rw [List.mem_singleton.mp he]
    rfl
  | some p =>
    obtain ⟨b, op⟩ := p
    obtain rfl : b = a := by simpa [stream_of_resolve hres] using hka
    obtain ⟨arc, harc⟩ := hlive b hka
    obtain ⟨-, -, -, tail, hevents, htail⟩ := run_resolved (o := o) (n := n) hres harc
    rw [hevents]
    intro e he
    rcases List.mem_append.mp he with he | he
    · exact (plain_flushesOnly hk hres _ o n arc.data).2 e he
    · exact flushesOnly_of_quiet (htail e he)

theorem not_lost_of_flushesOnly {es : Trace} (h : ∀ e ∈ es, flushesOnly e.call = true) :
    ¬ Lost es := by
  rintro ⟨halloca, -⟩
  obtain ⟨e, he, haccepted⟩ := List.any_eq_true.mp halloca
  have hcall := h e he
  unfold allocaAccepted at haccepted
  split at haccepted
  · rename_i hc
    rw [hc] at hcall
    cases hcall
  · cases haccepted

end FlushesOnly

/-- Stream `st` is told that its timeline is complete by a query at place `n`. -/
def ReadsComplete (o : Outside) (n : ℕ) (st : HrxStreamS) : Prop :=
  st.timepoint = 0 ∨ ok (happens o n (.semaphoreQuery st.semaphore.hal)) = true ∧
    st.timepoint ≤ (happens o n (.semaphoreQuery st.semaphore.hal)).answer.value

/-- The calls on stream `a` are plain, and no query that would read as complete meets unflushed
work. -/
def Queried (a : ℕ) (n : ℕ) (mem : Memory) (k : StreamCall) (o : Outside) : Prop :=
  Usual n mem k o ∧ (k.stream = some a → k.plain = true ∧ ∀ arc, k = .query (some a) true →
    mem.streams.cell a = some arc → ReadsComplete o n arc.data → arc.data.hasPendingWork = false)

theorem Queried.keepsLane (h : Queried a n mem k o) : KeepsLane a n mem k o := by
  obtain ⟨hu, hown⟩ := h
  refine ⟨hu, fun hka ↦ ?_⟩
  obtain ⟨hplain, -⟩ := hown hka
  refine ⟨?_, not_lost_of_flushesOnly (StreamCall.run_plain hu hka hplain)⟩
  cases k <;> first | rfl | cases hplain

def Tells (e : Happened) (d : Device Obj Work) : Prop :=
  Answers e d ∧ ∀ s, e.call = .semaphoreQuery s → ok e = true → e.answer.value ≤ d.value s

/-- Nothing but flushes signals semaphore `s`. -/
def Unbarred (s : Obj) (t : Trace) : Prop :=
  ∀ e ∈ t, ∀ x v, submission e = some x → x.payload.job = .barrier → x.signals ≠ [⟨s, v⟩]

theorem unbarred_of_flushesOnly {es : Trace} (h : ∀ e ∈ es, flushesOnly e.call = true) :
    Unbarred s es := by
  intro e he x v hx hjob
  refine absurd hjob (job_ne_barrier ?_ hx)
  have hcall := h e he
  cases hc : e.call <;> first | rfl | (rw [hc] at hcall; cases hcall)

theorem unbarred_of_signalled {es : Trace} (h : signalled s es = []) : Unbarred s es := by
  intro e he x v hx _ hv
  have hmem : x ∈ lane s es :=
    mem_lane.mpr ⟨List.mem_filterMap.mpr ⟨e, he, hx⟩, signalsOn_of_signals hv⟩
  rw [lane_of_signalled h] at hmem
  cases hmem

theorem unbarred_of_run (hfresh : FreshStream mem₀ a s) (h : StreamRuns (Queried a) mem₀ mem l) :
    Unbarred s (trace l) := by
  induction h with
  | start => exact fun _ he ↦ by cases he
  | @call mem l k o hrun hk ih =>
    have hinv := KeepsLane.inv hfresh (hrun.mono fun _ _ _ _ hk ↦ hk.keepsLane)
    have hnew : Unbarred s (k.run.run o (trace l).length mem).events := by
      by_cases hka : k.stream = some a
      · exact unbarred_of_flushesOnly (StreamCall.run_plain hk.1 hka (hk.2 hka).1)
      · exact unbarred_of_signalled (hinv.timeline.elsewhere hk.1 hka).1
    rw [trace_append, trace_single]
    intro e he
    rcases List.mem_append.mp he with he | he
    · exact ih e he
    · exact hnew e he

theorem query_complete (h : (query.run o n st).val = ⟨none, .flag true⟩) (ho : Roomy o) :
    ReadsComplete o n st ∧ (st.timepoint = 0 ∨ happens o n (.semaphoreQuery st.semaphore.hal) ∈
      (query.run o n st).events) := by
  by_cases htp : st.timepoint = 0
  · exact ⟨.inl htp, .inl htp⟩
  cases hq : ok (happens o n (.semaphoreQuery st.semaphore.hal)) with
  | false =>
    have hr := run_hrxStatusFromIree ho hq (n + 1) st
    simp [query, htp, hrxSemaphoreQuery, hr, hrxStatusIsOk] at h
  | true =>
    have hr := run_hrxStatusFromIree_ok hq o (n + 1) st
    have hle : st.timepoint ≤ (happens o n (.semaphoreQuery st.semaphore.hal)).answer.value := by
      simpa [query, htp, hrxSemaphoreQuery, hr, hrxStatusIsOk, hrxOkStatus] using h
    refine ⟨.inr ⟨hq, hle⟩, .inr ?_⟩
    simp [query, htp, hrxSemaphoreQuery, hr, hrxStatusIsOk, hrxOkStatus]

/-- A query of stream `a` that reported completion came after all recorded work was executed. -/
def QueryTold (a : ℕ) (l : StreamLog) (t : Trace) (d : Device Obj Work) : Prop :=
  ∀ l₁ e l₂, l = l₁ ++ e :: l₂ → trace (l₁ ++ [e]) <+: t → e.call = .query (some a) true →
    e.result.val = ⟨none, .flag true⟩ → ∀ r ∈ l₁, Recorded a r → Executed d r

theorem query_told (hfresh : FreshStream mem₀ a s) (h : StreamRuns (Queried a) mem₀ mem l)
    (hlen : l.length < 2 ^ 64) (hidle : d₀.Idle) (hzero : d₀.value s = 0) (ht : t <+: trace l)
    (hd : Interleaves submission Tells (· ≠ s) d₀ t d) : QueryTold a l t d := by
  have hlanes : StreamRuns (KeepsLane a) mem₀ mem l := h.mono fun _ _ _ _ hk ↦ hk.keepsLane
  have hunbarred := unbarred_of_run hfresh h
  have hlane := lane_done hfresh hlanes hlen hidle hzero ht hd
    fun e he _ _ x v hx hjob hv ↦ absurd hv (hunbarred e (ht.subset he) x v hx hjob)
  intro l₁ e l₂ hl hpre hcall hval r hr hrec
  obtain ⟨hbefore, -, o, hk, hresult⟩ := h.upTo hl
  have hbefore' : StreamRuns (KeepsLane a) mem₀ e.before l₁ :=
    hbefore.mono fun _ _ _ _ hk ↦ hk.keepsLane
  have hinv := KeepsLane.inv hfresh hbefore'
  rw [hcall] at hk hresult
  obtain ⟨⟨hlive, ho⟩, hown⟩ := hk
  obtain ⟨arc, harc⟩ := hlive a rfl
  have hrun : (query.run o (trace l₁).length arc.data).val = ⟨none, .flag true⟩ ∧
      (query.run o (trace l₁).length arc.data).events = e.result.events := by
    rw [← hval, hresult]
    simp [StreamCall.run, hrxStreamQuery, run_onStream harc]
  obtain ⟨hreads, hasked⟩ := query_complete hrun.1 ho
  have hidle' := (hown rfl).2 arc rfl harc hreads
  obtain ⟨cb, m, hcontents, hpos, -, hheld⟩ := pending_of_run hfresh hbefore' r hr hrec
  rcases hheld with ⟨x, hx, hjob, hle⟩ | hheld
  swap
  · exact absurd (hheld arc harc).2 (by simp [hidle'])
  refine ⟨cb, hcontents, x, ?_, hjob, fun f hf ↦ (hpos f hf).trans_le hle⟩
  have hpre' : trace l₁ <+: t := by
    rw [trace_append] at hpre
    exact (List.prefix_append _ _).trans hpre
  have hlen' : l₁.length < 2 ^ 64 := by
    have := length_upTo hl hlen
    rw [List.length_append] at this
    omega
  refine hinv.done_of_reached hlen' harc hx hpre' (hd.accepted hidle) hlane ?_
  obtain ⟨hs, -⟩ := hinv.timepoint arc harc
  rcases hreads with htp | ⟨hok, hvalue⟩
  · rw [htp]
    exact Nat.zero_le _
  rcases hasked with htp | hasked
  · rw [htp]
    exact Nat.zero_le _
  have hft : happens o (trace l₁).length (.semaphoreQuery arc.data.semaphore.hal) ∈ t := by
    refine hpre.subset ?_
    rw [trace_append, trace_single, ← hrun.2]
    exact List.mem_append_right _ hasked
  obtain ⟨d', ⟨-, htells⟩, hle'⟩ := hd.saw hft
  have hnow := htells _ rfl hok
  exact hvalue.trans (hnow.trans (hs ▸ hle' _))

def isSemaphoreQuery : Call → Bool
  | .semaphoreQuery _ => true
  | _ => false

theorem tells_of_unasked {es : Trace}
    (h : ∀ e ∈ es, isSemaphoreWait e.call = false ∧ isSemaphoreQuery e.call = false) :
    ∀ e ∈ es, ∀ d, Tells e d := by
  intro e he d
  obtain ⟨hwait, hquery⟩ := h e he
  refine ⟨answers_of_unasked hwait, fun s hcall ↦ ?_⟩
  rw [hcall] at hquery
  cases hquery

def answersOne : Outside := fun _ _ ↦ { value := 1 }

def settledProgram : List (StreamCall × Outside) :=
  [(.executionBarrier (some 1), allSucceed), (.synchronize (some 1), allSucceed),
    (.query (some 1) true, answersOne)]

theorem query_told_settled :
    ∃ d, d.value 0 = 1 ∧ QueryTold 1 (play StreamCall.run oneStream [] settledProgram).2
      (trace (play StreamCall.run oneStream [] settledProgram).2) d := by
  have hrun : StreamRuns (Queried 1) oneStream _ _ := Runs.play .start settledProgram (by
    refine ⟨⟨⟨?_, allSucceed_roomy⟩, fun _ ↦ ⟨rfl, fun _ h ↦ by cases h⟩⟩,
      ⟨⟨?_, allSucceed_roomy⟩, fun _ ↦ ⟨rfl, fun _ h ↦ by cases h⟩⟩,
      ⟨⟨?_, fun _ ↦ rfl⟩, fun _ ↦ ⟨rfl, ?_⟩⟩, trivial⟩
    all_goals
      intro a h
      cases h
    · exact ⟨_, rfl⟩
    · exact ⟨_, rfl⟩
    · exact ⟨_, rfl⟩
    · rintro ⟨⟩ -
      rfl)
  let x : Submission Obj Work := ⟨[], [⟨0, 1⟩], 4, .execute (some 0)⟩
  let t := trace (play StreamCall.run oneStream [] settledProgram).2
  have h₁ : Interleaves submission Tells (· ≠ 0) newDevice _ _ :=
    ((Interleaves.boot.calls (t.take 6) fun e he _ ↦ tells_of_unasked (by decide) e he _).start x
      (by decide)
      (by simp [x])).finish x (by simp [Device.start]) (by simp [Device.start, newDevice])
  have h₂ := h₁.event (happens allSucceed 6 (.semaphoreWait ⟨0, 1⟩ .infinite))
    ⟨(seen_wait (s := 0) rfl (by decide)).1, fun _ h ↦ by cases h⟩
  have h₃ := h₂.event (happens answersOne 7 (.semaphoreQuery 0)) (by
    refine ⟨answers_of_unasked rfl, ?_⟩
    rintro _ ⟨⟩ _
    decide)
  exact ⟨_, by decide, query_told oneStream_fresh hrun (by decide) newDevice_idle rfl
    (List.prefix_refl _) h₃⟩

def unflushedProgram : List (StreamCall × Outside) :=
  [(.executionBarrier (some 1), allSucceed), (.query (some 1) true, allSucceed)]

/-- The first recorded command of a stream is reported complete while it waits for its flush. -/
theorem query_ahead_of_flush :
    ¬ ∀ mem₀ mem a s l t d₀ d, FreshStream mem₀ a s →
      StreamRuns (fun n mem k o ↦ Usual n mem k o ∧ (k.stream = some a → k.plain = true))
        mem₀ mem l →
      l.length < 2 ^ 64 → d₀.Idle → d₀.value s = 0 → t <+: trace l →
      Interleaves submission Tells (· ≠ s) d₀ t d → QueryTold a l t d := by
  intro h
  have hrun :
      StreamRuns (fun n mem k o ↦ Usual n mem k o ∧ (k.stream = some 1 → k.plain = true))
      oneStream _ _ :=
    Runs.play .start unflushedProgram (by
      refine ⟨⟨⟨?_, allSucceed_roomy⟩, fun _ ↦ rfl⟩, ⟨⟨?_, allSucceed_roomy⟩, fun _ ↦ rfl⟩, trivial⟩
      all_goals
        intro a h
        cases h
        exact ⟨_, rfl⟩)
  let t := trace (play StreamCall.run oneStream [] unflushedProgram).2
  have hd : Interleaves submission Tells (· ≠ 0) newDevice t _ :=
    Interleaves.boot.calls t fun e he _ ↦ tells_of_unasked (by decide) e he _
  have htold :=
    h oneStream _ 1 0 _ t newDevice _ oneStream_fresh hrun (by decide) newDevice_idle rfl
    (List.prefix_refl _) hd
  let first := (play StreamCall.run oneStream [] (unflushedProgram.take 1)).2
  obtain ⟨cb, -, x, hx, -⟩ :=
    htold first _ [] rfl (List.prefix_refl _) rfl rfl _ (List.mem_singleton_self _)
    ⟨rfl, rfl, rfl⟩
  exact hx

end HrxSystem.Libhrx
