import HrxSystem.Libhrx.Batching

namespace HrxSystem.Libhrx

open External Program Counting HrxStreamS

variable {n : ℕ} {t es fs : Trace} {st st' : HrxStreamS} {o : Outside} {mem mem₀ : Memory}
variable {a : ℕ} {arc : Arc HrxStreamS} {k : StreamCall} {l : StreamLog}

def InLine (st : HrxStreamS) (es : Trace) : Prop :=
  ∀ e ∈ es, ∀ d f w g cb, e.call = .queueExecute d f w g cb → w = st.waitList ∧ g = st.signalList

theorem inLine_of_noExecute (h : ∀ e ∈ es, isQueueExecute e.call = false) : InLine st es := by
  intro e he d f w g cb hc
  have hfalse := h e he
  simp [hc, isQueueExecute] at hfalse

theorem inLine_of_quiet (h : ∀ e ∈ es, quiet e.call = true) : InLine st es :=
  inLine_of_noExecute fun e he ↦ noExecute_of_quiet _ (h e he)

theorem InLine.append (h : InLine st es) (h' : InLine st fs) : InLine st (es ++ fs) := by
  intro e he
  exact (List.mem_append.mp he).elim (h e) (h' e)

theorem Small.inLine (h : Small n st es st') : InLine st es := by
  cases h with
  | aside hq => exact inLine_of_quiet (by simpa using hq)
  | rejected _ _ _ _ | executed _ _ _ _ =>
    simp [InLine]
    rintro _ _ _ _ _ - - rfl rfl -
    exact ⟨rfl, rfl⟩
  | _ => exact inLine_of_noExecute (by simp [isQueueExecute])

/-- A program that executes a command buffer only on the timeline it starts with. -/
def Leads {α : Type} (m : Hrx HrxStreamS α) : Prop :=
  ∀ o n st, Roomy o → InLine st (m.run o n st).events

section Leads

variable {α β : Type} {m m' : Hrx HrxStreamS α} {f : α → Hrx HrxStreamS β}

theorem Leads.of_noExecute (hm : NoExecute m) : Leads m := fun o n st _ ↦
  inLine_of_noExecute (hm o n st).2

theorem Leads.bind (hm : Leads m) (hf : ∀ a, NoExecute (f a)) : Leads (m >>= f) := fun o n st ho ↦
  (hm o n st ho).append (inLine_of_noExecute (hf _ o _ _).2)

theorem Leads.after (hm : Aside (fun c ↦ quiet c = true) m) (hf : ∀ a, Leads (f a)) :
    Leads (m >>= f) := by
  intro o n st ho
  obtain ⟨hs, he⟩ := hm o n st
  rw [run_bind, Outcome.after_events, show (m.run o n st).state = st from hs]
  exact (inLine_of_quiet he).append (hf _ o _ st ho)

theorem Leads.ite {c : Prop} [Decidable c] (hm : Leads m) (hm' : Leads m') :
    Leads (if c then m else m') := by
  split
  · exact hm
  · exact hm'

end Leads

theorem flushInner_leads : Leads flushInner := by
  intro o n st ho
  obtain ⟨es, fs, hes, hq, ⟨rfl, -⟩ | hsmall, -⟩ := flushInner_small ho n st
  · rw [hes]
    exact inLine_of_quiet hq
  · rw [hes]
    exact hsmall.inLine.append (inLine_of_quiet hq)

theorem beginCb_noExecute : NoExecute beginCb := by
  have hstatus : ∀ s, NoExecute (hrxStatusFromIree s : Hrx HrxStreamS HrxStatus) := fun s ↦
    (hrxStatusFromIree_aside s).calls noExecute_of_quiet
  refine .bind .state fun _ ↦ .ite (.pure _) (.bind (.call rfl) fun _ ↦ .ite (hstatus _) ?_)
  refine .bind (.call rfl) fun _ ↦ .ite ?_ (.bind (.update fun _ ↦ rfl) fun _ ↦ .pure _)
  exact .bind (.call rfl) fun _ ↦ .bind (.update fun _ ↦ rfl) fun _ ↦ hstatus _

theorem recordCommand_noExecute (c : Option Command) : NoExecute (recordCommand c) := by
  have hstatus : ∀ s, NoExecute (hrxStatusFromIree s : Hrx HrxStreamS HrxStatus) := fun s ↦
    (hrxStatusFromIree_aside s).calls noExecute_of_quiet
  cases c with
  | none => exact (hrxError_aside _ _).calls noExecute_of_quiet
  | some c =>
    refine .bind .state fun _ ↦ .bind (.call rfl) fun _ ↦ .ite (hstatus _) ?_
    refine .bind (.bind .state fun _ ↦ .call rfl) fun _ ↦ .ite (hstatus _) ?_
    exact .bind (.update fun _ ↦ rfl) fun _ ↦ .pure _

theorem recordBarrier_noExecute : NoExecute recordBarrier :=
  .bind .state fun _ ↦ .bind (.call rfl) fun _ ↦
    .ite ((hrxStatusFromIree_aside _).calls noExecute_of_quiet)
      (.bind (.update fun _ ↦ rfl) fun _ ↦ .pure _)

theorem StreamOp.run_leads (shared : SharedState) (op : StreamOp) : Leads (op.run shared) := by
  cases op with
  | record c =>
    refine .of_noExecute (.bind (beginCb_noExecute.bind fun _ ↦ .ite (.pure _) ?_) fun _ ↦ .pure _)
    exact recordCommand_noExecute c
  | executionBarrier =>
    refine .of_noExecute (.bind (beginCb_noExecute.bind fun _ ↦ .ite (.pure _) ?_) fun _ ↦ .pure _)
    exact recordBarrier_noExecute
  | flush => exact flushInner_leads.bind fun _ ↦ .pure _
  | synchronize =>
    refine Leads.bind (flushInner_leads.bind fun _ ↦ .ite (.pure _) ?_) fun _ ↦ .pure _
    exact wait_aside.calls noExecute_of_quiet
  | wait => exact .of_noExecute ((wait_aside.bind fun _ ↦ .pure _).calls noExecute_of_quiet)
  | query => exact .of_noExecute (query_aside.calls noExecute_of_quiet)
  | getSemaphore | getDevice | getTimelinePosition =>
    exact .of_noExecute (.bind .state fun _ ↦ .pure _)
  | advanceTimeline =>
    exact .of_noExecute (.bind (.update fun _ ↦ rfl) fun _ ↦ .bind .state fun _ ↦ .pure _)
  | waitOn sem value =>
    refine Leads.bind (flushInner_leads.bind fun _ ↦ .ite (.pure _) ?_) fun _ ↦ .pure _
    exact queueBarrier_calls noExecute_of_quiet (fun _ _ _ _ ↦ rfl) sem value
  | bufferAllocate size memType usage =>
    refine Leads.bind (.after .state fun _ ↦ .after (.call rfl) fun _ ↦ .ite ?_ ?_) fun _ ↦ .pure _
    · exact .of_noExecute (((hrxError_aside _ _).calls noExecute_of_quiet).bind fun _ ↦ .pure _)
    · refine flushInner_leads.bind fun _ ↦ .ite (.pure _) ?_
      exact queueAlloca_calls noExecute_of_quiet (fun _ _ _ _ _ _ ↦ rfl) shared _ size

theorem release_inLine (ho : Roomy o) (ha : mem.streams.cell a = some arc) :
    InLine arc.data ((StreamCall.release a).run.run o n mem).events := by
  obtain ⟨strong, st⟩ := arc
  by_cases hs : strong ≤ 1
  · have hlast : LastRelease mem (.release a) := ⟨a, _, rfl, ha, hs⟩
    obtain ⟨hlives, -⟩ := release_lives (n := n) ho ha
    rw [hlast.gone rfl] at hlives
    generalize ((StreamCall.release a).run.run o n mem).events = es at hlives
    cases hlives with
    | @dropped strong st st' o es fs tail _ h _ _ hfs htail =>
      have hes : InLine st es := by
        obtain ⟨rfl, -⟩ | hsmall := h
        · exact inLine_of_noExecute (by simp)
        · exact hsmall.inLine
      have hleft : InLine st (leftover o (n + (es ++ fs).length) st') := by
        unfold leftover
        split
        · exact inLine_of_noExecute (by simp)
        · exact inLine_of_noExecute (by simp [isQueueExecute])
      exact ((hes.append (inLine_of_quiet hfs)).append hleft).append (inLine_of_quiet htail)
  · rw [run_release_shared hs ha]
    exact inLine_of_noExecute (by simp)

theorem release_commands (ha : mem.streams.cell a = some arc) :
    commandsIn ((StreamCall.release a).run.run o n mem).events = [] := by
  obtain ⟨strong, st⟩ := arc
  by_cases hs : strong ≤ 1
  · have hdrop : NoRecord HrxStreamS.drop := by
      have hawait : NoRecord awaitTimeline := awaitTimeline_aside.calls noRecord_of_quiet
      refine .bind (.bind .state fun _ ↦ .ite (flushInner_noRecord.bind fun _ ↦ hawait) hawait)
        fun _ ↦
        .bind .state fun st ↦ ?_
      split
      · exact .pure _
      · exact .bind (.call rfl) fun _ ↦ .pure _
    have htail : NoRecord (teardown st) :=
      (teardown_confined (f := fun _ ↦ ()) (fun _ _ ↦ rfl) (fun _ _ ↦ rfl) st).calls
        noRecord_of_quiet
    rw [run_release_last hs ha, Outcome.after_events, commandsIn_append,
      commandsIn_of_noRecord (hdrop o n st).2, commandsIn_of_noRecord (htail o _ _).2]
    rfl
  · rw [run_release_shared hs ha]
    rfl

theorem StreamCall.run_batches (ho : Succeeds o) (hk : k.stream = some a)
    (ha : mem.streams.cell a = some arc) :
    InLine arc.data (k.run.run o n mem).events ∧
      commandsIn (k.run.run o n mem).events =
        if (k.run.run o n mem).val.status = none then k.commands else [] := by
  by_cases hretain : ∃ b, k = .retain b
  · obtain ⟨b, rfl⟩ := hretain
    have hr : ((StreamCall.retain b).run.run o n mem).events = [] := rfl
    rw [hr]
    exact ⟨inLine_of_noExecute (by simp), by simp [commands, resolve]⟩
  by_cases hrelease : ∃ b, k = .release b
  · obtain ⟨b, rfl⟩ := hrelease
    obtain rfl : b = a := by simpa [StreamCall.stream] using hk
    exact ⟨release_inLine ho.roomy ha, by simp [release_commands ha, commands, resolve]⟩
  rw [not_exists] at hretain hrelease
  cases hres : k.resolve with
  | none =>
    obtain ⟨s, hr⟩ := StreamCall.run_unresolved n mem ho.roomy hres hretain hrelease
    rw [hr]
    exact ⟨inLine_of_quiet (by simp [payload, quiet]), by simp [commandsIn, recordOf, payload]⟩
  | some p =>
    obtain ⟨b, op⟩ := p
    obtain rfl : b = a := by simpa [stream_of_resolve hres] using hk
    obtain ⟨hstatus, -, -, tail, hevents, htail⟩ := run_resolved (o := o) (n := n) hres ha
    rw [hevents, hstatus]
    refine ⟨(StreamOp.run_leads _ op o n arc.data ho.roomy).append (inLine_of_quiet htail), ?_⟩
    rw [commandsIn_append, commandsIn_of_quiet htail, List.append_nil, StreamOp.run_commands ho,
      commands, hres]

/-- The command buffers accepted in the calls on stream `a`, each as what it contained. -/
def batchesOn (a : ℕ) (seen : Trace) : StreamLog → List (List Command)
  | [] => []
  | e :: l => (if e.call.stream = some a then batches seen e.result.events else []) ++
      batchesOn a (seen ++ e.result.events) l

def accepted (a : ℕ) (l : StreamLog) : List Command :=
  l.flatMap fun e ↦ if e.call.stream = some a ∧
    e.result.val.status = none then e.call.commands else []

theorem batchesOn_append (a : ℕ) (seen : Trace) (l l' : StreamLog) :
    batchesOn a seen (l ++ l') = batchesOn a seen l ++ batchesOn a (seen ++ trace l) l' := by
  induction l generalizing seen with
  | nil => simp [batchesOn]
  | cons e l ih => simp [batchesOn, ih, trace]

theorem accepted_append (a : ℕ) (l l' : StreamLog) :
    accepted a (l ++ l') = accepted a l ++ accepted a l' := List.flatMap_append

def Succeeding (_ : ℕ) (mem : Memory) (k : StreamCall) (o : Outside) : Prop :=
  Live mem k ∧ Succeeds o

/-- Batching on stream `a`, while it lives and once it is gone. -/
structure BatchedOn (a : ℕ) (mem : Memory) (l : StreamLog) : Prop where
  kept : Kept AnyUse AnyUse (trace l).length (trace l) mem.streams.cell
  live : ∀ arc, mem.streams.cell a = some arc → Batched (trace l) arc.data (batchesOn a [] l)
    (accepted a l)
  gone : mem.streams.cell a = none →
    (batchesOn a [] l).flatten = accepted a l ∧ [] ∉ batchesOn a [] l

theorem BatchedOn.call (h : BatchedOn a mem l) (hk : Succeeding (trace l).length mem k o) :
    BatchedOn a (k.run.run o (trace l).length mem).state
      (l ++ [⟨mem, k, k.run.run o (trace l).length mem⟩]) := by
  obtain ⟨hlive, ho⟩ := hk
  have hkept := StreamCall.kept anyUse_custody h.kept ⟨hlive, ho.roomy⟩ (.inl trivial)
  have hok : ∀ e ∈ (k.run.run o (trace l).length mem).events, ok e = true := by
    intro e he
    rw [ok, k.run.answered o _ _ e he, ho, Option.isNone_none]
  have hbatches : batchesOn a [] (l ++ [⟨mem, k, k.run.run o (trace l).length mem⟩]) =
      batchesOn a [] l ++ if k.stream = some a then
        batches (trace l) (k.run.run o (trace l).length mem).events else [] := by
    simp [batchesOn_append, batchesOn]
  have haccepted : accepted a (l ++ [⟨mem, k, k.run.run o (trace l).length mem⟩]) =
      accepted a l ++ if k.stream = some a ∧
      (k.run.run o (trace l).length mem).val.status = none then
        k.commands else [] := by
    rw [accepted_append]
    simp [accepted]
  have htrace : trace (l ++ [⟨mem, k, k.run.run o (trace l).length mem⟩]) =
      trace l ++ (k.run.run o (trace l).length mem).events := by simp
  rw [← List.length_append, ← htrace] at hkept
  by_cases hon : k.stream = some a
  · obtain ⟨arc, harc⟩ := hlive a hon
    obtain ⟨-, hcommands⟩ := StreamCall.run_batches (n := (trace l).length) ho hon harc
    obtain ⟨hlives, -⟩ := StreamCall.run_lives (n := (trace l).length) ho.roomy hon harc
    obtain ⟨hstill, hgone⟩ := hlives.batched hok (h.kept.ward harc) (h.live arc harc)
    simp only [hon, if_true, true_and] at hbatches haccepted
    rw [← hcommands] at haccepted
    rw [← hbatches, ← haccepted] at hstill hgone
    rw [← htrace] at hstill
    exact ⟨hkept, hstill, hgone⟩
  · simp only [hon, if_false, false_and, List.append_nil] at hbatches haccepted
    have hcell := StreamCall.run_cell_of_ne (n := (trace l).length) ho.roomy hlive hon
    refine ⟨hkept, ?_, ?_⟩
    · intro arc harc
      rw [hcell] at harc
      have hsame := StreamCall.run_elsewhere ho.roomy h.kept hlive hon harc
      obtain ⟨hall, hnonempty, hwork⟩ := h.live arc harc
      rw [htrace, hbatches, haccepted]
      exact ⟨by rw [hsame, hall], hnonempty, by rw [hsame, hwork]⟩
    · intro hnone
      rw [hcell] at hnone
      rw [hbatches, haccepted]
      exact h.gone hnone

theorem AllFresh.batchedOn (h : AllFresh mem) (a : ℕ) : BatchedOn a mem [] := by
  refine ⟨h.kept anyUse_custody, ?_, fun _ ↦ ⟨rfl, by simp [batchesOn]⟩⟩
  intro arc harc
  obtain ⟨hcb, hwork⟩ := h a arc harc
  have hnone : unsubmitted [] arc.data = [] := by simp [unsubmitted, hcb]
  exact ⟨by rw [trace_nil, hnone]; rfl, by simp [batchesOn], by rw [trace_nil, hnone, hwork]; simp⟩

/-- Lazy batching on a stream that is gone again: every command of a recording call
that returned OK is in one accepted command buffer, in call order. -/
structure LazilyBatched (a : ℕ) (l : StreamLog) : Prop where
  all : (batchesOn a [] l).flatten = accepted a l
  nonempty : [] ∉ batchesOn a [] l
  inLine : ∀ e ∈ l, e.call.stream = some a →
    ∃ arc, e.before.streams.cell a = some arc ∧ InLine arc.data e.result.events

theorem lazily_batched (hfresh : AllFresh mem₀) (h : StreamRuns Succeeding mem₀ mem l)
    (hgone : mem.streams.cell a = none) : LazilyBatched a l := by
  have hinv : BatchedOn a mem l ∧ ∀ e ∈ l, e.call.stream = some a →
      ∃ arc, e.before.streams.cell a = some arc ∧ InLine arc.data e.result.events := by
    refine Runs.keeps (I := fun mem l ↦ BatchedOn a mem l ∧ ∀ e ∈ l, e.call.stream = some a →
      ∃ arc, e.before.streams.cell a = some arc ∧ InLine arc.data e.result.events) ?_ ?_ h
    · exact ⟨hfresh.batchedOn a, by simp⟩
    · rintro mem l k o ⟨hbatched, hlines⟩ hk
      refine ⟨hbatched.call hk, ?_⟩
      intro e he hon
      obtain he | he := List.mem_append.mp he
      · exact hlines e he hon
      · rw [List.mem_singleton.mp he] at hon ⊢
        obtain ⟨arc, harc⟩ := hk.1 a hon
        exact ⟨arc, harc, (StreamCall.run_batches hk.2 hon harc).1⟩
  obtain ⟨hbatched, hlines⟩ := hinv
  obtain ⟨hall, hnonempty⟩ := hbatched.gone hgone
  exact ⟨hall, hnonempty, hlines⟩

def batchedProgram : List (StreamCall × Outside) :=
  [(.fillBuffer (some 1) (some ⟨1, 7⟩) 0 16 (some 0) 4, allSucceed), (.flush (some 1), allSucceed),
    (.fillBuffer (some 1) none 0 16 (some 0) 4, allSucceed),
    (.executionBarrier (some 1), allSucceed), (.release 1, allSucceed)]

theorem allSucceed_succeeds : Succeeds allSucceed := fun _ _ ↦ rfl

theorem lazily_batched_program :
    LazilyBatched 1 (play StreamCall.run oneStream [] batchedProgram).2 := by
  refine lazily_batched oneStream_allFresh (Runs.play .start _ ?_) rfl
  refine ⟨⟨?_, allSucceed_succeeds⟩, ⟨?_, allSucceed_succeeds⟩, ⟨?_, allSucceed_succeeds⟩,
    ⟨?_, allSucceed_succeeds⟩, ⟨?_, allSucceed_succeeds⟩, trivial⟩
  all_goals
    intro a h
    cases h
    exact ⟨_, rfl⟩

end HrxSystem.Libhrx
