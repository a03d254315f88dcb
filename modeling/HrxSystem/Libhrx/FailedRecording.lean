import HrxSystem.Libhrx.TwinRuns

namespace HrxSystem.Libhrx

open External Program Counting HrxStreamS

variable {loose : Prop} {o : Outside} {n : ℕ} {t : Trace} {st : HrxStreamS} {mem mem' mem₀ : Memory}
variable {a strong : ℕ} {k : StreamCall} {l : StreamLog}

def StreamCall.recording : StreamCall → Bool
  | .fillBuffer .. | .copyBuffer .. | .updateBuffer .. | .executionBarrier _ | .dispatch .. => true
  | _ => false

/-- The place after `begin_cb` and the command buffer it leaves, if it succeeds. -/
def opensAt (o : Outside) (n : ℕ) (st : HrxStreamS) : Option (ℕ × Obj) :=
  match st.pendingCb with
  | some cb => some (n, cb)
  | none =>
    if ok (happens o n (createCall st)) &&
        ok (happens o (n + 1) (.commandBufferBegin (some n))) then
      some (n + 2, n)
    else none

/-- IREE takes command `c` and refuses the ordering barrier after it. -/
def HalfRecorded (o : Outside) (n : ℕ) (st : HrxStreamS) (c : Option Command) : Prop :=
  ∃ c' p cb, c = some c' ∧ opensAt o n st = some (p, cb) ∧
    ok (happens o p (.commandBufferRecord (some cb) c')) = true ∧
    ok (happens o (p + 1) (.commandBufferRecord (some cb) .executionBarrier)) = false

def StreamOp.transfer : StreamOp → Option Command
  | .record c => c
  | _ => none

/-- The ways a recording op can fail, with what it leaves of the stream and adds to the tally. -/
inductive FailedOp (o : Outside) (n : ℕ) (st : HrxStreamS) (c : Option Command) :
    HrxStreamS → Trace → Prop
  | unopened {es : Trace} (hopen : opensAt o n st = none) (hes : ∀ q, tally q es = q) :
    FailedOp o n st c st es
  | unrecorded {p : ℕ} {cb : Obj} {es : Trace} (hopen : opensAt o n st = some (p, cb))
      (hhalf : ¬ HalfRecorded o n st c) (hes : ∀ q, tally q es = q) :
      FailedOp o n st c (renamed st (some cb)) es
  | half {c' : Command} {p : ℕ} {cb : Obj} {es : Trace} (hc : c = some c')
      (hopen : opensAt o n st = some (p, cb))
      (hhalf : HalfRecorded o n st c) (hes : ∀ q, tally q es = (q.1, q.2 ++ [c'])) :
      FailedOp o n st c (renamed st (some cb)) es

theorem beginCb_opensAt (ho : Roomy o) (n : ℕ) (st : HrxStreamS) :
    (opensAt o n st = none ∧ ∃ s es, beginCb.run o n st = ⟨some s, st, es⟩ ∧ ∀ q, tally q es = q) ∨
      ∃ cb es, opensAt o n st = some (n + es.length, cb) ∧ (∀ q, tally q es = q) ∧
        beginCb.run o n st = ⟨none, renamed st (some cb), es⟩ := by
  unfold opensAt
  cases hcb : st.pendingCb with
  | some cb =>
    have hsame : renamed st (some cb) = st := by rw [← hcb]; rfl
    exact .inr ⟨cb, [], rfl, fun _ ↦ rfl, by rw [beginCb_installed hcb, hsame]⟩
  | none =>
    cases hx : ok (happens o n (createCall st)) with
    | false =>
      refine .inl ⟨by simp, _, _, beginCb_notCreated ho hcb hx, fun q ↦ ?_⟩
      simp [tally, tallyStep, createCall, payload]
    | true =>
      cases hy : ok (happens o (n + 1) (.commandBufferBegin (some n))) with
      | false =>
        refine .inl ⟨by simp, _, _, beginCb_notBegun ho hcb hx hy, fun q ↦ ?_⟩
        simp [tally, tallyStep, createCall, payload]
      | true =>
        refine .inr ⟨n, _, by simp, fun q ↦ ?_, beginCb_opened hcb hx hy⟩
        simp [tally, tallyStep, createCall]

theorem record_failed (ho : Roomy o) {c : Option Command} (h : ((record c).run o n st).val ≠ none) :
    FailedOp o n st c ((record c).run o n st).state ((record c).run o n st).events := by
  rw [record_eq] at h ⊢
  obtain ⟨hopen, s, es, hr, hes⟩ | ⟨cb, es, hopen, hes, hr⟩ := beginCb_opensAt ho n st
  · rw [orReturn_failed hr]
    exact .unopened hopen hes
  · rw [orReturn_ok hr] at h ⊢
    have hcb : (renamed st (some cb)).pendingCb = some cb := rfl
    have hnothalf : ∀ {c'}, c = some c' →
        ok (happens o (n + es.length) (.commandBufferRecord (some cb) c')) = false →
        ¬ HalfRecorded o n st c := by
      rintro c' rfl hx ⟨c'', p, cb', hc, hopen', hx', -⟩
      cases hc
      rw [hopen] at hopen'
      cases hopen'
      rw [hx] at hx'
      cases hx'
    cases c with
    | none =>
      rw [recordCommand_null ho]
      refine .unrecorded hopen (fun ⟨_, _, _, hc, _⟩ ↦ by cases hc) fun q ↦ ?_
      rw [Outcome.after_mk, tally_append, hes]
      simp [tally, tallyStep, payload]
    | some c =>
      cases hx : ok (happens o (n + es.length) (.commandBufferRecord (some cb) c)) with
      | false =>
        rw [recordCommand_notRecorded ho hcb hx]
        refine .unrecorded hopen (hnothalf rfl hx) fun q ↦ ?_
        rw [Outcome.after_mk, tally_append, hes]
        simp [tally, tallyStep, payload, hx]
      | true =>
        cases hy : ok
          (happens o (n + es.length + 1) (.commandBufferRecord (some cb) .executionBarrier)) with
        | false =>
          rw [recordCommand_half ho hcb hx hy]
          refine .half rfl hopen ⟨c, _, cb, rfl, hopen, hx, hy⟩ fun q ↦ ?_
          rw [Outcome.after_mk, tally_append, hes]
          simp [tally, tallyStep, payload, hx, hy]
        | true =>
          rw [recordCommand_recorded hcb hx hy] at h
          exact absurd rfl h

theorem executionBarrier_failed (ho : Roomy o) (h : (executionBarrier.run o n st).val ≠ none) :
    FailedOp o n st none (executionBarrier.run o n st).state
      (executionBarrier.run o n st).events := by
  rw [executionBarrier_eq] at h ⊢
  obtain ⟨hopen, s, es, hr, hes⟩ | ⟨cb, es, hopen, hes, hr⟩ := beginCb_opensAt ho n st
  · rw [orReturn_failed hr]
    exact .unopened hopen hes
  · rw [orReturn_ok hr] at h ⊢
    have hcb : (renamed st (some cb)).pendingCb = some cb := rfl
    cases hx :
        ok (happens o (n + es.length) (.commandBufferRecord (some cb) .executionBarrier)) with
    | false =>
      rw [recordBarrier_notRecorded ho hcb hx]
      refine .unrecorded hopen (fun ⟨_, _, _, hc, _⟩ ↦ by cases hc) fun q ↦ ?_
      rw [Outcome.after_mk, tally_append, hes]
      simp [tally, tallyStep, payload, hx]
    | true =>
      rw [recordBarrier_recorded hcb hx] at h
      exact absurd rfl h

theorem StreamCall.resolve_recording {op : StreamOp} (hk : k.recording = true)
    (hres : k.resolve = some (a, op)) : (∃ c, op = .record c) ∨ op = .executionBarrier := by
  unfold StreamCall.resolve at hres
  split at hres
  case h_5 st x =>
    split at hres
    · split at hres
      · cases hres
      · cases hres
        exact .inl ⟨_, rfl⟩
    · cases hres
  case h_16 => cases hres
  all_goals first
    | cases hres; first | exact .inl ⟨_, rfl⟩ | exact .inr rfl | cases hk
    | cases hk

theorem StreamOp.run_failed {op : StreamOp} (ho : Roomy o) (shared : SharedState)
    (hop : (∃ c, op = .record c) ∨ op = .executionBarrier)
    (h : ((op.run shared).run o n st).val.status ≠ none) :
    FailedOp o n st op.transfer ((op.run shared).run o n st).state
      ((op.run shared).run o n st).events := by
  obtain ⟨c, rfl⟩ | rfl := hop
  · simp only [StreamOp.run, returning, run_bind, run_pure, Outcome.after_val, Outcome.after_events,
      Outcome.after_state, List.append_nil] at h ⊢
    exact record_failed ho h
  · simp only [StreamOp.run, returning, run_bind, run_pure, Outcome.after_val, Outcome.after_events,
      Outcome.after_state, List.append_nil] at h ⊢
    exact executionBarrier_failed ho h

theorem StreamCall.run_tally {op : StreamOp} (ho : Roomy o)
    (hkept : Kept AnyUse AnyUse t.length t mem.streams.cell) (hres : k.resolve = some (a, op))
    (ha : mem.streams.cell a = some ⟨strong, st⟩) :
    batches t (k.run.run o t.length mem).events =
        (tally ([], unsubmitted t st) ((op.run mem.globals.shared).run o t.length st).events).1 ∧
      unsubmitted (t ++ (k.run.run o t.length mem).events)
          ((op.run mem.globals.shared).run o t.length st).state =
        (tally ([], unsubmitted t st)
          ((op.run mem.globals.shared).run o t.length st).events).2 := by
  obtain ⟨hlives, -⟩ := StreamCall.run_lives (n := t.length) ho (stream_of_resolve hres) ha
  obtain ⟨hbatches, hpending⟩ := hlives.tally [] (hkept.ward ha)
  obtain ⟨-, hcells, -, tail, hevents, htail⟩ := run_resolved (o := o) (n := t.length) hres ha
  have hcell : (k.run.run o t.length mem).state.streams.cell a =
      some ⟨strong, ((op.run mem.globals.shared).run o t.length st).state⟩ := by
    rw [hcells, Function.update_self]
  have htally : tally ([], unsubmitted t st) (k.run.run o t.length mem).events =
      tally ([], unsubmitted t st) ((op.run mem.globals.shared).run o t.length st).events := by
    rw [hevents, tally_append, tally_of_quiet htail]
  have hpend := hpending _ hcell
  simp only [htally, List.nil_append] at hbatches hpend
  exact ⟨hbatches.symm, hpend.symm⟩

def later (mem : Memory) (t : Trace) : List (StreamCall × Behaviour) → List (List Command)
  | [] => []
  | (k, b) :: ks =>
    batches t (k.run.run (behave b) t.length mem).events ++
      later (k.run.run (behave b) t.length mem).state
        (t ++ (k.run.run (behave b) t.length mem).events) ks

/-- A continuation that callers may make. If `loose`, command buffers can be opened in it. -/
def Continues (loose : Prop) (mem : Memory) (t : Trace) : List (StreamCall × Behaviour) → Prop
  | [] => True
  | (k, b) :: ks =>
    Live mem k ∧ Fair loose b ∧ Continues loose (k.run.run (behave b) t.length mem).state
      (t ++ (k.run.run (behave b) t.length mem).events) ks

theorem TwinRuns.later {t' : Trace} {ks : List (StreamCall × Behaviour)}
    (h : TwinRuns loose mem t mem' t') (hks : Continues loose mem t ks) :
    later mem' t' ks = later mem t ks := by
  induction ks generalizing mem mem' t t' with
  | nil => rfl
  | cons x ks ih =>
    obtain ⟨k, b⟩ := x
    obtain ⟨hlive, hfair, hks⟩ := hks
    obtain ⟨hbatches, hnext⟩ := h.call ⟨b, rfl, hfair⟩ hlive
    rw [Libhrx.later, Libhrx.later, hbatches, ih hnext hks]

/-- No two transfers or dispatches of a command buffer are left without a barrier between them. -/
def Separated (cs : List Command) : Prop :=
  cs.IsChain fun c d ↦ c = .executionBarrier ∨ d = .executionBarrier

/-- Continuation `ks` submits the same after a call, which left `mem'` and `t'`, as without it. -/
structure NoEffect (mem : Memory) (t : Trace) (mem' : Memory) (t' : Trace)
    (ks : List (StreamCall × Behaviour)) : Prop where
  same : (later mem' t' ks).flatten = (later mem t ks).flatten
  separated : (∀ b ∈ later mem t ks, Separated b) → ∀ b ∈ later mem' t' ks, Separated b

theorem TwinRuns.noEffect {t' : Trace} {ks : List (StreamCall × Behaviour)}
    (h : TwinRuns loose mem' t' mem t) (hks : Continues loose mem' t' ks) :
    NoEffect mem t mem' t' ks := by
  have hsame := h.later hks
  exact ⟨by rw [hsame], by rw [hsame]; exact id⟩

theorem twinRuns_of_call {st₁ : HrxStreamS} (ho : Roomy o) (hlive : Live mem k)
    (hkept : Kept AnyUse AnyUse t.length t mem.streams.cell)
    (hglobals : (k.run.run o t.length mem).state.globals = mem.globals) (hk : k.stream = some a)
    (ha : mem.streams.cell a = some ⟨strong, st⟩)
    (ha₁ : (k.run.run o t.length mem).state.streams.cell a = some ⟨strong, st₁⟩)
    (hpend : unsubmitted (t ++ (k.run.run o t.length mem).events) st₁ = unsubmitted t st)
    (htwin : Twin loose ([], unsubmitted t st) [] st₁ [] st) :
    TwinRuns loose (k.run.run o t.length mem).state
      (t ++ (k.run.run o t.length mem).events) mem t := by
  have hkept' := StreamCall.kept anyUse_custody hkept ⟨hlive, ho⟩ (.inl trivial)
  rw [← List.length_append] at hkept'
  refine ⟨hglobals.symm, hkept', hkept, fun b ↦ ?_⟩
  by_cases hb : k.stream = some b
  · obtain rfl : a = b := Option.some.inj (hk.symm.trans hb)
    exact .inr ⟨strong, st₁, st, ha₁, ha, hpend.symm, by rwa [hpend]⟩
  · rw [StreamCall.run_cell_of_ne ho hlive hb]
    cases hcell : mem.streams.cell b with
    | none => exact .inl ⟨rfl, rfl⟩
    | some arc =>
      have hsame := StreamCall.run_elsewhere ho hkept hlive hb hcell
      exact .inr ⟨arc.strong, arc.data, arc.data, rfl, rfl, hsame.symm, rfl,
        ⟨arc.data.pendingCb, rfl⟩, .inl rfl⟩

def goodBehaviour : Behaviour := fun _ ↦ { value := 1 }

def noCreate : Behaviour
  | .commandBufferCreate .. => { status := some ⟨13, none⟩ }
  | _ => { value := 1 }

theorem goodBehaviour_fair (loose : Prop) : Fair loose goodBehaviour :=
  ⟨rfl, fun _ ↦ ⟨fun _ _ _ ↦ rfl, rfl⟩⟩

theorem noCreate_fair : Fair False noCreate := ⟨rfl, nofun⟩

/-- A barrier and a flush, to bring out what a stream has pending. -/
def probe (a : ℕ) (b : Behaviour) : List (StreamCall × Behaviour) :=
  [(.executionBarrier (some a), b), (.flush (some a), goodBehaviour)]

theorem live_of_cell {arc : Arc HrxStreamS} (hk : k.stream = some a)
    (ha : mem.streams.cell a = some arc) : Live mem k := by
  intro c hc
  obtain rfl : a = c := Option.some.inj (hk.symm.trans hc)
  exact ⟨arc, ha⟩

theorem StreamCall.run_cell {op : StreamOp} (hres : k.resolve = some (a, op))
    (ha : mem.streams.cell a = some ⟨strong, st⟩) :
    (k.run.run o n mem).state.streams.cell a =
      some ⟨strong, ((op.run mem.globals.shared).run o n st).state⟩ := by
  obtain ⟨-, hcells, -⟩ := run_resolved (o := o) (n := n) hres ha
  rw [hcells, Function.update_self]

theorem probe_continues {b : Behaviour} (hb : Fair loose b)
    (ha : mem.streams.cell a = some ⟨strong, st⟩) : Continues loose mem t (probe a b) :=
  ⟨live_of_cell rfl ha, hb, live_of_cell rfl (StreamCall.run_cell rfl ha),
    goodBehaviour_fair loose, trivial⟩

theorem later_probe {b : Behaviour} {p : ℕ} {cb : Obj} (hb : Fair False b)
    (hkept : Kept AnyUse AnyUse t.length t mem.streams.cell)
    (ha : mem.streams.cell a = some ⟨strong, st⟩)
    (hopen : opensAt (behave b) t.length st = some (p, cb))
    (hrec : (b (.commandBufferRecord none .executionBarrier)).status = none) :
    later mem t (probe a b) = [unsubmitted t st ++ [.executionBarrier]] := by
  have ho : Roomy (behave b) := fun n ↦ hb.1
  obtain ⟨hnone, -⟩ | ⟨cb', es, -, hes, hr⟩ := beginCb_opensAt ho t.length st
  · rw [hopen] at hnone
    cases hnone
  have hx : ok (happens (behave b) (t.length + es.length)
      (.commandBufferRecord (some cb') .executionBarrier)) = true := by
    simp [ok, happens, behave, anonymous, hrec]
  have hbarrier : executionBarrier.run (behave b) t.length st =
      ⟨none, { renamed st (some cb') with hasPendingWork := true },
        es ++ [happens (behave b) (t.length + es.length)
          (.commandBufferRecord (some cb') .executionBarrier)]⟩ := by
    rw [executionBarrier_eq, orReturn_ok hr, recordBarrier_recorded rfl hx]
    rfl
  have hrun : ((StreamOp.executionBarrier.run mem.globals.shared).run (behave b) t.length st) =
      ⟨⟨none, .nothing⟩, { renamed st (some cb') with hasPendingWork := true },
        es ++ [happens (behave b) (t.length + es.length)
          (.commandBufferRecord (some cb') .executionBarrier)]⟩ := by
    simp [StreamOp.run, returning, hbarrier]
  have hres : (StreamCall.executionBarrier (some a)).resolve = some (a, .executionBarrier) := rfl
  obtain ⟨hbatches, hpend⟩ := StreamCall.run_tally ho hkept hres ha
  have hcell := StreamCall.run_cell (o := behave b) (n := t.length) hres ha
  have hlive : Live mem (.executionBarrier (some a)) := live_of_cell rfl ha
  have hkept' := StreamCall.kept anyUse_custody hkept ⟨hlive, ho⟩ (.inl trivial)
  rw [hrun] at hbatches hpend hcell
  rw [← List.length_append] at hkept'
  simp only [tally_append, hes] at hbatches hpend
  simp only [tally, List.foldl_cons, List.foldl_nil, tallyStep, happens_call, hx, if_true]
    at hbatches hpend
  have hflush : (StreamCall.flush (some a)).resolve = some (a, .flush) := rfl
  obtain ⟨hbatches', -⟩ :=
    StreamCall.run_tally (o := behave goodBehaviour) (fun n ↦ rfl) hkept' hflush hcell
  have hexecuted : ∀ shared n q, (tally q ((StreamOp.flush.run shared).run (behave goodBehaviour) n
      { renamed st (some cb') with hasPendingWork := true }).events).1 = q.1 ++ [q.2] := by
    intro shared n q
    simp only [StreamOp.run, returning, run_bind, run_pure, Outcome.after_events, List.append_nil]
    rw [flushInner_executed (o := behave goodBehaviour) rfl rfl rfl rfl]
    rfl
  rw [probe, later, later, later, hbatches, hbatches', hpend, hexecuted]
  rfl

theorem later_probe_unopened (hkept : Kept AnyUse AnyUse t.length t mem.streams.cell)
    (ha : mem.streams.cell a = some ⟨strong, st⟩) (hcb : st.pendingCb = none) :
    later mem t (probe a noCreate) = [] := by
  have ho : Roomy (behave noCreate) := fun n ↦ rfl
  have hwork : st.hasPendingWork = false := by
    cases hw : st.hasPendingWork with
    | false => rfl
    | true => exact absurd hcb (hkept.work a _ ha hw)
  have hcreate : ok (happens (behave noCreate) t.length (createCall st)) = false := rfl
  have hbarrier := orReturn_failed (m := recordBarrier) (beginCb_notCreated ho hcb hcreate)
  rw [← executionBarrier_eq] at hbarrier
  have hrun :
      ((StreamOp.executionBarrier.run mem.globals.shared).run (behave noCreate) t.length st).state =
        st ∧
      ∀ q, tally q ((StreamOp.executionBarrier.run mem.globals.shared).run (behave noCreate)
        t.length st).events = q := by
    simp only [StreamOp.run, returning, run_bind, run_pure, Outcome.after_events,
      Outcome.after_state, List.append_nil, hbarrier]
    exact ⟨trivial, fun q ↦ by simp [tally, tallyStep, createCall, payload]⟩
  have hres : (StreamCall.executionBarrier (some a)).resolve = some (a, .executionBarrier) := rfl
  obtain ⟨hbatches, -⟩ := StreamCall.run_tally ho hkept hres ha
  have hcell := StreamCall.run_cell (o := behave noCreate) (n := t.length) hres ha
  have hlive : Live mem (.executionBarrier (some a)) := live_of_cell rfl ha
  have hkept' := StreamCall.kept anyUse_custody hkept ⟨hlive, ho⟩ (.inl trivial)
  rw [hrun.1] at hcell
  rw [← List.length_append] at hkept'
  rw [hrun.2] at hbatches
  have hflush : (StreamCall.flush (some a)).resolve = some (a, .flush) := rfl
  obtain ⟨hbatches', -⟩ :=
    StreamCall.run_tally (o := behave goodBehaviour) (fun n ↦ rfl) hkept' hflush hcell
  have hidle :
      ∀ shared n q, tally q ((StreamOp.flush.run shared).run (behave goodBehaviour) n st).events =
      q := by
    intro shared n q
    simp only [StreamOp.run, returning, run_bind, run_pure, Outcome.after_events, List.append_nil]
    rw [flushInner_idle (.inl hwork)]
    rfl
  rw [probe, later, later, later, hbatches, hbatches', hidle]
  rfl

def NewlyOpened (o : Outside) (n : ℕ) (st : HrxStreamS) : Prop :=
  st.pendingCb = none ∧ opensAt o n st ≠ none

def OnTransfer (mem : Memory) (k : StreamCall) (P : HrxStreamS → Option Command → Prop) : Prop :=
  ∃ a arc op, k.resolve = some (a, op) ∧ mem.streams.cell a = some arc ∧ P arc.data op.transfer

theorem onTransfer_iff {P : HrxStreamS → Option Command → Prop} {op : StreamOp}
    (hres : k.resolve = some (a, op)) (ha : mem.streams.cell a = some ⟨strong, st⟩) :
    OnTransfer mem k P ↔ P st op.transfer := by
  constructor
  · rintro ⟨a', arc, op', hres', ha', hP⟩
    rw [hres] at hres'
    cases hres'
    rw [ha] at ha'
    cases ha'
    exact hP
  · exact fun hP ↦ ⟨a, _, op, hres, ha, hP⟩

/-- The probe tells a run in which a command was half recorded from the one without the call. -/
theorem probe_half {st₁ : HrxStreamS} {c : Command} {cb : Obj} {t' : Trace}
    (hkept : Kept AnyUse AnyUse t.length t mem.streams.cell)
    (hkept' : Kept AnyUse AnyUse t'.length t' mem'.streams.cell)
    (ha : mem.streams.cell a = some ⟨strong, st⟩) (ha' : mem'.streams.cell a = some ⟨strong, st₁⟩)
    (hcb : st₁.pendingCb = some cb) (hpend : unsubmitted t' st₁ = unsubmitted t st ++ [c]) :
    ¬ NoEffect mem t mem' t' (probe a goodBehaviour) := by
  intro h
  have hopen : ∃ p cb, opensAt (behave goodBehaviour) t.length st = some (p, cb) := by
    unfold opensAt
    cases st.pendingCb with
    | some cb => exact ⟨_, cb, rfl⟩
    | none => exact ⟨_, t.length, rfl⟩
  have hopen' : opensAt (behave goodBehaviour) t'.length st₁ = some (t'.length, cb) := by
    simp [opensAt, hcb]
  obtain ⟨p, cb', hopen⟩ := hopen
  have hsame := h.same
  rw [later_probe (goodBehaviour_fair False) hkept ha hopen rfl,
    later_probe (goodBehaviour_fair False) hkept' ha' hopen' rfl, hpend] at hsame
  have hlength := congrArg List.length hsame
  simp at hlength

theorem probe_opened {st₁ : HrxStreamS} {cb : Obj} {t' : Trace}
    (hkept : Kept AnyUse AnyUse t.length t mem.streams.cell)
    (hkept' : Kept AnyUse AnyUse t'.length t' mem'.streams.cell)
    (ha : mem.streams.cell a = some ⟨strong, st⟩) (ha' : mem'.streams.cell a = some ⟨strong, st₁⟩)
    (hnone : st.pendingCb = none) (hcb : st₁.pendingCb = some cb) :
    ¬ NoEffect mem t mem' t' (probe a noCreate) := by
  intro h
  have hopen : opensAt (behave noCreate) t'.length st₁ = some (t'.length, cb) := by
    simp [opensAt, hcb]
  have hsame := h.same
  rw [later_probe_unopened hkept ha hnone, later_probe noCreate_fair hkept' ha' hopen rfl] at hsame
  have hlength := congrArg List.length hsame
  simp at hlength

theorem twinRuns_of_quiet {es : Trace} (hkept : Kept AnyUse AnyUse t.length t mem.streams.cell)
    (hes : ∀ e ∈ es, quiet e.call = true) : TwinRuns loose mem (t ++ es) mem t := by
  have hkept' := hkept.quiet hes (Nat.le_add_right t.length es.length)
  rw [← List.length_append] at hkept'
  refine ⟨rfl, hkept', hkept, fun b ↦ ?_⟩
  cases hcell : mem.streams.cell b with
  | none => exact .inl ⟨rfl, rfl⟩
  | some arc =>
    have hsame : unsubmitted (t ++ es) arc.data = unsubmitted t arc.data :=
      unsubmitted_of_frame fun cb _ ↦ uses_of_quiet hes cb
    exact .inr ⟨arc.strong, arc.data, arc.data, rfl, rfl, hsame.symm, rfl,
      ⟨arc.data.pendingCb, rfl⟩, .inl rfl⟩

/-- The states with and without a failed op that left its command buffer empty. -/
theorem twin_of_open {cb : Obj} (hkept : Kept AnyUse AnyUse t.length t mem.streams.cell)
    (ha : mem.streams.cell a = some ⟨strong, st⟩) (hl : loose ∨ st.pendingCb ≠ none) :
    Twin loose ([], unsubmitted t st) [] (renamed st (some cb)) [] st := by
  refine ⟨rfl, ⟨st.pendingCb, rfl⟩, ?_⟩
  cases hcb : st.pendingCb with
  | some c => exact .inl rfl
  | none =>
    refine .inr ⟨hl.resolve_right fun hne ↦ hne hcb, rfl, by simp [unsubmitted, hcb], ?_⟩
    cases hw : st.hasPendingWork with
    | false => exact hw
    | true => exact absurd hcb (hkept.work a _ ha hw)

/-- Every recording op that fails, in whatever state it was reached: nothing of it shows
later on, if it neither left its command without a barrier nor opened a command buffer. If
the outside goes on to open command buffers, a newly opened one does not show either. -/
theorem failed_recording_no_effect (hfresh : AllFresh mem₀) (h : StreamRuns Usual mem₀ mem l)
    (hk : k.recording = true) (hu : Usual (trace l).length mem k o)
    (hfail : (k.run.run o (trace l).length mem).val.status ≠ none) :
    ((∀ ks, Continues False (k.run.run o (trace l).length mem).state
          (trace l ++ (k.run.run o (trace l).length mem).events) ks →
        NoEffect mem (trace l) (k.run.run o (trace l).length mem).state
          (trace l ++ (k.run.run o (trace l).length mem).events) ks) ↔
      ¬ OnTransfer mem k (HalfRecorded o (trace l).length) ∧
        ¬ OnTransfer mem k fun st _ ↦ NewlyOpened o (trace l).length st) ∧
    ((∀ ks, Continues True (k.run.run o (trace l).length mem).state
          (trace l ++ (k.run.run o (trace l).length mem).events) ks →
        NoEffect mem (trace l) (k.run.run o (trace l).length mem).state
          (trace l ++ (k.run.run o (trace l).length mem).events) ks) ↔
      ¬ OnTransfer mem k (HalfRecorded o (trace l).length)) := by
  obtain ⟨hlive, ho⟩ := hu
  have hkept : Kept AnyUse AnyUse (trace l).length (trace l) mem.streams.cell := by
    refine Runs.keeps (I := fun mem l ↦
      Kept AnyUse AnyUse (trace l).length (trace l) mem.streams.cell) ?_ ?_ h
    · exact hfresh.kept anyUse_custody
    · intro mem l k o hinv hk
      rw [trace_append, trace_single, List.length_append]
      exact StreamCall.kept anyUse_custody hinv hk (.inl trivial)
  have hkept' := StreamCall.kept anyUse_custody hkept ⟨hlive, ho⟩ (.inl trivial)
  rw [← List.length_append] at hkept'
  generalize trace l = t at *
  cases hres : k.resolve with
  | none =>
    have hretain : ∀ a, k ≠ .retain a := by
      rintro a rfl
      cases hk
    have hrelease : ∀ a, k ≠ .release a := by
      rintro a rfl
      cases hk
    obtain ⟨err, hrun⟩ := StreamCall.run_unresolved t.length mem ho hres hretain hrelease
    have hnot : ∀ P, ¬ OnTransfer mem k P := by
      rintro P ⟨a, arc, op, hres', -⟩
      rw [hres] at hres'
      cases hres'
    have hsame : ∀ {loose}, TwinRuns loose mem (t ++ [payload o t.length]) mem t :=
      twinRuns_of_quiet hkept (by simp [payload, quiet])
    rw [hrun]
    exact ⟨⟨fun _ ↦ ⟨hnot _, hnot _⟩, fun _ ks hks ↦ hsame.noEffect hks⟩,
      ⟨fun _ ↦ hnot _, fun _ ks hks ↦ hsame.noEffect hks⟩⟩
  | some x =>
    obtain ⟨a, op⟩ := x
    obtain ⟨⟨strong, st⟩, ha⟩ := hlive a (StreamCall.stream_of_resolve hres)
    obtain ⟨hstatus, -, hglobals, -⟩ := StreamCall.run_resolved (o := o) (n := t.length) hres ha
    obtain ⟨-, hpend⟩ := StreamCall.run_tally ho hkept hres ha
    have hcell := StreamCall.run_cell (o := o) (n := t.length) hres ha
    rw [hstatus] at hfail
    rw [onTransfer_iff hres ha, onTransfer_iff hres ha]
    have hop :=
      StreamOp.run_failed ho mem.globals.shared (StreamCall.resolve_recording hk hres) hfail
    generalize (op.run mem.globals.shared).run o t.length st = q at hop hpend hcell
    obtain ⟨v, st₁, es⟩ := q
    have hon := StreamCall.stream_of_resolve hres
    cases hop with
    | unopened hopen hes =>
      rw [hes] at hpend
      have hsame : ∀ {loose}, TwinRuns loose (k.run.run o t.length mem).state
          (t ++ (k.run.run o t.length mem).events) mem t :=
        twinRuns_of_call ho hlive hkept hglobals hon ha hcell hpend
          ⟨rfl, ⟨st.pendingCb, rfl⟩, .inl rfl⟩
      have hhalf : ¬ HalfRecorded o t.length st op.transfer := by
        rintro ⟨c, p, cb, -, hopen', -⟩
        rw [hopen] at hopen'
        cases hopen'
      exact ⟨⟨fun _ ↦ ⟨hhalf, fun hnew ↦ hnew.2 hopen⟩, fun _ ks hks ↦ hsame.noEffect hks⟩,
        ⟨fun _ ↦ hhalf, fun _ ks hks ↦ hsame.noEffect hks⟩⟩
    | @unrecorded p cb _ hopen hhalf hes =>
      rw [hes] at hpend
      have hsame : ∀ {loose}, loose ∨ st.pendingCb ≠ none → TwinRuns loose
          (k.run.run o t.length mem).state (t ++ (k.run.run o t.length mem).events) mem t :=
          fun hl ↦
        twinRuns_of_call ho hlive hkept hglobals hon ha hcell hpend (twin_of_open hkept ha hl)
      refine ⟨⟨fun hall ↦ ⟨hhalf, fun hnew ↦ ?_⟩, fun hnot ks hks ↦ ?_⟩,
        ⟨fun _ ↦ hhalf, fun _ ks hks ↦ (hsame (.inl trivial)).noEffect hks⟩⟩
      · exact probe_opened hkept hkept' ha hcell hnew.1 rfl
          (hall _ (probe_continues noCreate_fair hcell))
      · refine (hsame (.inr fun hnone ↦ hnot.2 ⟨hnone, ?_⟩)).noEffect hks
        rw [hopen]
        intro h
        cases h
    | @half c p cb _ hc hopen hhalf hes =>
      rw [hes] at hpend
      have hnot := probe_half hkept hkept' ha hcell rfl hpend
      refine ⟨⟨fun hall ↦ ?_, fun hnot' ↦ absurd hhalf hnot'.1⟩,
        ⟨fun hall ↦ ?_, fun hnot' ↦ absurd hhalf hnot'⟩⟩
      · exact absurd (hall _ (probe_continues (goodBehaviour_fair False) hcell)) hnot
      · exact absurd (hall _ (probe_continues (goodBehaviour_fair True) hcell)) hnot

def isBarrierRecord : Call → Bool
  | .commandBufferRecord _ .executionBarrier => true
  | _ => false

def isBegin : Call → Bool
  | .commandBufferBegin _ => true
  | _ => false

def fillCall : StreamCall := .fillBuffer (some 1) (some ⟨1, 7⟩) 0 16 (some 0) 4

theorem fillCall_usual {p : Call → Bool} (hp : p (.malloc 16) = false) :
    Usual 0 oneStream fillCall (allBut p) := by
  refine ⟨?_, allBut_roomy hp⟩
  intro a h
  cases h
  exact ⟨_, rfl⟩

theorem failed_recording_no_effect_unopened :
    (fillCall.run.run (allBut isBegin) 0 oneStream).val.status ≠ none ∧
      ∀ ks, Continues False (fillCall.run.run (allBut isBegin) 0 oneStream).state
          ([] ++ (fillCall.run.run (allBut isBegin) 0 oneStream).events) ks →
        NoEffect oneStream [] (fillCall.run.run (allBut isBegin) 0 oneStream).state
          ([] ++ (fillCall.run.run (allBut isBegin) 0 oneStream).events) ks := by
  have hfail : (fillCall.run.run (allBut isBegin) 0 oneStream).val.status ≠ none := by decide
  refine ⟨hfail,
    ((failed_recording_no_effect oneStream_allFresh .start rfl (fillCall_usual rfl) hfail).1).mpr
    ⟨?_, ?_⟩⟩
  · rintro ⟨a, arc, op, hres, ha, c, p, cb, hc, hopen, -⟩
    cases hres
    cases ha
    cases hopen
  · rintro ⟨a, arc, op, hres, ha, -, hopen⟩
    cases hres
    cases ha
    exact hopen rfl

/-- A fill is recorded, its barrier is refused, and a later barrier and flush submit it. -/
theorem half_recorded_fill_submitted :
    ¬ ∀ mem₀ mem l k o, AllFresh mem₀ → StreamRuns Usual mem₀ mem l → k.recording = true →
      Usual (trace l).length mem k o → (k.run.run o (trace l).length mem).val.status ≠ none →
      ∀ ks, Continues False (k.run.run o (trace l).length mem).state
          (trace l ++ (k.run.run o (trace l).length mem).events) ks →
        NoEffect mem (trace l) (k.run.run o (trace l).length mem).state
          (trace l ++ (k.run.run o (trace l).length mem).events) ks := by
  intro h
  have hsame :=
    (h oneStream oneStream [] fillCall (allBut isBarrierRecord) oneStream_allFresh .start rfl
    (fillCall_usual rfl) (by decide) (probe 1 goodBehaviour)
    (probe_continues (goodBehaviour_fair False) rfl)).same
  revert hsame
  decide

end HrxSystem.Libhrx
