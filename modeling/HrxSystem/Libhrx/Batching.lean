import HrxSystem.Libhrx.CommandBuffers

namespace HrxSystem.Libhrx

open External Program Counting HrxStreamS

def recordOf (e : Happened) : Option Command :=
  match e.call with
  | .commandBufferRecord _ c => if ok e then some c else none
  | _ => none

def commandsIn (t : Trace) : List Command := t.filterMap recordOf

def contents (cb : Obj) (t : Trace) : List Command := commandsIn (uses cb t)

/-- The contents of the command buffer that a queue accepted, given the trace before it. -/
def batch (seen : Trace) (e : Happened) : List (List Command) :=
  match e.call with
  | .queueExecute _ _ _ _ (some cb) => if ok e then [contents cb seen] else []
  | _ => []

def batches (seen : Trace) : Trace → List (List Command)
  | [] => []
  | e :: es => batch seen e ++ batches (seen ++ [e]) es

@[simp] theorem commandsIn_nil : commandsIn [] = [] := rfl

@[simp] theorem commandsIn_append (t u : Trace) :
    commandsIn (t ++ u) = commandsIn t ++ commandsIn u :=
  List.filterMap_append

@[simp] theorem contents_append (cb : Obj) (t u : Trace) :
    contents cb (t ++ u) = contents cb t ++ contents cb u := by
  simp [contents]

theorem batches_append (seen t u : Trace) :
    batches seen (t ++ u) = batches seen t ++ batches (seen ++ t) u := by
  induction t generalizing seen with
  | nil => simp [batches]
  | cons e t ih => simp [batches, ih]

theorem recordOf_of_quiet {e : Happened} (h : quiet e.call = true) : recordOf e = none := by
  unfold recordOf
  split
  · rename_i hc
    simp [hc, quiet] at h
  · rfl

theorem commandsIn_of_quiet {es : Trace} (h : ∀ e ∈ es, quiet e.call = true) :
    commandsIn es = [] := by
  rw [commandsIn, List.filterMap_eq_nil_iff]
  exact fun e he ↦ recordOf_of_quiet (h e he)

theorem contents_of_unused {cb : Obj} {es : Trace} (h : uses cb es = []) : contents cb es = [] := by
  rw [contents, h, commandsIn_nil]

theorem batch_of_quiet {e : Happened} (h : quiet e.call = true) (seen : Trace) :
    batch seen e = [] := by
  unfold batch
  split
  · rename_i hc
    simp [hc, quiet] at h
  · rfl

theorem batches_of_quiet {es : Trace} (h : ∀ e ∈ es, quiet e.call = true) (seen : Trace) :
    batches seen es = [] := by
  induction es generalizing seen with
  | nil => rfl
  | cons e es ih =>
    rw [batches, batch_of_quiet (h e (by simp)), ih fun f hf ↦ h f (by simp [hf])]
    rfl

def unsubmitted (t : Trace) (st : HrxStreamS) : List Command :=
  match st.pendingCb with
  | none => []
  | some cb => contents cb t

/-- Where batching stands: what was recorded is what was submitted and what is pending. -/
structure Batched (t : Trace) (st : HrxStreamS) (bs : List (List Command)) (rs : List Command) :
    Prop where
  all : bs.flatten ++ unsubmitted t st = rs
  nonempty : [] ∉ bs
  work : st.hasPendingWork = true ↔ unsubmitted t st ≠ []

variable {n : ℕ} {t es : Trace} {st st' : HrxStreamS} {bs : List (List Command)} {rs : List Command}

theorem Batched.still (h : Batched t st bs rs)
    (hsame : unsubmitted (t ++ es) st' = unsubmitted t st)
    (hwork : st'.hasPendingWork = st.hasPendingWork) (hrec : commandsIn es = [])
    (hsub : batches t es = []) :
    Batched (t ++ es) st' (bs ++ batches t es) (rs ++ commandsIn es) := by
  rw [hrec, hsub, List.append_nil, List.append_nil]
  exact ⟨by rw [hsame, h.all], h.nonempty, by rw [hsame, hwork, h.work]⟩

theorem contents_of_none (hrec : commandsIn es = []) (cb : Obj) : contents cb es = [] := by
  rw [contents, commandsIn, List.filterMap_eq_nil_iff]
  intro e he
  exact List.filterMap_eq_nil_iff.mp hrec e (List.mem_of_mem_filter he)

theorem Batched.aside (h : Batched t st bs rs) (hcb : st'.pendingCb = st.pendingCb)
    (hwork : st'.hasPendingWork = st.hasPendingWork) (hrec : commandsIn es = [])
    (hsub : batches t es = []) :
    Batched (t ++ es) st' (bs ++ batches t es) (rs ++ commandsIn es) :=
  h.still (by simp [unsubmitted, hcb, contents_of_none hrec]) hwork hrec hsub

theorem Batched.quiet (h : Batched t st bs rs) (hes : ∀ e ∈ es, quiet e.call = true) :
    Batched (t ++ es) st (bs ++ batches t es) (rs ++ commandsIn es) :=
  h.aside rfl rfl (commandsIn_of_quiet hes) (batches_of_quiet hes t)

theorem Batched.record {cb : Obj} (h : Batched t st bs rs) (hcb : st.pendingCb = some cb)
    (hes : ∀ e ∈ es, cbOf e.call = some cb) (hrec : commandsIn es ≠ []) (hsub : batches t es = []) :
    Batched (t ++ es) { st with hasPendingWork := true } (bs ++ batches t es)
      (rs ++ commandsIn es) := by
  have hnew : unsubmitted (t ++ es) { st with hasPendingWork := true } =
      unsubmitted t st ++ commandsIn es := by
    simp [unsubmitted, hcb, contents, uses_of_all hes]
  rw [hsub, List.append_nil]
  refine ⟨?_, h.nonempty, ?_⟩
  · rw [hnew, ← List.append_assoc, h.all]
  · simp [hnew, hrec]

theorem Batched.submit {cb : Obj} (h : Batched t st bs rs) (hcb : st.pendingCb = some cb)
    (hwork : st.hasPendingWork = true) (hcb' : st'.pendingCb = none)
    (hwork' : st'.hasPendingWork = false) (hrec : commandsIn es = [])
    (hsub : batches t es = [contents cb t]) :
    Batched (t ++ es) st' (bs ++ batches t es) (rs ++ commandsIn es) := by
  have hold : unsubmitted t st = contents cb t := by simp [unsubmitted, hcb]
  have hnew : unsubmitted (t ++ es) st' = [] := by simp [unsubmitted, hcb']
  have hne : contents cb t ≠ [] := by
    rw [← hold]
    exact h.work.mp hwork
  rw [hsub, hrec, List.append_nil]
  refine ⟨?_, ?_, by simp [hwork', hnew]⟩
  · rw [hnew, ← h.all, hold]
    simp
  · intro hmem
    obtain hmem | hmem := List.mem_append.mp hmem
    · exact h.nonempty hmem
    · exact hne (List.mem_singleton.mp hmem).symm

theorem Small.batched (h : Small n st es st') (hok : ∀ e ∈ es, ok e = true) (hfresh : uses n t = [])
    (hb : Batched t st bs rs) :
    Batched (t ++ es) st' (bs ++ batches t es) (rs ++ commandsIn es) := by
  cases h with
  | aside hq => exact hb.quiet (by simpa using hq)
  | @opened d k f x y hcb hx hy =>
    refine hb.still ?_ rfl (by simp [commandsIn, recordOf]) (by simp [batches, batch])
    simp only [unsubmitted, hcb, contents_append, contents_of_unused hfresh, List.nil_append]
    exact contents_of_none (by simp [commandsIn, recordOf]) n
  | recorded hcb hx hy =>
    exact hb.record hcb (by simp [cbOf]) (by simp [commandsIn, recordOf, ok, hx, hy])
      (by simp [batches, batch])
  | barriered hcb hx =>
    exact hb.record hcb (by simp [cbOf]) (by simp [commandsIn, recordOf, ok, hx])
      (by simp [batches, batch])
  | @executed cb d f x y z hcb hw hx hy =>
    refine hb.submit hcb hw rfl rfl (by simp [commandsIn, recordOf]) ?_
    have hend : contents cb [⟨n, .commandBufferEnd (some cb), x⟩] = [] :=
      contents_of_none (by simp [commandsIn, recordOf]) cb
    simp [batches, batch, ok, hy, hend]
  | joined hx => exact hb.aside rfl rfl (by simp [commandsIn, recordOf]) (by simp [batches, batch])
  | allocated hx hy =>
    exact hb.aside rfl rfl (by simp [commandsIn, recordOf]) (by simp [batches, batch])
  | notCreated hx | notBegun _ hx | notRecorded _ hx | half _ _ hx | notEnded _ _ hx
  | rejected _ _ _ hx | barred hx | notAllocated hx | lost _ hx =>
    simp [ok] at hok
    simp [hok] at hx

def AnyUse (_ : Obj) (_ : Trace) : Prop := True

theorem anyUse_custody : Custody True AnyUse AnyUse := by
  constructor <;> intros <;> trivial

variable {others : Obj → Prop}

theorem Steps.batched (h : Steps n st es st') (hok : ∀ e ∈ es, ok e = true)
    (hw : Ward AnyUse AnyUse others n t st) (hb : Batched t st bs rs) :
    Batched (t ++ es) st' (bs ++ batches t es) (rs ++ commandsIn es) := by
  induction h generalizing t bs rs with
  | nil => simpa [batches] using hb
  | @cons n st st₁ st₂ es fs hsmall _ ih =>
    have hes : ∀ e ∈ es, ok e = true := fun e he ↦ hok e (List.mem_append_left fs he)
    have hfs : ∀ e ∈ fs, ok e = true := fun e he ↦ hok e (List.mem_append_right es he)
    have hb₁ := hsmall.batched hes (hw.later n le_rfl) hb
    have hb₂ := ih hfs (hsmall.ward anyUse_custody (.inl trivial) hw) hb₁
    rwa [batches_append, commandsIn_append, ← List.append_assoc, ← List.append_assoc,
      ← List.append_assoc]

theorem Small.frame (h : Small n st es st') {cb : ℕ} (hcb : cb < n) (hne : st.pendingCb ≠ some cb) :
    uses cb es = [] ∧ st'.pendingCb ≠ some cb := by
  have hnew : n ≠ cb := by omega
  cases h with
  | aside hq => exact ⟨uses_of_quiet (by simpa using hq) cb, hne⟩
  | notCreated _ | barred _ | joined _ | notAllocated _ | allocated _ _ | lost _ _ =>
    exact ⟨by simp [uses, cbOf], hne⟩
  | notBegun _ _ => exact ⟨by simp [uses, cbOf, hnew], hne⟩
  | opened _ _ _ => exact ⟨by simp [uses, cbOf, hnew], by simpa using hnew⟩
  | notRecorded hown _ | half hown _ _ | recorded hown _ _ | barriered hown _ | notEnded hown _ _
  | rejected hown _ _ _ =>
    rw [hown] at hne
    exact ⟨by simp_all [uses, cbOf], by simp_all⟩
  | executed hown _ _ _ =>
    rw [hown] at hne
    exact ⟨by simp_all [uses, cbOf], by simp [flushed]⟩

theorem Steps.frame (h : Steps n st es st') {cb : ℕ} (hcb : cb < n) (hne : st.pendingCb ≠ some cb) :
    uses cb es = [] ∧ st'.pendingCb ≠ some cb := by
  induction h with
  | nil => exact ⟨rfl, hne⟩
  | cons hsmall _ ih =>
    obtain ⟨hes, hne'⟩ := hsmall.frame hcb hne
    obtain ⟨hfs, hne''⟩ := ih (by omega) hne'
    exact ⟨by rw [uses_append, hes, hfs, List.append_nil], hne''⟩

variable {k : StreamCall} {arc : Arc HrxStreamS} {cell' : Option (Arc HrxStreamS)}

theorem Lives.frame (h : Lives k n arc es cell') {cb : ℕ} (hcb : cb < n)
    (hne : arc.data.pendingCb ≠ some cb) : uses cb es = [] := by
  cases h with
  | walked _ hsteps _ => exact (hsteps.frame hcb hne).1
  | skipped _ hes => exact uses_of_quiet hes cb
  | @dropped strong st st' o es fs tail _ hsmall _ _ hfs htail =>
    obtain ⟨hes, hne'⟩ := (steps_of_one hsmall).frame hcb hne
    have hleft : uses cb (leftover o (n + (es ++ fs).length) st') = [] := by
      unfold leftover
      split
      · rfl
      · rename_i own hown
        rw [hown] at hne'
        simp_all [uses, cbOf]
    rw [uses_append, uses_append, uses_append, hes, uses_of_quiet hfs, uses_of_quiet htail, hleft]
    rfl

variable {o : Outside} {mem : Memory}

theorem unsubmitted_of_frame (h : ∀ cb, st.pendingCb = some cb → uses cb es = []) :
    unsubmitted (t ++ es) st = unsubmitted t st := by
  unfold unsubmitted
  split
  · rfl
  · rename_i cb hcb
    rw [contents_append, contents_of_unused (h cb hcb), List.append_nil]

theorem StreamCall.run_elsewhere {b : ℕ} {arc : Arc HrxStreamS} (ho : Roomy o)
    (hkept : Kept AnyUse AnyUse n t mem.streams.cell) (hlive : Live mem k) (hb : k.stream ≠ some b)
    (harc : mem.streams.cell b = some arc) :
    unsubmitted (t ++ (k.run.run o n mem).events) arc.data = unsubmitted t arc.data := by
  refine unsubmitted_of_frame fun cb hcb ↦ ?_
  cases hk : k.stream with
  | none =>
    obtain ⟨err, hrun⟩ := StreamCall.run_null n mem ho hk
    rw [hrun]
    exact uses_of_quiet (by simp [payload, quiet]) cb
  | some a =>
    obtain ⟨arc', harc'⟩ := hlive a hk
    refine (StreamCall.run_lives ho hk harc').1.frame (hkept.pending b arc cb harc hcb).1 ?_
    intro hcb'
    obtain rfl := hkept.distinct b a arc arc' cb harc harc' hcb hcb'
    exact hb hk

theorem StreamCall.run_cell_of_ne {b : ℕ} (ho : Roomy o) (hlive : Live mem k)
    (hb : k.stream ≠ some b) :
    (k.run.run o n mem).state.streams.cell b = mem.streams.cell b := by
  cases hk : k.stream with
  | none =>
    obtain ⟨err, hrun⟩ := StreamCall.run_null n mem ho hk
    rw [hrun]
  | some a =>
    obtain ⟨arc, harc⟩ := hlive a hk
    refine (StreamCall.run_lives ho hk harc).2 b ?_
    rintro rfl
    exact hb hk

theorem Lives.batched (h : Lives k n arc es cell') (hok : ∀ e ∈ es, ok e = true)
    (hw : Ward AnyUse AnyUse others n t arc.data) (hb : Batched t arc.data bs rs) :
    (∀ arc', cell' = some arc' →
        Batched (t ++ es) arc'.data (bs ++ batches t es) (rs ++ commandsIn es)) ∧
      (cell' = none → (bs ++ batches t es).flatten = rs ++ commandsIn es ∧
        [] ∉ bs ++ batches t es) := by
  cases h with
  | walked _ hsteps _ =>
    refine ⟨?_, nofun⟩
    rintro arc' ⟨⟩
    exact hsteps.batched hok hw hb
  | skipped _ hes =>
    refine ⟨?_, nofun⟩
    rintro arc' ⟨⟩
    exact hb.aside rfl rfl (commandsIn_of_quiet hes) (batches_of_quiet hes t)
  | @dropped strong st st' o es fs tail _ hsmall _ hdone hfs htail =>
    refine ⟨nofun, fun _ ↦ ?_⟩
    have hes : ∀ e ∈ es, ok e = true := fun e he ↦ hok e (by simp [he])
    have hsettled := (steps_of_one hsmall).batched hes hw hb
    have hnone : unsubmitted (t ++ es) st' = [] := by
      obtain hidle | hcb := hdone hes
      · have hwork := hsettled.work
        rw [hidle] at hwork
        simpa using hwork
      · simp [unsubmitted, hcb]
    have hall := hsettled.all
    rw [hnone, List.append_nil] at hall
    have hleft : commandsIn (leftover o (n + (es ++ fs).length) st') = [] ∧
        ∀ seen, batches seen (leftover o (n + (es ++ fs).length) st') = [] := by
      unfold leftover
      split
      · exact ⟨rfl, fun _ ↦ rfl⟩
      · exact ⟨by simp [commandsIn, recordOf], fun _ ↦ by simp [batches, batch]⟩
    rw [batches_append, batches_append, batches_append, batches_of_quiet hfs,
      batches_of_quiet htail,
      hleft.2, commandsIn_append, commandsIn_append, commandsIn_append, commandsIn_of_quiet hfs,
      commandsIn_of_quiet htail, hleft.1]
    simp only [List.append_nil]
    exact ⟨hall, hsettled.nonempty⟩

def isRecord : Call → Bool
  | .commandBufferRecord .. => true
  | _ => false

abbrev NoRecord {σ α : Type} (m : Hrx σ α) : Prop :=
  Confined (fun _ ↦ ()) (fun c ↦ isRecord c = false) m

abbrev NoExecute {σ α : Type} (m : Hrx σ α) : Prop :=
  Confined (fun _ ↦ ()) (fun c ↦ isQueueExecute c = false) m

theorem noRecord_of_quiet (c : Call) (h : quiet c = true) : isRecord c = false := by
  unfold isRecord
  split
  · cases h
  · rfl

theorem noExecute_of_quiet (c : Call) (h : quiet c = true) : isQueueExecute c = false := by
  unfold isQueueExecute
  split
  · cases h
  · rfl

theorem commandsIn_of_noRecord {es : Trace} (h : ∀ e ∈ es, isRecord e.call = false) :
    commandsIn es = [] := by
  rw [commandsIn, List.filterMap_eq_nil_iff]
  intro e he
  unfold recordOf
  split
  · rename_i hc
    simpa [hc, isRecord] using h e he
  · rfl

def Succeeds (o : Outside) : Prop := ∀ n c, (o n c).status = none

theorem Succeeds.roomy (ho : Succeeds o) : Roomy o := fun n ↦ ho n _

theorem Succeeds.ok (ho : Succeeds o) (n : ℕ) (c : Call) : ok (happens o n c) = true := by
  simp [Libhrx.ok, happens, ho n c]

theorem flushInner_noRecord : NoRecord flushInner := by
  have hstatus : ∀ s, NoRecord (hrxStatusFromIree s : Hrx HrxStreamS HrxStatus) := fun s ↦
    (hrxStatusFromIree_aside s).calls noRecord_of_quiet
  refine .bind .state fun _ ↦ .ite (.pure _) (.bind (.call rfl) fun _ ↦ .ite (hstatus _) ?_)
  refine .bind (.call rfl) fun _ ↦ .ite (hstatus _) (.bind (.update fun _ ↦ rfl) fun _ ↦ ?_)
  exact .bind (.call rfl) fun _ ↦ .bind (.update fun _ ↦ rfl) fun _ ↦ .pure _

theorem queueBarrier_calls {P : Call → Prop} (hP : ∀ c, quiet c = true → P c)
    (hbarrier : ∀ d f w g, P (.queueBarrier d f w g)) (sem : SemaphorePtr) (value : ℕ) :
    Confined (fun _ ↦ ()) P (queueBarrier sem value) := by
  refine .bind .state fun _ ↦ .bind (.call (hbarrier _ _ _ _)) fun _ ↦ .ite ?_ ?_
  · exact (hrxStatusFromIree_aside _).calls hP
  · exact .bind (.update fun _ ↦ rfl) fun _ ↦ .pure _

theorem queueAlloca_calls {P : Call → Prop} (hP : ∀ c, quiet c = true → P c)
    (halloca : ∀ d w g p q s, P (.queueAlloca d w g p q s)) (shared : SharedState)
    (params : BufferParams) (size : ℕ) :
    Confined (fun _ ↦ ()) P (queueAlloca shared params size) := by
  have habandon : ∀ b p s, Confined (fun _ ↦ ()) P (abandonAlloca b p s) := fun b p s ↦
    (abandonAlloca_aside b p s).calls hP
  refine .bind .state fun _ ↦ .bind ((hrxIreeExactPoolCreate_aside _ _ _).calls hP) fun p ↦ ?_
  obtain ⟨status, pool⟩ := p
  cases pool with
  | none => exact habandon _ _ _
  | some pool =>
    refine .bind (.call (halloca _ _ _ _ _ _)) fun _ ↦ .ite (habandon _ _ _) ?_
    refine .bind (.call (hP _ rfl)) fun _ ↦ .ite (habandon _ _ _) ?_
    exact .bind (.update fun _ ↦ rfl) fun _ ↦ .pure _

/-- The commands that an operation stands for, each transfer and dispatch with its barrier. -/
def StreamOp.commands : StreamOp → List Command
  | .record (some c) => [c, .executionBarrier]
  | .executionBarrier => [.executionBarrier]
  | _ => []

def StreamCall.commands (k : StreamCall) : List Command :=
  match k.resolve with
  | some (_, op) => op.commands
  | none => []

theorem beginCb_succeeds (ho : Succeeds o) (n : ℕ) (st : HrxStreamS) :
    ∃ cb es, beginCb.run o n st = ⟨none, { st with pendingCb := some cb }, es⟩ ∧
      commandsIn es = [] ∧
      ∀ e ∈ es, isQueueExecute e.call = false := by
  cases hcb : st.pendingCb with
  | some cb =>
    refine ⟨cb, [], ?_, rfl, by simp⟩
    rw [beginCb_installed hcb, ← hcb]
  | none =>
    refine ⟨n, _, beginCb_opened hcb (ho.ok _ _) (ho.ok _ _), ?_, ?_⟩
    · simp [commandsIn, recordOf, createCall]
    · simp [isQueueExecute, createCall]

theorem record_commands (ho : Succeeds o) (n : ℕ) (st : HrxStreamS) (c : Option Command) :
    commandsIn ((record c).run o n st).events =
      if ((record c).run o n st).val = none then (StreamOp.record c).commands else [] := by
  obtain ⟨cb, es, hr, hes, -⟩ := beginCb_succeeds ho n st
  rw [record_eq, orReturn_ok hr, Outcome.after_events, Outcome.after_val, commandsIn_append, hes,
    List.nil_append]
  cases c with
  | none =>
    rw [recordCommand_null ho.roomy]
    simp [commandsIn, recordOf, payload]
  | some c =>
    rw [recordCommand_recorded rfl (ho.ok _ _) (ho.ok _ _)]
    simp [commandsIn, recordOf, ho.ok, StreamOp.commands]

theorem executionBarrier_commands (ho : Succeeds o) (n : ℕ) (st : HrxStreamS) :
    commandsIn (executionBarrier.run o n st).events =
      if (executionBarrier.run o n st).val = none then [.executionBarrier] else [] := by
  obtain ⟨cb, es, hr, hes, -⟩ := beginCb_succeeds ho n st
  rw [executionBarrier_eq, orReturn_ok hr, Outcome.after_events, Outcome.after_val,
    commandsIn_append, hes, List.nil_append, recordBarrier_recorded rfl (ho.ok _ _)]
  simp [commandsIn, recordOf, ho.ok]

/-- An operation records its commands if it returns OK, and nothing else. -/
theorem StreamOp.run_commands (ho : Succeeds o) (n : ℕ) (st : HrxStreamS) (shared : SharedState)
    (op : StreamOp) :
    commandsIn ((op.run shared).run o n st).events =
      if ((op.run shared).run o n st).val.status = none then op.commands else [] := by
  have hnone :
      NoRecord (op.run shared) → op.commands = [] → commandsIn ((op.run shared).run o n st).events =
      if ((op.run shared).run o n st).val.status = none then op.commands else [] := by
    intro hop hcommands
    rw [commandsIn_of_noRecord (hop o n st).2, hcommands, ite_self]
  have herror :
      ∀ message, NoRecord (hrxError .invalidArgument message : Hrx HrxStreamS HrxStatus) :=
    fun _ ↦ (hrxError_aside _ _).calls noRecord_of_quiet
  cases op with
  | record c =>
    simp only [StreamOp.run, returning, run_bind, run_pure, Outcome.after_events, Outcome.after_val,
      List.append_nil]
    exact record_commands ho n st c
  | executionBarrier =>
    simp only [StreamOp.run, returning, run_bind, run_pure, Outcome.after_events, Outcome.after_val,
      List.append_nil]
    exact executionBarrier_commands ho n st
  | flush => exact hnone (flushInner_noRecord.bind fun _ ↦ .pure _) rfl
  | synchronize =>
    refine hnone (.bind (flushInner_noRecord.bind fun _ ↦ .ite (.pure _) ?_) fun _ ↦ .pure _) rfl
    exact wait_aside.calls noRecord_of_quiet
  | wait => exact hnone ((wait_aside.bind fun _ ↦ .pure _).calls noRecord_of_quiet) rfl
  | query => exact hnone (query_aside.calls noRecord_of_quiet) rfl
  | getSemaphore | getDevice | getTimelinePosition => exact hnone (.bind .state fun _ ↦ .pure _) rfl
  | advanceTimeline =>
    exact hnone (.bind (.update fun _ ↦ rfl) fun _ ↦ .bind .state fun _ ↦ .pure _) rfl
  | waitOn sem value =>
    refine hnone (.bind (flushInner_noRecord.bind fun _ ↦ .ite (.pure _) ?_) fun _ ↦ .pure _) rfl
    exact queueBarrier_calls noRecord_of_quiet (fun _ _ _ _ ↦ rfl) sem value
  | bufferAllocate size memType usage =>
    refine hnone (.bind (.bind .state fun _ ↦ .bind (.call rfl) fun _ ↦ .ite ?_ ?_) fun _ ↦ .pure _)
      rfl
    · exact (herror _).bind fun _ ↦ .pure _
    · refine flushInner_noRecord.bind fun _ ↦ .ite (.pure _) ?_
      exact queueAlloca_calls noRecord_of_quiet (fun _ _ _ _ _ _ ↦ rfl) shared _ size

end HrxSystem.Libhrx
