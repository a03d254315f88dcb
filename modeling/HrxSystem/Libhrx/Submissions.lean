import HrxSystem.Libhrx.StreamSteps

namespace HrxSystem.Libhrx

open External Program Counting HrxStreamS Timeline

/-- What a queue was asked to do, and where in the trace. -/
inductive Job
  | execute (cb : Option Obj)
  | barrier
  | alloca
deriving DecidableEq

structure Work where
  pos : ℕ
  job : Job
deriving DecidableEq

def submission (e : Happened) : Option (Submission Obj Work) :=
  if ok e then
    match e.call with
    | .queueExecute _ _ waits signals cb => some ⟨waits, signals, e.pos, .execute cb⟩
    | .queueBarrier _ _ waits signals => some ⟨waits, signals, e.pos, .barrier⟩
    | .queueAlloca _ waits signals .. => some ⟨waits, signals, e.pos, .alloca⟩
    | _ => none
  else none

def submissions (t : Trace) : List (Submission Obj Work) := t.filterMap submission

def lane (s : Obj) (t : Trace) : List (Submission Obj Work) :=
  (submissions t).filter fun x ↦ x.signalsOn s

def allocaAccepted (e : Happened) : Bool :=
  match e.call with
  | .queueAlloca .. => ok e
  | _ => false

def waitFailed (e : Happened) : Bool :=
  match e.call with
  | .semaphoreWait .. => !ok e
  | _ => false

/-- An alloca was accepted and the wait for it failed in one call. Its signal
value is lost, for the timepoint stays where it was. -/
def Lost (es : Trace) : Prop := es.any allocaAccepted = true ∧ es.any waitFailed = true

instance (es : Trace) : Decidable (Lost es) := inferInstanceAs (Decidable (_ ∧ _))

theorem not_lost_append {es fs : Trace} (h : ¬ Lost (es ++ fs)) : ¬ Lost es ∧ ¬ Lost fs := by
  simp only [Lost, List.any_append, Bool.or_eq_true] at h ⊢
  exact ⟨fun hl ↦ h ⟨.inl hl.1, .inl hl.2⟩, fun hl ↦ h ⟨.inr hl.1, .inr hl.2⟩⟩

@[simp] theorem submissions_nil : submissions [] = [] := rfl

@[simp] theorem submissions_append (t u : Trace) :
    submissions (t ++ u) = submissions t ++ submissions u := List.filterMap_append

@[simp] theorem lane_nil (s : Obj) : lane s [] = [] := rfl

@[simp] theorem lane_append (s : Obj) (t u : Trace) : lane s (t ++ u) = lane s t ++ lane s u := by
  simp [lane]

theorem submission_of_quiet {e : Happened} (h : quiet e.call = true) : submission e = none := by
  unfold submission
  split
  · split
    · rename_i hc
      rw [hc] at h
      cases h
    · rename_i hc
      rw [hc] at h
      cases h
    · rename_i hc
      rw [hc] at h
      cases h
    · rfl
  · rfl

theorem submissions_of_quiet {es : Trace} (h : ∀ e ∈ es, quiet e.call = true) :
    submissions es = [] := by
  rw [submissions, List.filterMap_eq_nil_iff]
  exact fun e he ↦ submission_of_quiet (h e he)

@[simp] theorem submissions_payload (o : Outside) (n : ℕ) : submissions [payload o n] = [] :=
  submissions_of_quiet (by simp [payload, quiet])

theorem lane_of_quiet {es : Trace} (h : ∀ e ∈ es, quiet e.call = true) (s : Obj) :
    lane s es = [] := by
  rw [lane, submissions_of_quiet h]
  rfl

variable {n : ℕ} {st st' : HrxStreamS} {es : Trace}

theorem Small.fixed (h : Small n st es st') :
    st'.semaphore = st.semaphore ∧ st'.device = st.device := by
  cases h <;> exact ⟨rfl, rfl⟩

/-- A small step submits nothing, or one thing that signals the next value. -/
theorem Small.submits (h : Small n st es st') :
    (submissions es = [] ∧ st'.timepoint = st.timepoint) ∨
    ∃ x, submissions es = [x] ∧ x.signals = st.signalList ∧
      (x.waits = st.waitList ∨ x.payload.job = .barrier) ∧
      (st' = st ∧ Lost es ∨ st'.timepoint = u64Add st.timepoint 1) := by
  cases h with
  | aside hq => exact .inl ⟨submissions_of_quiet (by simpa using hq), rfl⟩
  | notCreated hx => exact .inl ⟨by simp [submissions, submission], rfl⟩
  | notBegun hx hy => exact .inl ⟨by simp [submissions, submission], rfl⟩
  | opened hcb hx hy => exact .inl ⟨by simp [submissions, submission], rfl⟩
  | notRecorded hcb hx => exact .inl ⟨by simp [submissions, submission], rfl⟩
  | half hcb hx hy => exact .inl ⟨by simp [submissions, submission], rfl⟩
  | recorded hcb hx hy => exact .inl ⟨by simp [submissions, submission], rfl⟩
  | barriered hcb hx => exact .inl ⟨by simp [submissions, submission], rfl⟩
  | notEnded hcb hw hx => exact .inl ⟨by simp [submissions, submission], rfl⟩
  | rejected hcb hw hx hy => exact .inl ⟨by simp [submissions, submission, ok, hx, hy], rfl⟩
  | barred hx => exact .inl ⟨by simp [submissions, submission, ok, hx], rfl⟩
  | notAllocated hx => exact .inl ⟨by simp [submissions, submission, ok, hx], rfl⟩
  | executed hcb hw hx hy =>
    exact .inr ⟨_, by simp [submissions, submission, ok, hx, hy]; rfl, rfl, .inl rfl, .inr rfl⟩
  | joined hx =>
    exact .inr ⟨_, by simp [submissions, submission, ok, hx]; rfl, rfl, .inr rfl, .inr rfl⟩
  | allocated hx hy =>
    exact .inr ⟨_, by simp [submissions, submission, ok, hx, hy]; rfl, rfl, .inl rfl, .inr rfl⟩
  | lost hx hy =>
    refine .inr
      ⟨_, by simp [submissions, submission, ok, hx, hy]; rfl, rfl, .inl rfl, .inl ⟨rfl, ?_⟩⟩
    simp [Lost, allocaAccepted, waitFailed, ok, hx, hy]

section Budget

variable {α β : Type} {m m' : Hrx HrxStreamS α} {f : α → Hrx HrxStreamS β} {j k : ℕ}

def owed (st : HrxStreamS) : ℕ := st.hasPendingWork.toNat

/-- A program that makes at most `k` submissions beyond the one owed before it. -/
def Spends (k : ℕ) (m : Hrx HrxStreamS α) : Prop :=
  ∀ o n st, Roomy o →
    (submissions (m.run o n st).events).length + owed (m.run o n st).state ≤ owed st + k

theorem Spends.of_aside (hm : Aside (fun c ↦ quiet c = true) m) : Spends k m := by
  intro o n st _
  obtain ⟨hs, he⟩ := hm o n st
  rw [show (m.run o n st).state = st from hs, submissions_of_quiet he]
  simp

theorem Spends.bind (hm : Spends j m) (hf : ∀ a, Spends k (f a)) : Spends (j + k) (m >>= f) := by
  intro o n st ho
  have h₁ := hm o n st ho
  have h₂ := hf (m.run o n st).val o (n + (m.run o n st).events.length) (m.run o n st).state ho
  rw [run_bind, Outcome.after_events, Outcome.after_state, submissions_append, List.length_append]
  omega

theorem Spends.ite {c : Prop} [Decidable c] (hm : Spends k m) (hm' : Spends k m') :
    Spends k (if c then m else m') := by
  split
  · exact hm
  · exact hm'

theorem Spends.mono (hm : Spends j m) (hjk : j ≤ k) : Spends k m := by
  intro o n st ho
  have h := hm o n st ho
  omega

theorem Spends.pure (a : α) : Spends k (Pure.pure a : Hrx HrxStreamS α) :=
  .of_aside (.pure a)

theorem flushInner_spends : Spends 0 flushInner := by
  intro o n st ho
  by_cases hi : st.hasPendingWork = false ∨ st.pendingCb = none
  · rw [flushInner_idle hi]
    simp
  obtain ⟨hw, hne⟩ := not_or.mp hi
  obtain ⟨cb, hcb⟩ := Option.ne_none_iff_exists'.mp hne
  rw [Bool.not_eq_false] at hw
  cases hx : ok (happens o n (.commandBufferEnd (some cb))) with
  | false =>
    rw [flushInner_notEnded ho hw hcb hx]
    simp [submissions, submission, payload]
  | true =>
    cases hy : ok (happens o (n + 1) (executeCall st cb)) with
    | false =>
      rw [flushInner_rejected ho hw hcb hx hy]
      simp [submissions, submission, payload, hy]
    | true =>
      rw [flushInner_executed hw hcb hx hy]
      simp [submissions, submission, executeCall, owed, flushed, hw, List.filterMap_cons]
      split <;> simp

theorem beginCb_spends : Spends 0 beginCb := by
  intro o n st ho
  cases hcb : st.pendingCb with
  | some cb =>
    rw [beginCb_installed hcb]
    simp
  | none =>
    cases hx : ok (happens o n (createCall st)) with
    | false =>
      rw [beginCb_notCreated ho hcb hx]
      simp [submissions, submission, payload, hx]
    | true =>
      cases hy : ok (happens o (n + 1) (.commandBufferBegin (some n))) with
      | false =>
        rw [beginCb_notBegun ho hcb hx hy]
        simp [submissions, submission, payload, createCall]
      | true =>
        rw [beginCb_opened hcb hx hy]
        simp [submissions, submission, createCall, owed]

theorem owed_le_one (st : HrxStreamS) : owed st ≤ 1 := Bool.toNat_le _

theorem recordCommand_spends (command : Option Command) {cb : Obj} {o : Outside} (ho : Roomy o)
    (hcb : st.pendingCb = some cb) :
    (submissions ((recordCommand command).run o n st).events).length +
      owed ((recordCommand command).run o n st).state ≤ owed st + 1 := by
  have hle := owed_le_one ((recordCommand command).run o n st).state
  have hnone : submissions ((recordCommand command).run o n st).events = [] := by
    cases command with
    | none =>
      rw [recordCommand_null ho]
      exact submissions_of_quiet (by simp [payload, quiet])
    | some c =>
      cases hx : ok (happens o n (.commandBufferRecord (some cb) c)) with
      | false =>
        rw [recordCommand_notRecorded ho hcb hx]
        simp [submissions, submission, payload]
      | true =>
        cases hy : ok (happens o (n + 1) (.commandBufferRecord (some cb) .executionBarrier)) with
        | false =>
          rw [recordCommand_half ho hcb hx hy]
          simp [submissions, submission, payload]
        | true =>
          rw [recordCommand_recorded hcb hx hy]
          simp [submissions, submission]
  rw [hnone, List.length_nil]
  omega

theorem recordBarrier_spends {cb : Obj} {o : Outside} (ho : Roomy o)
    (hcb : st.pendingCb = some cb) :
    (submissions (recordBarrier.run o n st).events).length +
      owed (recordBarrier.run o n st).state ≤ owed st + 1 := by
  have hle := owed_le_one (recordBarrier.run o n st).state
  have hnone : submissions (recordBarrier.run o n st).events = [] := by
    cases hx : ok (happens o n (.commandBufferRecord (some cb) .executionBarrier)) with
    | false =>
      rw [recordBarrier_notRecorded ho hcb hx]
      simp [submissions, submission, payload]
    | true =>
      rw [recordBarrier_recorded hcb hx]
      simp [submissions, submission]
  rw [hnone, List.length_nil]
  omega

theorem Spends.afterBegin {m : Hrx HrxStreamS HrxStatus}
    (hm : ∀ o n st cb, Roomy o → st.pendingCb = some cb →
      (submissions (m.run o n st).events).length + owed (m.run o n st).state ≤ owed st + 1) :
    Spends 1 (beginCb >>= fun s ↦ if (!hrxStatusIsOk s) = true then Pure.pure s else m) := by
  intro o n st ho
  have hb := beginCb_spends o n st ho
  cases hr : beginCb.run o n st with
  | mk s st' es =>
    rw [hr] at hb
    cases s with
    | some s =>
      rw [orReturn_failed hr]
      exact hb.trans (Nat.le_succ _)
    | none =>
      obtain ⟨cb, hcb⟩ := beginCb_begun ho (by rw [hr])
      rw [hr] at hcb
      have h := hm o (n + es.length) st' cb ho hcb
      rw [orReturn_ok hr, Outcome.after_events, Outcome.after_state, submissions_append,
        List.length_append]
      simp only at hb
      omega

theorem submissions_single_le (e : Happened) : (submissions [e]).length ≤ 1 :=
  List.length_filterMap_le _ _

theorem queueBarrier_spends (sem : SemaphorePtr) (value : ℕ) :
    Spends 1 (queueBarrier sem value) := by
  intro o n st ho
  cases hx : ok (happens o n (barrierCall st ⟨sem.hal, value⟩)) with
  | false =>
    rw [queueBarrier_rejected ho hx]
    simp [submissions, submission, payload, hx]
  | true =>
    have hle := submissions_single_le (happens o n (barrierCall st ⟨sem.hal, value⟩))
    rw [queueBarrier_accepted hx]
    change (submissions [_]).length + owed st ≤ _
    omega

theorem queueAlloca_spends (shared : SharedState) (params : BufferParams) (size : ℕ) :
    Spends 1 (queueAlloca shared params size) := by
  intro o n st ho
  obtain ⟨hs, he⟩ := hrxIreeExactPoolCreate_aside shared st.device.halAllocator params o n st
  have habandon : ∀ b p s n, submissions ((abandonAlloca b p s).run o n st).events = [] ∧
      ((abandonAlloca b p s).run o n st).state = st := fun b p s n ↦
    ⟨submissions_of_quiet (abandonAlloca_aside b p s o n st).2,
      (abandonAlloca_aside b p s o n st).1⟩
  cases hp : (hrxIreeExactPoolCreate shared st.device.halAllocator params).run o n st with
  | mk r st' es =>
    rw [hp] at hs he
    obtain ⟨status, pool⟩ := r
    obtain rfl : st' = st := hs
    have hquiet := submissions_of_quiet he
    cases pool with
    | none =>
      rw [queueAlloca_noPool hp, Outcome.after_events, Outcome.after_state, (habandon ..).2,
        submissions_append, (habandon ..).1, hquiet]
      simp
    | some pool =>
      have hle := submissions_single_le
        (happens o (n + es.length) (allocaCall st' pool.addr params size))
      have hwait : submissions [happens o (n + es.length + 1) (allocaWait st')] = [] :=
        submissions_of_quiet (by simp [allocaWait, quiet])
      cases hx : ok (happens o (n + es.length) (allocaCall st' pool.addr params size)) with
      | false =>
        rw [queueAlloca_notAllocated hp hx, Outcome.after_events, Outcome.after_state,
          (habandon ..).2,
          submissions_append, (habandon ..).1, submissions_append, hquiet, List.append_nil,
          List.nil_append]
        omega
      | true =>
        cases hy : ok (happens o (n + es.length + 1) (allocaWait st')) with
        | false =>
          rw [queueAlloca_lost hp hx hy, Outcome.after_events, Outcome.after_state, (habandon ..).2,
            submissions_append, (habandon ..).1, submissions_append, hquiet, List.append_nil,
            List.nil_append, ← List.singleton_append, submissions_append, hwait, List.append_nil]
          omega
        | true =>
          rw [queueAlloca_allocated hp hx hy]
          change _ + owed st' ≤ _
          rw [submissions_append, hquiet, List.nil_append, ← List.singleton_append,
            submissions_append, hwait, List.append_nil]
          omega

theorem settle_spends : Spends 0 settle := by
  have htail : Spends 0 awaitTimeline := .of_aside awaitTimeline_aside
  refine Spends.bind (j := 0) (k := 0) (.of_aside .state) fun _ ↦ .ite ?_ htail
  exact flushInner_spends.bind (k := 0) fun _ ↦ htail

end Budget

theorem drop_small {o : Outside} (ho : Roomy o) (n : ℕ) (st : HrxStreamS) :
    ∃ es fs st', (drop.run o n st).events = es ++ fs ++ leftover o (n + (es ++ fs).length) st' ∧
      (∀ e ∈ fs, quiet e.call = true) ∧ (submissions es).length ≤ owed st ∧
      (es = [] ∧ st' = st ∨ Small n st es st') ∧
      ((∀ e ∈ es, ok e = true) → st'.hasPendingWork = false ∨ st'.pendingCb = none) := by
  have hspent := settle_spends o n st ho
  obtain ⟨es, fs, hes, hq, hsmall⟩ := settle_small ho n st
  refine ⟨es, fs, (settle.run o n st).state, ?_, hq, ?_, hsmall⟩
  · rw [← hes]
    simp only [drop, run_bind, run_state, leftover]
    cases (settle.run o n st).state.pendingCb <;> simp
  · rw [hes, submissions_append, submissions_of_quiet hq, List.append_nil] at hspent
    omega

end HrxSystem.Libhrx
