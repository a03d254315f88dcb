import HrxSystem.Libhrx.Lanes

namespace HrxSystem.Libhrx

open External Program Counting HrxStreamS Timeline

variable {o : Outside} {n a : ℕ} {s : Obj} {t : Trace} {st : HrxStreamS} {sem : SemaphorePtr}
  {value : ℕ}
variable {mem mem₀ : Memory} {l : StreamLog} {d₀ d : Device Obj Work}

/-- When a barrier on `s` is accepted, whatever the earlier barriers on `s` waited for is reached,
or the new barrier waits for it or for them. -/
def Inherits (s : Obj) (e : Happened) (d : Device Obj Work) : Prop :=
  ∀ x, submission e = some x → x.payload.job = .barrier → x.signalsOn s = true →
    ∀ y ∈ d.accepted, y.payload.job = .barrier → ∀ v, y.signals = [⟨s, v⟩] → ∀ p ∈ y.waits,
    Covers s p v d x

/-- No submission that stream `a` makes after a call of `hrx_stream_wait_on` that returned OK starts
before the position of that call is reached. -/
def DependenciesKept (a : ℕ) (s : Obj) (l : StreamLog) (d : Device Obj Work) : Prop :=
  ∀ l₁ e l₂ sem value, l = l₁ ++ e :: l₂ → e.call = .waitOn (some a) ⟨some sem, value⟩ →
    e.result.val.status = none →
    ∀ x ∈ submissions (trace l₂), x.signalsOn s = true → x ∈ d.started → d.Reached ⟨sem.hal, value⟩

theorem waitOn_joins (ho : Roomy o) (hs : st.semaphore.hal = s)
    (h : ((waitOn sem value).run o n st).val = none) :
    ∃ y ∈ lane s ((waitOn sem value).run o n st).events,
      y.payload.job = .barrier ∧ y.waits = [⟨sem.hal, value⟩] := by
  rw [waitOn_eq] at h ⊢
  have hwalks := flushInner_walks o n st ho
  cases hf : flushInner.run o n st with
  | mk val st' es =>
    rw [hf] at hwalks
    cases val with
    | some err =>
      rw [orReturn_failed hf] at h
      cases h
    | none =>
      rw [orReturn_ok hf] at h ⊢
      have hs' : st'.semaphore.hal = s := by rw [hwalks.semaphore_eq, hs]
      cases hx : ok (happens o (n + es.length) (barrierCall st' ⟨sem.hal, value⟩)) with
      | false =>
        rw [queueBarrier_rejected ho hx] at h
        cases h
      | true =>
        rw [queueBarrier_accepted hx]
        refine ⟨⟨[⟨sem.hal, value⟩], st'.signalList, n + es.length, .barrier⟩, ?_, rfl, rfl⟩
        rw [Outcome.after_events, lane_append]
        refine List.mem_append_right _ (Timeline.mem_lane.mpr ⟨?_, ?_⟩)
        · exact List.mem_filterMap.mpr
            ⟨_, List.mem_singleton_self _, by rw [submission, if_pos hx]; rfl⟩
        · simp [Submission.signalsOn, signalList, hs']

theorem run_waitOn {arc : Arc HrxStreamS} (ho : Roomy o) (ha : mem.streams.cell a = some arc)
    (hs : arc.data.semaphore.hal = s)
    (h : ((StreamCall.waitOn (some a) ⟨some sem, value⟩).run.run o n mem).val.status = none) :
    ∃ y ∈ lane s ((StreamCall.waitOn (some a) ⟨some sem, value⟩).run.run o n mem).events,
      y.payload.job = .barrier ∧ y.waits = [⟨sem.hal, value⟩] := by
  obtain ⟨hstatus, -, -, tail, hevents, -⟩ :=
    StreamCall.run_resolved (k := .waitOn (some a) ⟨some sem, value⟩) (o := o) (n := n) rfl ha
  rw [hstatus] at h
  simp only [StreamOp.run, returning, run_bind, run_pure, Outcome.after_val, Outcome.after_events,
    List.append_nil] at h hevents
  obtain ⟨y, hy, hjob⟩ := waitOn_joins ho hs h
  exact ⟨y, by rw [hevents, lane_append]; exact List.mem_append_left _ hy, hjob⟩

/-- Every later submission of the lane covers what barrier `y` waits for, if the barriers do. -/
theorem LaneInv.covers {e : Happened} {x y : Submission Obj Work} {p : SemaphorePoint} {u v : ℕ}
    (h : LaneInv a s mem l) (hlen : l.length < 2 ^ 64) (he : e ∈ trace l)
    (hinherits : Inherits s e d) (hx : submission e = some x) (hu : x.signals = [⟨s, u⟩])
    (hvu : v < u) (hv : 0 < v) (hy : y ∈ d.accepted) (hjob : y.payload.job = .barrier)
    (hyv : y.signals = [⟨s, v⟩]) (hp : p ∈ y.waits) :
    Covers s p v d x := by
  have hon := signalsOn_of_signals hu
  by_cases hbarrier : x.payload.job = .barrier
  · exact hinherits x hx hbarrier hon y hy hjob v hyv p hp
  have hmem : x ∈ lane s (trace l) :=
    Timeline.mem_lane.mpr ⟨List.mem_filterMap.mpr ⟨e, he, hx⟩, hon⟩
  obtain ⟨i, hi⟩ := List.getElem?_of_mem hmem
  obtain ⟨hsignals, hwaits⟩ := h.numbered hlen (List.prefix_refl _) hi
  obtain rfl : u = i + 1 := by
    rw [hu] at hsignals
    simpa using hsignals
  exact .inr ⟨_, hwaits hbarrier (by omega), .inl ⟨rfl, by simp only; omega⟩⟩

theorem dependencies_kept (hfresh : FreshStream mem₀ a s) (h : StreamRuns (KeepsLane a) mem₀ mem l)
    (hlen : l.length < 2 ^ 64) (hidle : d₀.Idle) (hzero : d₀.value s = 0) (ht : t <+: trace l)
    (hd : Interleaves submission (fun e d ↦ Answers e d ∧ Inherits s e d) (· ≠ s) d₀ t d) :
    DependenciesKept a s l d := by
  intro l₁ e l₂ sem value hl hcall hstatus x hx hon hstarted
  have hinv := KeepsLane.inv hfresh h
  have hnum : Numbered s (submissions (trace l)) :=
    fun i x hx ↦ (hinv.numbered hlen (List.prefix_refl _) hx).1
  have htrace : trace l = trace (l₁ ++ [e]) ++ trace l₂ := by
    rw [hl, ← trace_append, List.append_assoc, List.singleton_append]
  -- The barrier `y` of the call, at number `i` of the lane.
  obtain ⟨hbefore, -, o, hk, hresult⟩ := h.upTo hl
  rw [hcall] at hk hresult
  obtain ⟨arc, harc⟩ := hk.1.1 a rfl
  have hs := ((KeepsLane.inv hfresh hbefore).timepoint arc harc).1
  rw [hresult] at hstatus
  obtain ⟨y, hy, hjob, hwaits⟩ := run_waitOn hk.1.2 harc hs hstatus
  rw [← hresult] at hy
  have hy₁ : y ∈ lane s (trace (l₁ ++ [e])) := by
    rw [trace_append, trace_single, lane_append]
    exact List.mem_append_right _ hy
  obtain ⟨i, hi⟩ := List.getElem?_of_mem hy₁
  obtain ⟨hlt, -⟩ := List.getElem?_eq_some_iff.mp hi
  obtain ⟨hyv, -⟩ := hinv.numbered hlen ⟨_, htrace.symm⟩ hi
  have hyl : y ∈ submissions (trace l) := by
    rw [htrace, submissions_append]
    exact List.mem_append_left _ (List.mem_filter.mp hy₁).1
  -- The submission `x`, at a later number.
  obtain ⟨j, hj⟩ := List.getElem?_of_mem (Timeline.mem_lane.mpr ⟨hx, hon⟩)
  have hj' : (lane s (trace l))[(lane s (trace (l₁ ++ [e]))).length + j]? = some x := by
    rw [htrace, lane_append, List.getElem?_append_right (Nat.le_add_right _ _),
      Nat.add_sub_cancel_left]
    exact hj
  obtain ⟨hxu, -⟩ := hinv.numbered hlen (List.prefix_refl _) hj'
  have hcarries : Carries s ⟨sem.hal, value⟩ (i + 1) d := by
    have hnum' : Numbered s (t.filterMap submission) := fun i x hx ↦ (hinv.numbered hlen ht hx).1
    refine hd.carries (y := y) hidle hzero (by simp) hnum' (Nat.succ_pos i) (by simp [hwaits]) ?_ ?_
    · intro z hz hzv
      exact hnum.unique ((ht.filterMap submission).subset hz) hyl hzv hyv
    · intro f hf d' z u hsees hz hzu hvu hacc
      exact hinv.covers hlen (ht.subset hf) hsees.2 hz hzu hvu (Nat.succ_pos i) hacc hjob hyv
        (by simp [hwaits])
  exact hcarries.awaited (hd.lawful hidle) hstarted hxu (by omega)

def joiningProgram (p q : SemaphorePoint) : List (StreamCall × Outside) :=
  [(.waitOn (some 1) ⟨some ⟨9, p.semaphore⟩, p.value⟩, allSucceed),
    (.waitOn (some 1) ⟨some ⟨10, q.semaphore⟩, q.value⟩, allSucceed),
    (.executionBarrier (some 1), allSucceed), (.flush (some 1), allSucceed)]

def secondBarrier (q : SemaphorePoint) : Submission Obj Work := ⟨[q], [⟨0, 2⟩], 1, .barrier⟩

def joinedWork : Submission Obj Work := ⟨[⟨0, 2⟩], [⟨0, 3⟩], 6, .execute (some 2)⟩

theorem dependencies_kept_joined :
    ∃ d, joinedWork ∈ d.started ∧
      DependenciesKept 1 0
        (play StreamCall.run oneStream [] (joiningProgram ⟨7, 1⟩ ⟨7, 2⟩)).2 d := by
  have hrun : StreamRuns (KeepsLane 1) oneStream _ _ :=
    Runs.play .start (joiningProgram ⟨7, 1⟩ ⟨7, 2⟩) (by
    refine ⟨⟨⟨?_, allSucceed_roomy⟩, by decide⟩, ⟨⟨?_, allSucceed_roomy⟩, by decide⟩,
      ⟨⟨?_, allSucceed_roomy⟩, by decide⟩, ⟨⟨?_, allSucceed_roomy⟩, by decide⟩, trivial⟩
    all_goals
      intro a h
      cases h
      exact ⟨_, rfl⟩)
  let t := trace (play StreamCall.run oneStream [] (joiningProgram ⟨7, 1⟩ ⟨7, 2⟩)).2
  have h₁ : Interleaves submission (fun e d ↦ Answers e d ∧ Inherits 0 e d) (· ≠ 0) newDevice _ _ :=
    Interleaves.boot.event (happens allSucceed 0 (.queueBarrier 4 affinityAny [⟨7, 1⟩] [⟨0, 1⟩]))
      (by
      refine ⟨answers_of_unasked rfl, ?_⟩
      intro x _ _ _ y hy
      cases hy)
  have h₂ := h₁.event (happens allSucceed 1 (.queueBarrier 4 affinityAny [⟨7, 2⟩] [⟨0, 2⟩])) (by
    refine ⟨answers_of_unasked rfl, ?_⟩
    intro x hx _ _ y hy _ v _ p hp
    obtain rfl := Option.some.inj hx
    obtain rfl := List.mem_singleton.mp hy
    obtain rfl := List.mem_singleton.mp hp
    exact .inr ⟨⟨7, 2⟩, List.mem_singleton_self _, .inr ⟨rfl, by decide⟩⟩)
  have hplain : ∀ e ∈ t.drop 2, isSemaphoreWait e.call = false ∧ isQueueBarrier e.call = false := by
    decide
  have h₃ := h₂.calls (t.drop 2) fun e he xs ↦ ⟨answers_of_unasked (hplain e he).1,
    fun x hx hjob ↦ absurd hjob (job_ne_barrier (hplain e he).2 hx)⟩
  have h₄ :=
    (((h₃.raise ⟨7, 2⟩ (by decide)).start (secondBarrier ⟨7, 2⟩) (by decide) (by decide)).finish
    (secondBarrier ⟨7, 2⟩) (by simp [Device.start])
    (by simp [Device.start, Device.raise, Device.accept, newDevice])).start joinedWork
    (by decide) (by decide)
  exact ⟨_, by simp [Device.start], dependencies_kept oneStream_fresh hrun
    (by decide) newDevice_idle rfl
    (List.prefix_refl _) h₄⟩

/-- The second position is reached first. Its barrier ends, and the work behind both starts before
the first position is reached. -/
theorem dependency_lost :
    ¬ ∀ mem₀ mem a s l t d₀ d, FreshStream mem₀ a s →
      StreamRuns (fun n mem k o ↦ Usual n mem k o ∧ k.skips = false) mem₀ mem l →
      l.length < 2 ^ 64 →
      d₀.Idle → d₀.value s = 0 → t <+: trace l → Interleaves submission Answers (· ≠ s) d₀ t d →
      DependenciesKept a s l d := by
  intro h
  have hrun : StreamRuns (fun n mem k o ↦ Usual n mem k o ∧ k.skips = false) oneStream _ _ :=
    Runs.play .start (joiningProgram ⟨7, 1⟩ ⟨8, 1⟩) (by
      refine ⟨⟨⟨?_, allSucceed_roomy⟩, rfl⟩, ⟨⟨?_, allSucceed_roomy⟩, rfl⟩,
        ⟨⟨?_, allSucceed_roomy⟩, rfl⟩, ⟨⟨?_, allSucceed_roomy⟩, rfl⟩, trivial⟩
      all_goals
        intro a h
        cases h
        exact ⟨_, rfl⟩)
  let l := (play StreamCall.run oneStream [] (joiningProgram ⟨7, 1⟩ ⟨8, 1⟩)).2
  have hnowait : ∀ e ∈ trace l, isSemaphoreWait e.call = false := by decide
  have hd : Interleaves submission Answers (· ≠ 0) newDevice _ _ :=
    ((((Interleaves.boot.calls (trace l) fun e he _ ↦ answers_of_unasked (hnowait e he)).raise
      ⟨8, 1⟩
      (by decide)).start (secondBarrier ⟨8, 1⟩) (by decide) (by decide)).finish
      (secondBarrier ⟨8, 1⟩)
      (by simp [Device.start]) (by simp [Device.start, Device.raise, newDevice])).start joinedWork
      (by decide) (by decide)
  have hkept :=
    h oneStream _ 1 0 l (trace l) newDevice _ oneStream_fresh hrun (by decide) newDevice_idle rfl
    (List.prefix_refl _) hd
  have hreached := hkept [] _ (l.drop 1) ⟨9, 7⟩ 1 rfl rfl rfl joinedWork (by decide) (by decide)
    (by simp [Device.start])
  revert hreached
  decide

end HrxSystem.Libhrx
