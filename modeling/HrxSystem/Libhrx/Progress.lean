import HrxSystem.Timeline.Progress
import HrxSystem.Libhrx.StreamQueries

namespace HrxSystem.Libhrx

open External Program Counting HrxStreamS Timeline

variable {o : Outside} {n a : ℕ} {s : Obj} {t : Trace} {st : HrxStreamS} {mem mem₀ : Memory}
  {k : StreamCall}
variable {l : StreamLog} {d₀ d : Device Obj Work}

section Barriers

def barsFor (ps : List SemaphorePoint) : Call → Prop
  | .queueBarrier _ _ waits _ => waits ∈ ps.map fun p ↦ [p]
  | _ => True

theorem barsFor_of_quiet {ps : List SemaphorePoint} (c : Call) (h : quiet c = true) :
    barsFor ps c := by
  cases c <;> first | exact trivial | cases h

theorem barsFor_of_flushesOnly {ps : List SemaphorePoint} (c : Call) (h : flushesOnly c = true) :
    barsFor ps c := by
  cases c <;> first | exact trivial | cases h

def StreamOp.positions : StreamOp → List SemaphorePoint
  | .waitOn sem value => [⟨sem.hal, value⟩]
  | _ => []

theorem StreamOp.run_barriers (op : StreamOp) (shared : SharedState) :
    Confined (fun _ ↦ ()) (barsFor op.positions) (op.run shared) := by
  cases op with
  | record command =>
    exact (returning_flushesOnly (record_flushesOnly command)).calls barsFor_of_flushesOnly
  | executionBarrier =>
    exact (returning_flushesOnly executionBarrier_flushesOnly).calls barsFor_of_flushesOnly
  | flush => exact (returning_flushesOnly flushInner_flushesOnly).calls barsFor_of_flushesOnly
  | synchronize =>
    have hsync : FlushesOnly HrxStreamS.synchronize :=
      .bind flushInner_flushesOnly fun _ ↦ .ite (.pure _) wait_flushesOnly
    exact (returning_flushesOnly hsync).calls barsFor_of_flushesOnly
  | wait => exact (returning_flushesOnly wait_flushesOnly).calls barsFor_of_flushesOnly
  | query => exact query_flushesOnly.calls barsFor_of_flushesOnly
  | getSemaphore | getDevice | getTimelinePosition => exact .bind .state fun _ ↦ .pure _
  | advanceTimeline => exact .bind (.update fun _ ↦ rfl) fun _ ↦ .bind .state fun _ ↦ .pure _
  | waitOn sem value =>
    refine .bind (.bind (flushInner_flushesOnly.calls barsFor_of_flushesOnly) fun _ ↦
      .ite (.pure _) ?_) fun _ ↦ .pure _
    refine .bind .state fun st ↦ .bind (.call ?_) fun _ ↦
      .ite ((hrxStatusFromIree_aside _).calls barsFor_of_quiet) ?_
    · exact List.mem_singleton_self _
    · exact .bind (.update fun _ ↦ rfl) fun _ ↦ .pure _
  | bufferAllocate size memType usage =>
    refine .bind (.bind .state fun _ ↦ .bind (.call trivial) fun _ ↦ .ite ?_ ?_) fun _ ↦ .pure _
    · exact ((hrxError_aside _ _).calls barsFor_of_quiet).bind fun _ ↦ .pure _
    · refine .bind (flushInner_flushesOnly.calls barsFor_of_flushesOnly) fun _ ↦ .ite (.pure _) ?_
      exact queueAlloca_calls barsFor_of_quiet (fun _ _ _ _ _ _ ↦ trivial) shared _ size

theorem StreamOp.of_barsFor {op : StreamOp} {d f : ℕ} {waits signals : List SemaphorePoint}
    (h : barsFor op.positions (.queueBarrier d f waits signals)) :
    ∃ sem value, op = .waitOn sem value ∧ waits = [⟨sem.hal, value⟩] := by
  cases op with
  | waitOn sem value => exact ⟨sem, value, rfl, List.mem_singleton.mp h⟩
  | _ => cases h

theorem StreamCall.resolve_waitOn {sem : SemaphorePtr} {value : ℕ}
    (hk : k.resolve = some (a, .waitOn sem value)) :
    k = .waitOn (some a) ⟨some sem, value⟩ := by
  unfold StreamCall.resolve at hk
  split at hk
  case h_5 =>
    split at hk
    · split at hk <;> cases hk
    · cases hk
  case h_15 => split at hk <;> cases hk
  all_goals cases hk
  rfl

theorem drop_flushesOnly : FlushesOnly HrxStreamS.drop := by
  have htail : FlushesOnly awaitTimeline := awaitTimeline_aside.calls fun _ ↦ flushesOnly_of_quiet
  refine .bind (.bind .state fun _ ↦ .ite (.bind flushInner_flushesOnly fun _ ↦ htail) htail)
    fun _ ↦
    .bind .state fun st ↦ ?_
  cases st.pendingCb with
  | none => exact .pure _
  | some cb => exact .bind (.call rfl) fun _ ↦ .pure _

theorem release_flushesOnly {arc : Arc HrxStreamS} (ha : mem.streams.cell a = some arc) :
    ∀ e ∈ ((StreamCall.release a).run.run o n mem).events, flushesOnly e.call = true := by
  obtain ⟨strong, st⟩ := arc
  by_cases hs : strong ≤ 1
  · rw [run_release_last hs ha]
    intro e he
    obtain he | he := List.mem_append.mp he
    · exact (drop_flushesOnly o n st).2 e he
    · have htail : Confined (fun _ ↦ ()) (fun c ↦ quiet c = true) (teardown st) :=
        teardown_confined (fun _ _ ↦ rfl) (fun _ _ ↦ rfl) st
      exact flushesOnly_of_quiet ((htail _ _ _).2 e he)
  · rw [run_release_shared hs ha]
    simp

/-- A barrier comes from a call of `hrx_stream_wait_on`, and waits for its position. -/
theorem StreamCall.run_barrier (hu : Usual n mem k o) {e : Happened}
    (he : e ∈ (k.run.run o n mem).events) {d f : ℕ} {waits signals : List SemaphorePoint}
    (hc : e.call = .queueBarrier d f waits signals) :
    ∃ b sem value, k = .waitOn (some b) ⟨some sem, value⟩ ∧ waits = [⟨sem.hal, value⟩] := by
  obtain ⟨hlive, ho⟩ := hu
  have hnot : flushesOnly e.call ≠ true := by
    rw [hc]
    exact Bool.false_ne_true
  by_cases hretain : ∃ b, k = .retain b
  · obtain ⟨b, rfl⟩ := hretain
    simp [StreamCall.run, hrxStreamRetain, handleRetain] at he
  by_cases hrelease : ∃ b, k = .release b
  · obtain ⟨b, rfl⟩ := hrelease
    obtain ⟨arc, harc⟩ := hlive b rfl
    exact absurd (release_flushesOnly harc e he) hnot
  rw [not_exists] at hretain hrelease
  cases hres : k.resolve with
  | none =>
    obtain ⟨err, hr⟩ := run_unresolved n mem ho hres hretain hrelease
    rw [hr] at he
    rw [List.mem_singleton.mp he] at hc
    cases hc
  | some p =>
    obtain ⟨b, op⟩ := p
    obtain ⟨arc, harc⟩ := hlive b (stream_of_resolve hres)
    obtain ⟨-, -, -, tail, hevents, htail⟩ := run_resolved (o := o) (n := n) hres harc
    rw [hevents] at he
    obtain he | he := List.mem_append.mp he
    · have hbars := (op.run_barriers mem.globals.shared o n arc.data).2 e he
      rw [hc] at hbars
      obtain ⟨sem, value, rfl, rfl⟩ := StreamOp.of_barsFor hbars
      exact ⟨b, sem, value, resolve_waitOn hres, rfl⟩
    · exact absurd (flushesOnly_of_quiet (htail e he)) hnot

end Barriers

def OwnSemaphore (mem₀ : Memory) (s : Obj) : Prop :=
  ∃ a arc, mem₀.streams.cell a = some arc ∧ arc.data.semaphore.hal = s

def FreshStreams (mem₀ : Memory) : Prop :=
  ∀ a arc, mem₀.streams.cell a = some arc → FreshStream mem₀ a arc.data.semaphore.hal

/-- The call keeps the timeline of its stream without gaps. -/
def Undisturbed (n : ℕ) (mem : Memory) (k : StreamCall) (o : Outside) : Prop :=
  Usual n mem k o ∧ k.skips = false ∧ ¬ Lost (k.run.run o n mem).events

theorem Undisturbed.keepsLane (h : Undisturbed n mem k o) (a : ℕ) : KeepsLane a n mem k o :=
  ⟨h.1, fun _ ↦ h.2⟩

/-- Some call of `hrx_stream_get_timeline_position` has read position `p` or a later one. -/
def PositionRead (l : StreamLog) (p : SemaphorePoint) : Prop :=
  ∃ r ∈ l, ∃ a sem value, r.call = .getTimelinePosition (some a) true ∧
    r.result.val = ⟨none, .point sem value⟩ ∧ sem.hal = p.semaphore ∧ p.value ≤ value

/-- Streams wait only for positions on their timelines that were read before. -/
def WaitsForRead (mem₀ : Memory) (l : StreamLog) : Prop :=
  ∀ l₁ e l₂ b sem value, l = l₁ ++ e :: l₂ → e.call = .waitOn (some b) ⟨some sem, value⟩ →
    OwnSemaphore mem₀ sem.hal → PositionRead l₁ ⟨sem.hal, value⟩

theorem Steps.signals_own {st' : HrxStreamS} {es : Trace} (h : Steps n st es st') :
    ∀ x ∈ submissions es, x.signalsOn st.semaphore.hal = true := by
  induction h with
  | nil => simp
  | cons hr _ ih =>
    intro x hx
    rw [submissions_append, List.mem_append] at hx
    obtain hx | hx := hx
    · obtain ⟨hnone, -⟩ | ⟨y, hone, hsig, -⟩ := hr.submits
      · rw [hnone] at hx
        cases hx
      · rw [hone, List.mem_singleton] at hx
        simp [hx, Submission.signalsOn, hsig, signalList]
    · rw [← hr.fixed.1]
      exact ih x hx

theorem Lives.signals_own {arc : Arc HrxStreamS} {es : Trace} {cell' : Option (Arc HrxStreamS)}
    (h : Lives k n arc es cell') :
    ∀ x ∈ submissions es, x.signalsOn arc.data.semaphore.hal = true := by
  cases h with
  | walked _ hsteps _ => exact hsteps.signals_own
  | skipped _ hes =>
    rw [submissions_of_quiet hes]
    simp
  | dropped _ h _ _ hfs htail =>
    rw [submissions_append, submissions_append, submissions_append, submissions_of_quiet hfs,
      submissions_of_quiet htail, leftover_submissions, List.append_nil, List.append_nil,
      List.append_nil]
    exact (steps_of_one h).signals_own

/-- All streams are streams of the start, and everything submitted is on their timelines. -/
structure OnTimelines (mem₀ mem : Memory) (t : Trace) : Prop where
  streams : ∀ a arc, mem.streams.cell a = some arc →
    ∃ arc₀, mem₀.streams.cell a = some arc₀ ∧ arc₀.data.semaphore = arc.data.semaphore
  submissions : ∀ x ∈ submissions t, ∃ s, OwnSemaphore mem₀ s ∧ x.signalsOn s = true

theorem OnTimelines.call (h : OnTimelines mem₀ mem t) (hu : Usual n mem k o) :
    OnTimelines mem₀ (k.run.run o n mem).state (t ++ (k.run.run o n mem).events) := by
  obtain ⟨hlive, ho⟩ := hu
  cases hk : k.stream with
  | none =>
    obtain ⟨err, hr⟩ := StreamCall.run_null n mem ho hk
    rw [hr]
    refine ⟨h.streams, ?_⟩
    rw [submissions_append, submissions_payload, List.append_nil]
    exact h.submissions
  | some a =>
    obtain ⟨arc, harc⟩ := hlive a hk
    obtain ⟨arc₀, harc₀, hsem⟩ := h.streams a arc harc
    obtain ⟨hlives, hrest⟩ := StreamCall.run_lives (n := n) ho hk harc
    constructor
    · intro b arc' harc'
      by_cases hba : b = a
      · subst hba
        exact ⟨arc₀, harc₀, by rw [hlives.semaphore_eq harc', hsem]⟩
      · rw [hrest b hba] at harc'
        exact h.streams b arc' harc'
    · intro x hx
      rw [submissions_append, List.mem_append] at hx
      obtain hx | hx := hx
      · exact h.submissions x hx
      · exact ⟨_, ⟨a, arc₀, harc₀, congrArg _ hsem⟩, hlives.signals_own x hx⟩

theorem OnTimelines.of_run (h : StreamRuns Undisturbed mem₀ mem l) :
    OnTimelines mem₀ mem (trace l) := by
  refine Runs.keeps (I := fun mem l ↦ OnTimelines mem₀ mem (trace l))
    ⟨fun a arc harc ↦ ⟨arc, harc, rfl⟩, by simp⟩ ?_ h
  intro mem l k o hinv hk
  rw [trace_append, trace_single]
  exact hinv.call hk.1

theorem LaneInv.signals (h : LaneInv a s mem l) (hlen : l.length < 2 ^ 64) (ht : t <+: trace l)
    {v : ℕ} (hpos : 0 < v) (hv : v ≤ (lane s t).length) :
    ∃ y ∈ submissions t, y.signals = [⟨s, v⟩] := by
  have hlt : v - 1 < (lane s t).length := by omega
  have hy := List.getElem?_eq_getElem hlt
  obtain ⟨hsignals, -⟩ := h.numbered hlen ht hy
  rw [Nat.sub_add_cancel hpos] at hsignals
  exact ⟨_, (Timeline.mem_lane.mp (List.getElem_mem hlt)).1, hsignals⟩

/-- A position that was read is a value of its lane. -/
theorem PositionRead.submitted (hfresh : FreshStreams mem₀) (h : StreamRuns Undisturbed mem₀ mem l)
    (hlen : l.length < 2 ^ 64) {p : SemaphorePoint} (hp : PositionRead l p) (hpos : 0 < p.value) :
    ∃ y ∈ submissions (trace l), ∃ q ∈ y.signals, q.semaphore = p.semaphore ∧
      p.value ≤ q.value := by
  obtain ⟨r, hr, a, sem, value, hcall, hval, hsem, hle⟩ := hp
  obtain ⟨l₁, l₂, hl⟩ := List.append_of_mem hr
  obtain ⟨hbefore, -, o, hk, hresult⟩ := h.upTo hl
  have hlen₁ := length_upTo hl hlen
  rw [hcall] at hk hresult
  obtain ⟨arc, harc⟩ := hk.1.1 a rfl
  obtain ⟨arc₀, harc₀, hsem₀⟩ := (OnTimelines.of_run hbefore).streams a arc harc
  have hinv := KeepsLane.inv (hfresh a arc₀ harc₀) (hbefore.mono fun _ _ _ _ hk ↦ hk.keepsLane a)
  obtain ⟨-, htp⟩ := hinv.timepoint arc harc
  have hread : arc.data.semaphore = sem ∧ arc.data.timepoint = value := by
    rw [hresult] at hval
    simpa [StreamCall.run, hrxStreamGetTimelinePosition, run_onStream harc, hrxOkStatus] using hval
  obtain ⟨rfl, rfl⟩ := hread
  rw [hsem₀] at hinv htp
  have hle' := hinv.length_le
  have hlt : l₁.length < 2 ^ 64 := by
    rw [List.length_append] at hlen₁
    omega
  obtain ⟨y, hy, hsignals⟩ :=
    hinv.signals hlt (List.prefix_refl _) (v := arc.data.timepoint) (by omega) (by
    rw [htp]
    exact Nat.mod_le _ _)
  refine ⟨y, ?_, _, by rw [hsignals]; exact List.mem_singleton_self _, hsem, hle⟩
  rw [hl, trace_append, submissions_append]
  exact List.mem_append_left _ hy

theorem trace_split {l : StreamLog} {t₁ t₂ : Trace} {e : Happened} (h : trace l = t₁ ++ e :: t₂) :
    ∃ l₁ r l₂, l = l₁ ++ r :: l₂ ∧ trace l₁ <+: t₁ ∧ e ∈ r.result.events := by
  induction l generalizing t₁ with
  | nil => simp at h
  | cons r l ih =>
    change r.result.events ++ trace l = t₁ ++ e :: t₂ at h
    obtain ⟨us, hus, htl⟩ | ⟨us, hus, htl⟩ := List.append_eq_append_iff.mp h
    · obtain ⟨l₁, r', l₂, rfl, hpre, he⟩ := ih htl
      refine ⟨r :: l₁, r', l₂, rfl, ?_, he⟩
      rw [hus]
      exact (List.prefix_append_right_inj _).mpr hpre
    · cases us with
      | nil =>
        have hstart : trace l = [] ++ e :: t₂ := htl.symm
        obtain ⟨l₁, r', l₂, rfl, hpre, he⟩ := ih hstart
        refine ⟨r :: l₁, r', l₂, rfl, ?_, he⟩
        rw [List.append_nil] at hus
        change r.result.events ++ trace l₁ <+: t₁
        rw [hus, List.prefix_nil.mp hpre, List.append_nil]
      | cons f us =>
        obtain ⟨rfl, -⟩ := List.cons.inj htl
        exact ⟨[], r, l, rfl, List.nil_prefix, by rw [hus]; simp⟩

theorem submissions_split {ys zs : List (Submission Obj Work)} {x : Submission Obj Work}
    (h : submissions t = ys ++ x :: zs) :
    ∃ t₁ e t₂, t = t₁ ++ e :: t₂ ∧ submissions t₁ = ys ∧ submission e = some x := by
  obtain ⟨t₁, t', rfl, hys, h'⟩ := List.filterMap_eq_append_iff.mp h
  obtain ⟨t₂, e, t₃, rfl, hnone, hx, -⟩ := List.filterMap_eq_cons_iff.mp h'
  refine ⟨t₁ ++ t₂, e, t₃, by simp, ?_, hx⟩
  rw [submissions_append, submissions, hys, submissions, List.filterMap_eq_nil_iff.mpr hnone,
    List.append_nil]

theorem barrier_call {e : Happened} {x : Submission Obj Work} (h : submission e = some x)
    (hjob : x.payload.job = .barrier) : ∃ d f, e.call = .queueBarrier d f x.waits x.signals := by
  unfold submission at h
  split at h
  · split at h
    · cases h
      cases hjob
    · rename_i d f waits signals hc
      cases h
      exact ⟨d, f, hc⟩
    · cases h
      cases hjob
    · cases h
  · cases h

/-- The submissions of a run wait only for the ones before them and for the semaphores of others. -/
theorem submissions_grounded (hfresh : FreshStreams mem₀) (h : StreamRuns Undisturbed mem₀ mem l)
    (hlen : l.length < 2 ^ 64) (hread : WaitsForRead mem₀ l) :
    Grounded (fun s ↦ ¬ OwnSemaphore mem₀ s) (submissions (trace l)) := by
  intro ys x zs hxs w hw
  obtain ⟨t₁, e, t₂, ht, rfl, hx⟩ := submissions_split hxs
  obtain ⟨s, ⟨a, arc, harc, rfl⟩, hon⟩ := (OnTimelines.of_run h).submissions x (by rw [hxs]; simp)
  by_cases hjob : x.payload.job = .barrier
  · obtain ⟨d, f, hc⟩ := barrier_call hx hjob
    obtain ⟨l₁, r, l₂, hl, hpre, he⟩ := trace_split ht
    obtain ⟨hbefore, -, o, hk, hresult⟩ := h.upTo hl
    rw [hresult] at he
    obtain ⟨b, sem, value, hcall, hwaits⟩ := StreamCall.run_barrier hk.1 he hc
    rw [hwaits, List.mem_singleton] at hw
    subst hw
    by_cases howned : OwnSemaphore mem₀ sem.hal
    swap
    · exact .inl howned
    obtain hzero | hpos := Nat.eq_zero_or_pos value
    · exact .inr (.inl hzero)
    have hlen₁ := length_upTo hl hlen
    rw [List.length_append] at hlen₁
    obtain ⟨y, hy, q, hq, hs, hle⟩ :=
      (hread l₁ r l₂ b sem value hl hcall howned).submitted hfresh hbefore
      (by omega) hpos
    exact .inr (.inr ⟨y, (hpre.filterMap submission).subset hy, q, hq, hs, hle⟩)
  · -- Work waits for the last value of its lane.
    have hinv := KeepsLane.inv (hfresh a arc harc) (h.mono fun _ _ _ _ hk ↦ hk.keepsLane a)
    have hlast : (lane arc.data.semaphore.hal (trace l))[(lane arc.data.semaphore.hal t₁).length]? =
        some x := by
      rw [ht, lane_append, List.getElem?_append_right le_rfl, Nat.sub_self, lane, submissions,
        List.filterMap_cons_some hx, List.filter_cons, if_pos hon]
      rfl
    have hlt := (List.getElem?_eq_some_iff.mp hlast).1
    have hle := hinv.length_le
    have hwaits := (hinv.laned _ _ hlast).waits hjob
    rw [Nat.mod_eq_of_lt (by omega)] at hwaits
    rw [hwaits] at hw
    split at hw
    · rename_i hpos
      obtain rfl := List.mem_singleton.mp hw
      obtain ⟨y, hy, hsignals⟩ := hinv.signals hlen ⟨_, ht.symm⟩ hpos le_rfl
      exact .inr (.inr ⟨y, hy, _, by rw [hsignals]; exact List.mem_singleton_self _, rfl, le_rfl⟩)
    · cases hw

variable {sees : Happened → Device Obj Work → Prop}

/-- Streams that wait only for positions they have read never hang: from every state of the device
all that was accepted can still be done, and then the timeline of each stream is complete. While
something is left to do, and others have reached what is awaited of them, the device has something
to do. -/
theorem streams_never_stuck (hfresh : FreshStreams mem₀) (h : StreamRuns Undisturbed mem₀ mem l)
    (hlen : l.length < 2 ^ 64) (hread : WaitsForRead mem₀ l) (hidle : d₀.Idle) (ht : t <+: trace l)
    (hd : Interleaves submission sees (fun s ↦ ¬ OwnSemaphore mem₀ s) d₀ t d) :
    (∃ d', Works (fun s ↦ ¬ OwnSemaphore mem₀ s) d d' ∧ (∀ x ∈ submissions t, x ∈ d'.done) ∧
      (t = trace l → ∀ a arc, mem.streams.cell a = some arc →
        d'.Reached ⟨arc.data.semaphore.hal, arc.data.timepoint⟩)) ∧
    ((∀ x ∈ submissions t, ∀ w ∈ x.waits, ¬ OwnSemaphore mem₀ w.semaphore → d.Reached w) →
      (∀ x ∈ submissions t, x ∈ d.done) ∨
        ∃ x ∈ submissions t, x ∉ d.done ∧ ∀ w ∈ x.waits, d.Reached w) := by
  have hgrounded : Grounded (fun s ↦ ¬ OwnSemaphore mem₀ s) (submissions t) := by
    obtain ⟨u, hu⟩ := ht
    have hall := submissions_grounded hfresh h hlen hread
    rw [← hu, submissions_append] at hall
    exact hall.left
  have hacc : ∀ x ∈ submissions t, x ∈ d.accepted := by
    rw [hd.accepted hidle]
    exact fun _ hx ↦ hx
  refine ⟨?_, (hd.lawful hidle).busy hgrounded⟩
  obtain ⟨d', hworks, hdone⟩ := hd.completes hidle hgrounded hacc
  refine ⟨d', hworks, hdone, ?_⟩
  rintro rfl a arc harc
  obtain ⟨arc₀, harc₀, hsem⟩ := (OnTimelines.of_run h).streams a arc harc
  have hinv := KeepsLane.inv (hfresh a arc₀ harc₀) (h.mono fun _ _ _ _ hk ↦ hk.keepsLane a)
  rw [hsem] at hinv
  obtain ⟨-, htp⟩ := hinv.timepoint arc harc
  have hle := hinv.length_le
  rw [Nat.mod_eq_of_lt (by omega)] at htp
  obtain hzero | hpos := Nat.eq_zero_or_pos arc.data.timepoint
  · rw [Device.Reached, hzero]
    exact Nat.zero_le _
  · obtain ⟨y, hy, hsignals⟩ := hinv.signals hlen (List.prefix_refl _) hpos htp.le
    exact ((hd.works hworks).lawful hidle).signalled y (hdone y hy) _
      (by rw [hsignals]; exact List.mem_singleton_self _)

def twoStreams : Memory :=
  { oneStream with
    semaphores := oneStream.semaphores.put 2 (some ⟨1, ⟨1, ⟨1, 4, 2, 3⟩⟩⟩)
    streams := oneStream.streams.put 2 (some ⟨1, ⟨0, none, false, 0, ⟨2, 1⟩, ⟨1, 4, 2, 3⟩⟩⟩) }

theorem twoStreams_cases {b : ℕ} {arc : Arc HrxStreamS} (h : twoStreams.streams.cell b = some arc) :
    b = 1 ∧ arc = ⟨1, ⟨0, none, false, 0, ⟨1, 0⟩, ⟨1, 4, 2, 3⟩⟩⟩ ∨
      b = 2 ∧ arc = ⟨1, ⟨0, none, false, 0, ⟨2, 1⟩, ⟨1, 4, 2, 3⟩⟩⟩ := by
  by_cases h₂ : b = 2
  · subst h₂
    exact .inr ⟨rfl, (Option.some.inj h).symm⟩
  rw [twoStreams, Heap.put_cell_of_ne _ _ h₂] at h
  by_cases h₁ : b = 1
  · subst h₁
    exact .inl ⟨rfl, (Option.some.inj h).symm⟩
  · rw [oneStream, Heap.put_cell_of_ne _ _ h₁] at h
    cases h

theorem twoStreams_fresh : FreshStreams twoStreams := by
  intro a arc harc
  obtain ⟨rfl, rfl⟩ | ⟨rfl, rfl⟩ := twoStreams_cases harc
  all_goals
    refine ⟨⟨1, _, harc, rfl, rfl, rfl, rfl⟩, ?_⟩
    intro b arc' hb harc'
    obtain ⟨rfl, rfl⟩ | ⟨rfl, rfl⟩ := twoStreams_cases harc'
    all_goals first | exact absurd rfl hb | decide

def joinedStreams : List (StreamCall × Outside) :=
  [(.executionBarrier (some 1), allSucceed), (.flush (some 1), allSucceed),
    (.getTimelinePosition (some 1) true, allSucceed),
    (.waitOn (some 2) ⟨some ⟨1, 0⟩, 1⟩, allSucceed),
    (.executionBarrier (some 2), allSucceed), (.flush (some 2), allSucceed)]

theorem streams_never_stuck_joined :
    ∃ d' : Device Obj Work,
      (∀ x ∈ submissions (trace (play StreamCall.run twoStreams [] joinedStreams).2), x ∈ d'.done) ∧
      d'.Reached ⟨1, 2⟩ := by
  have hrun : StreamRuns Undisturbed twoStreams _ _ := Runs.play .start joinedStreams (by
    refine ⟨⟨⟨?_, allSucceed_roomy⟩, rfl, by decide⟩, ⟨⟨?_, allSucceed_roomy⟩, rfl, by decide⟩,
      ⟨⟨?_, allSucceed_roomy⟩, rfl, by decide⟩, ⟨⟨?_, allSucceed_roomy⟩, rfl, by decide⟩,
      ⟨⟨?_, allSucceed_roomy⟩, rfl, by decide⟩, ⟨⟨?_, allSucceed_roomy⟩, rfl, by decide⟩, trivial⟩
    all_goals
      intro a h
      cases h
      exact ⟨_, rfl⟩)
  let l := (play StreamCall.run twoStreams [] joinedStreams).2
  have hread : WaitsForRead twoStreams l := by
    intro l₁ e l₂ b sem value hl hcall _
    have hcalls :
        (joinedStreams.map Prod.fst)[l₁.length]? = some (.waitOn (some b) ⟨some sem, value⟩) := by
      have hmap : joinedStreams.map Prod.fst = l.map Entry.call := rfl
      rw [hmap, hl, ← hcall]
      simp
    have htake : l₁ = l.take l₁.length := by
      rw [hl]
      simp
    have hlt : l₁.length < 6 := (List.getElem?_eq_some_iff.mp hcalls).1
    obtain hi | hi | hi | hi | hi | hi :
      l₁.length = 0 ∨ l₁.length = 1 ∨ l₁.length = 2 ∨ l₁.length = 3 ∨
        l₁.length = 4 ∨ l₁.length = 5 := by omega
    case inr.inr.inr.inl =>
      rw [hi] at hcalls htake
      cases hcalls
      rw [htake]
      exact ⟨_, List.mem_of_getElem? (i := 2) rfl, 1, ⟨1, 0⟩, 1, rfl, rfl, rfl, le_rfl⟩
    all_goals
      rw [hi] at hcalls
      cases hcalls
  have hdevice :
      Interleaves submission (fun _ _ ↦ True) (fun s ↦ ¬ OwnSemaphore twoStreams s) newDevice
        (trace l) _ :=
    Interleaves.boot.calls (trace l) (by simp)
  obtain ⟨⟨d', -, hdone, htimelines⟩, -⟩ :=
    streams_never_stuck twoStreams_fresh hrun (by decide) hread
    newDevice_idle (List.prefix_refl _) hdevice
  exact ⟨d', hdone, htimelines rfl 2 _ rfl⟩

end HrxSystem.Libhrx
