import HrxSystem.Libhrx.StreamLives
import Mathlib.Data.List.Perm.Basic

namespace HrxSystem.Libhrx

open External Program Counting HrxStreamS Timeline

def signalled (s : Obj) (t : Trace) : List ℕ :=
  (submissions t).flatMap fun x ↦ x.signals.filterMap fun p ↦
    if p.semaphore = s then some p.value else none

def StreamCall.handed (a : ℕ) : StreamCall → Written → Option ℕ
  | .advanceTimeline (some b) true, .number v => if b = a then some v else none
  | _, _ => none

def handedOut (a : ℕ) (l : StreamLog) : List ℕ :=
  l.filterMap fun e ↦ e.call.handed a e.result.val.written

@[simp] theorem signalled_nil (s : Obj) : signalled s [] = [] := rfl

@[simp] theorem signalled_append (s : Obj) (t u : Trace) :
    signalled s (t ++ u) = signalled s t ++ signalled s u := by
  simp [signalled]

@[simp] theorem handedOut_nil (a : ℕ) : handedOut a [] = [] := rfl

@[simp] theorem handedOut_append (a : ℕ) (l m : StreamLog) :
    handedOut a (l ++ m) = handedOut a l ++ handedOut a m := List.filterMap_append

theorem signalled_of_quiet {es : Trace} (h : ∀ e ∈ es, quiet e.call = true) (s : Obj) :
    signalled s es = [] := by
  rw [signalled, submissions_of_quiet h]
  rfl

variable {n : ℕ} {st st' : HrxStreamS} {es : Trace} {s : Obj}

theorem Small.signalled_other (h : Small n st es st') (hs : st.semaphore.hal ≠ s) :
    signalled s es = [] := by
  obtain ⟨hsub, -⟩ | ⟨x, hsub, hsig, -, -⟩ := h.submits
  · simp [signalled, hsub]
  · simp [signalled, hsub, hsig, signalList, hs]

/-- Unless an alloca is lost, the timepoint follows what was signalled. -/
theorem Small.signalled_own (h : Small n st es st') (hl : ¬ Lost es) (hs : st.semaphore.hal = s) :
    (signalled s es = [] ∧ st'.timepoint = st.timepoint) ∨
      (signalled s es = [u64Add st.timepoint 1] ∧ st'.timepoint = u64Add st.timepoint 1) := by
  obtain ⟨hsub, htp⟩ | ⟨x, hsub, hsig, -, ⟨-, hlost⟩ | htp⟩ := h.submits
  · exact .inl ⟨by simp [signalled, hsub], htp⟩
  · exact absurd hlost hl
  · exact .inr ⟨by simp [signalled, hsub, hsig, signalList, hs], htp⟩

/-- The values used up so far are the first ones, in some order, and the
timepoint is the last of them. -/
structure Used (values : List ℕ) (timepoint : ℕ) : Prop where
  perm : values.Perm ((List.range' 1 values.length).map (· % 2 ^ 64))
  last : timepoint = values.length % 2 ^ 64

theorem Used.next {values values' : List ℕ} {timepoint : ℕ} (h : Used values timepoint)
    (hv : values'.Perm (u64Add timepoint 1 :: values)) : Used values' (u64Add timepoint 1) := by
  have hlen : values'.length = values.length + 1 := by simpa using hv.length_eq
  have hnext : u64Add timepoint 1 = (values.length + 1) % 2 ^ 64 := by
    rw [u64Add, h.last]
    omega
  refine ⟨?_, by rw [hnext, hlen]⟩
  rw [hlen, List.range'_1_concat, List.map_append, List.map_singleton]
  refine hv.trans ((h.perm.cons _).trans ?_)
  rw [hnext, Nat.add_comm 1 values.length]
  exact (List.perm_append_singleton _ _).symm

theorem Steps.semaphore_eq (h : Steps n st es st') : st'.semaphore = st.semaphore := by
  induction h with
  | nil => rfl
  | cons hr _ ih => rw [ih, hr.fixed.1]

theorem Steps.signalled_other (h : Steps n st es st') (hs : st.semaphore.hal ≠ s) :
    signalled s es = [] := by
  induction h with
  | nil => rfl
  | cons hr _ ih =>
    rw [signalled_append, hr.signalled_other hs, ih (by rwa [hr.fixed.1]), List.nil_append]

theorem Steps.signalled_le (h : Steps n st es st') :
    (signalled s es).length ≤ (submissions es).length := by
  induction h with
  | nil => exact le_rfl
  | @cons n st _ _ es _ hr _ ih =>
    rw [signalled_append, submissions_append, List.length_append, List.length_append]
    have hle : (signalled s es).length ≤ (submissions es).length := by
      obtain ⟨hsub, -⟩ | ⟨x, hsub, hsig, -, -⟩ := hr.submits
      · simp [signalled, hsub]
      · simp only [signalled, hsub, hsig, signalList, List.flatMap_cons, List.flatMap_nil,
          List.append_nil, List.length_singleton]
        exact List.length_filterMap_le _ _
    omega

theorem Steps.used {handed : List ℕ} {t : Trace} (h : Steps n st es st') (hl : ¬ Lost es)
    (hs : st.semaphore.hal = s) (hu : Used (signalled s t ++ handed) st.timepoint) :
    Used (signalled s (t ++ es) ++ handed) st'.timepoint := by
  have hw := Chain.within (Q := fun es ↦ ¬ Lost es) (fun _ _ ↦ not_lost_append) h hl
  refine (Chain.keeps (I := fun _ t st ↦ st.semaphore.hal = s ∧
    Used (signalled s t ++ handed) st.timepoint) ?_ hw ⟨hs, hu⟩).2
  rintro n t st es st' ⟨hsmall, hlost⟩ ⟨hs, hu⟩
  refine ⟨by rw [hsmall.fixed.1, hs], ?_⟩
  rw [signalled_append]
  obtain ⟨hsig, htp⟩ | ⟨hsig, htp⟩ := hsmall.signalled_own hlost hs
  · rw [hsig, htp, List.append_nil]
    exact hu
  · rw [hsig, htp]
    refine hu.next ?_
    rw [List.append_assoc, List.singleton_append]
    exact List.perm_middle

def owedAt (mem : Memory) (a : ℕ) : ℕ := (mem.streams.cell a).elim 0 fun arc ↦ owed arc.data

/-- The timeline of stream `a` on semaphore `s` after the calls of `l`. -/
structure TimelineInv (a : ℕ) (s : Obj) (mem : Memory) (l : StreamLog) : Prop where
  alone : ∀ b arc, b ≠ a → mem.streams.cell b = some arc → arc.data.semaphore.hal ≠ s
  used : ∃ timepoint, Used (signalled s (trace l) ++ handedOut a l) timepoint ∧
    ∀ arc, mem.streams.cell a = some arc → arc.data.semaphore.hal = s ∧
      arc.data.timepoint = timepoint
  spent : (signalled s (trace l)).length + (handedOut a l).length + owedAt mem a ≤ l.length

variable {a : ℕ} {mem mem₀ : Memory} {l : StreamLog} {k : StreamCall} {o : Outside}

theorem FreshStream.inv (h : FreshStream mem a s) : TimelineInv a s mem [] := by
  obtain ⟨⟨strong, st, hcell, htp, -, hw, hs⟩, halone⟩ := h
  refine ⟨halone, ⟨0, ⟨.refl _, rfl⟩, ?_⟩, ?_⟩
  · intro arc harc
    obtain rfl : _ = arc := Option.some.inj (hcell.symm.trans harc)
    exact ⟨hs, htp⟩
  · simp [owedAt, hcell, owed, hw]

def KeepsValues (n : ℕ) (mem : Memory) (k : StreamCall) (o : Outside) : Prop :=
  Usual n mem k o ∧ ¬ Lost (k.run.run o n mem).events

theorem handedOut_of_not_skips (hk : k.skips = false) (r : Outcome Call Answer Memory Returned) :
    handedOut a [⟨mem, k, r⟩] = [] := by
  have hnone : k.handed a r.val.written = none := by
    unfold StreamCall.handed
    split
    · cases hk
    · rfl
  simp [handedOut, hnone]

theorem handedOut_of_skips {arc : Arc HrxStreamS} (hk : k = .advanceTimeline (some a) true)
    (ha : mem.streams.cell a = some arc) :
    handedOut a [⟨mem, k, k.run.run o n mem⟩] = [u64Add arc.data.timepoint 1] := by
  subst hk
  have hr : ((StreamCall.advanceTimeline (some a) true).run.run o n mem).val.written =
      .number (u64Add arc.data.timepoint 1) := by
    simp [StreamCall.run, hrxStreamAdvanceTimeline, run_onStream ha, HrxStreamS.advanceTimeline]
  simp [handedOut, StreamCall.handed, hr]

theorem handedOut_of_ne (hb : k.stream ≠ some a) (r : Outcome Call Answer Memory Returned) :
    handedOut a [⟨mem, k, r⟩] = [] := by
  have hnone : k.handed a r.val.written = none := by
    unfold StreamCall.handed
    split
    · rename_i b v
      exact if_neg fun hab ↦ hb (congrArg some hab)
    · rfl
  simp [handedOut, hnone]

theorem leftover_submissions (o : Outside) (n : ℕ) (st : HrxStreamS) :
    submissions (leftover o n st) = [] := by
  unfold leftover
  split
  · rfl
  · simp [submissions, submission]

section Lives

variable {arc arc' : Arc HrxStreamS} {cell' : Option (Arc HrxStreamS)}

theorem Lives.semaphore_eq (h : Lives k n arc es cell') (harc' : cell' = some arc') :
    arc'.data.semaphore = arc.data.semaphore := by
  cases h with
  | walked _ hsteps _ =>
    obtain rfl := Option.some.inj harc'
    exact hsteps.semaphore_eq
  | skipped _ _ =>
    obtain rfl := Option.some.inj harc'
    rfl
  | dropped _ _ _ _ _ _ => cases harc'

theorem Lives.signalled_other (h : Lives k n arc es cell') (hs : arc.data.semaphore.hal ≠ s) :
    signalled s es = [] := by
  cases h with
  | walked _ hsteps _ => exact hsteps.signalled_other hs
  | skipped _ hes => exact signalled_of_quiet hes s
  | dropped _ h _ _ hfs htail =>
    have hleft : ∀ o n st, signalled s (leftover o n st) = [] := fun o n st ↦ by
      simp [signalled, leftover_submissions]
    rw [signalled_append, signalled_append, signalled_append,
      (steps_of_one h).signalled_other hs, hleft, signalled_of_quiet hfs, signalled_of_quiet htail]
    rfl

/-- One call on its own stream: what it signals and what it hands out are the
next values, and it uses up at most one value more than was owed. -/
theorem Lives.used {t : Trace} {handed new : List ℕ} (h : Lives k n arc es cell') (hl : ¬ Lost es)
    (hs : arc.data.semaphore.hal = s)
    (hu : Used (signalled s t ++ handed) arc.data.timepoint)
    (hnew : new = if k.skips = true then [u64Add arc.data.timepoint 1] else []) :
    (∃ timepoint, Used (signalled s (t ++ es) ++ (handed ++ new)) timepoint ∧
      ∀ arc', cell' = some arc' → arc'.data.timepoint = timepoint) ∧
    (signalled s es).length + new.length + (cell'.elim 0 fun arc' ↦ owed arc'.data) ≤
      owed arc.data + 1 := by
  cases h with
  | @walked strong strong' st st' es hk hsteps hspent =>
    obtain rfl : new = [] := by rw [hnew, if_neg (by simp [hk])]
    have hle := hsteps.signalled_le (s := s)
    rw [List.append_nil, List.length_nil]
    refine ⟨⟨st'.timepoint, hsteps.used hl hs hu, ?_⟩, ?_⟩
    · intro arc' harc'
      obtain rfl := Option.some.inj harc'
      rfl
    · simp only [Option.elim_some]
      omega
  | @skipped strong st es hk hes =>
    obtain rfl : new = [u64Add st.timepoint 1] := by rw [hnew, if_pos hk]
    rw [signalled_append, signalled_of_quiet hes, List.append_nil]
    refine ⟨⟨_, hu.next ?_, ?_⟩, ?_⟩
    · rw [← List.append_assoc]
      exact List.perm_append_singleton _ _
    · intro arc' harc'
      obtain rfl := Option.some.inj harc'
      rfl
    · simp only [List.length_nil, List.length_singleton, Option.elim_some, owed, advanced]
      omega
  | @dropped strong st st' o es fs tail hk h hspent _ hfs htail =>
    obtain rfl : new = [] := by rw [hnew, if_neg (by simp [hk])]
    have hsteps := steps_of_one h
    have hle := hsteps.signalled_le (s := s)
    have hles : ¬ Lost es := (not_lost_append (not_lost_append (not_lost_append hl).1).1).1
    have hrest : signalled s (fs ++ leftover o (n + (es ++ fs).length) st' ++ tail) = [] := by
      rw [signalled_append, signalled_append, signalled_of_quiet hfs, signalled_of_quiet htail]
      simp [signalled, leftover_submissions]
    have hused := hsteps.used hles hs hu
    rw [List.append_nil, List.length_nil, List.append_assoc es, List.append_assoc es,
      signalled_append s es, hrest, List.append_nil, ← List.append_assoc t,
      signalled_append s (t ++ es), hrest, List.append_nil]
    refine ⟨⟨st'.timepoint, hused, fun arc' harc' ↦ by cases harc'⟩, ?_⟩
    simp only [Option.elim_none]
    omega

end Lives

theorem TimelineInv.elsewhere (h : TimelineInv a s mem l) (hu : Usual n mem k o)
    (hk : k.stream ≠ some a) :
    signalled s (k.run.run o n mem).events = [] ∧
      (k.run.run o n mem).state.streams.cell a = mem.streams.cell a ∧
      ∀ b arc, b ≠ a → (k.run.run o n mem).state.streams.cell b = some arc →
        arc.data.semaphore.hal ≠ s := by
  obtain ⟨hlive, ho⟩ := hu
  cases hb : k.stream with
  | none =>
    obtain ⟨err, hr⟩ := StreamCall.run_null n mem ho hb
    rw [hr]
    exact ⟨signalled_of_quiet (by simp [payload, quiet]) s, rfl, h.alone⟩
  | some b =>
    obtain ⟨arc, hcell⟩ := hlive b hb
    obtain ⟨hlives, hrest⟩ := StreamCall.run_lives (n := n) ho hb hcell
    have hba : b ≠ a := fun hab ↦ hk (by rw [hb, hab])
    have hs := h.alone b arc hba hcell
    refine ⟨hlives.signalled_other hs, hrest a hba.symm, ?_⟩
    intro c arc' hca hc
    by_cases hcb : c = b
    · subst hcb
      rw [hlives.semaphore_eq hc]
      exact hs
    · rw [hrest c hcb] at hc
      exact h.alone c arc' hca hc

theorem TimelineInv.other (h : TimelineInv a s mem l) (hu : Usual n mem k o)
    (hk : k.stream ≠ some a) :
    TimelineInv a s (k.run.run o n mem).state (l ++ [⟨mem, k, k.run.run o n mem⟩]) := by
  obtain ⟨hsig, hcell, halone⟩ := h.elsewhere hu hk
  obtain ⟨tp, hused, htp⟩ := h.used
  have hspent := h.spent
  have howed : owedAt (k.run.run o n mem).state a = owedAt mem a := by rw [owedAt, hcell, owedAt]
  refine ⟨halone, ⟨tp, ?_, ?_⟩, ?_⟩
  · rw [trace_append, trace_single, signalled_append, hsig, handedOut_append, handedOut_of_ne hk,
      List.append_nil, List.append_nil]
    exact hused
  · rw [hcell]
    exact htp
  · rw [trace_append, trace_single, signalled_append, hsig, handedOut_append, handedOut_of_ne hk,
      List.append_nil, List.append_nil, howed, List.length_append]
    omega

theorem TimelineInv.own (h : TimelineInv a s mem l) (hu : KeepsValues n mem k o)
    (hk : k.stream = some a) :
    TimelineInv a s (k.run.run o n mem).state (l ++ [⟨mem, k, k.run.run o n mem⟩]) := by
  obtain ⟨⟨hlive, ho⟩, hlost⟩ := hu
  obtain ⟨arc, hcell⟩ := hlive a hk
  obtain ⟨hlives, hrest⟩ := StreamCall.run_lives (n := n) ho hk hcell
  obtain ⟨tp, hused, htp⟩ := h.used
  obtain ⟨hs, rfl⟩ := htp arc hcell
  have hspent := h.spent
  rw [owedAt, hcell] at hspent
  have halone : ∀ b arc, b ≠ a → (k.run.run o n mem).state.streams.cell b = some arc →
      arc.data.semaphore.hal ≠ s := by
    intro b arc' hba hb
    rw [hrest b hba] at hb
    exact h.alone b arc' hba hb
  have hnew : handedOut a [⟨mem, k, k.run.run o n mem⟩] =
      if k.skips = true then [u64Add arc.data.timepoint 1] else [] := by
    split
    · rename_i hskips
      obtain ⟨b, rfl⟩ := StreamCall.resolve_of_skips hskips
      obtain rfl : b = a := Option.some.inj hk
      exact handedOut_of_skips rfl hcell
    · rename_i hskips
      exact handedOut_of_not_skips (Bool.eq_false_iff.mpr hskips) _
  obtain ⟨⟨tp, hused', htp'⟩, hspent'⟩ := hlives.used hlost hs hused hnew
  refine ⟨halone, ⟨tp, ?_, ?_⟩, ?_⟩
  · rw [trace_append, trace_single, handedOut_append]
    exact hused'
  · intro arc' harc'
    exact ⟨by rw [hlives.semaphore_eq harc', hs], htp' arc' harc'⟩
  · rw [trace_append, trace_single, handedOut_append, signalled_append, List.length_append,
      List.length_append, List.length_append, List.length_singleton, owedAt]
    simp only [Option.elim_some] at hspent hspent' ⊢
    omega

theorem KeepsValues.inv (hfresh : FreshStream mem₀ a s) (h : StreamRuns KeepsValues mem₀ mem l) :
    TimelineInv a s mem l := by
  refine Runs.keeps (I := TimelineInv a s) hfresh.inv ?_ h
  intro mem l k o hinv hk
  by_cases hka : k.stream = some a
  · exact hinv.own hk hka
  · exact hinv.other hk.1 hka

/-- Timeline values are allocated without reuse: each value up to the timepoint
was signalled or handed out once, no call signals a value above the timepoint
it leaves, and no two submissions signal the same value. -/
def NoReuse (a : ℕ) (s : Obj) (mem : Memory) (l : StreamLog) : Prop :=
  (∀ arc, mem.streams.cell a = some arc → ∀ v, 1 ≤ v → v ≤ arc.data.timepoint →
    (signalled s (trace l)).count v + (handedOut a l).count v = 1) ∧
  (∀ e ∈ l, ∀ v ∈ signalled s e.result.events, ∀ arc, e.result.state.streams.cell a = some arc →
    v ≤ arc.data.timepoint) ∧
  (signalled s (trace l)).Nodup

/-- Fewer than `2 ^ 64` values are numbered without wrapping around. -/
theorem Used.perm_range {values : List ℕ} {timepoint : ℕ} (h : Used values timepoint)
    (hlt : values.length < 2 ^ 64) :
    values.Perm (List.range' 1 timepoint) ∧ timepoint = values.length := by
  have hlast : timepoint = values.length := by rw [h.last, Nat.mod_eq_of_lt hlt]
  refine ⟨?_, hlast⟩
  have hid : (List.range' 1 values.length).map (· % 2 ^ 64) = List.range' 1 values.length := by
    refine (List.map_congr_left fun v hv ↦ ?_).trans (List.map_id _)
    rw [List.mem_range'_1] at hv
    exact Nat.mod_eq_of_lt (by omega)
  have hperm := h.perm
  rw [hid] at hperm
  rw [hlast]
  exact hperm

theorem timeline_values_not_reused (hfresh : FreshStream mem₀ a s)
    (h : StreamRuns KeepsValues mem₀ mem l) (hlen : l.length < 2 ^ 64) : NoReuse a s mem l := by
  have hused : ∀ mem l, StreamRuns KeepsValues mem₀ mem l → l.length < 2 ^ 64 →
      ∃ timepoint, (signalled s (trace l) ++ handedOut a l).Perm (List.range' 1 timepoint) ∧
        ∀ arc, mem.streams.cell a = some arc → arc.data.timepoint = timepoint := by
    intro mem l h hlen
    have hinv := KeepsValues.inv hfresh h
    obtain ⟨tp, hused, htp⟩ := hinv.used
    have hspent := hinv.spent
    rw [← List.length_append] at hspent
    exact ⟨tp, (hused.perm_range (by omega)).1, fun arc harc ↦ (htp arc harc).2⟩
  obtain ⟨tp, hperm, htp⟩ := hused mem l h hlen
  refine ⟨?_, ?_, ?_⟩
  · intro arc harc v hv hle
    rw [htp arc harc] at hle
    have hmem : v ∈ List.range' 1 tp := by
      rw [List.mem_range'_1]
      omega
    rw [← List.count_append, hperm.count_eq]
    exact List.count_eq_one_of_mem List.nodup_range' hmem
  · intro e he v hv arc harc
    obtain ⟨l₁, l₂, hl⟩ := List.append_of_mem he
    obtain ⟨-, hrun, -⟩ := h.upTo hl
    have hlen₁ : (l₁ ++ [e]).length < 2 ^ 64 := by
      rw [hl] at hlen
      simp only [List.length_append, List.length_cons, List.length_nil] at hlen ⊢
      omega
    obtain ⟨tp₁, hperm₁, htp₁⟩ := hused e.result.state (l₁ ++ [e]) hrun hlen₁
    have hmem : v ∈ signalled s (trace (l₁ ++ [e])) ++ handedOut a (l₁ ++ [e]) := by
      rw [trace_append, trace_single, signalled_append]
      simp [hv]
    rw [hperm₁.mem_iff, List.mem_range'_1] at hmem
    rw [htp₁ arc harc]
    omega
  · exact ((List.nodup_append.mp (hperm.nodup_iff.mpr List.nodup_range')).1)

theorem timeline_values_not_reused_example :
    NoReuse 1 0 (play StreamCall.run oneStream []
        [(.bufferAllocate (some 1) 64 1 1 true, allSucceed),
          (.advanceTimeline (some 1) true, allSucceed),
          (.executionBarrier (some 1), allSucceed), (.flush (some 1), allSucceed)]).1
      (play StreamCall.run oneStream []
        [(.bufferAllocate (some 1) 64 1 1 true, allSucceed),
          (.advanceTimeline (some 1) true, allSucceed),
          (.executionBarrier (some 1), allSucceed), (.flush (some 1), allSucceed)]).2 := by
  refine timeline_values_not_reused oneStream_fresh (Runs.play .start _ ?_) (by decide)
  refine ⟨⟨⟨?_, allSucceed_roomy⟩, by decide⟩, ⟨⟨?_, allSucceed_roomy⟩, by decide⟩,
    ⟨⟨?_, allSucceed_roomy⟩, by decide⟩, ⟨⟨?_, allSucceed_roomy⟩, by decide⟩, trivial⟩
  all_goals
    intro a h
    cases h
    exact ⟨_, rfl⟩

/-- An alloca is accepted, the wait for it fails, and the next flush signals its value again. -/
theorem timeline_value_reused :
    ¬ ∀ mem₀ mem a s l, FreshStream mem₀ a s → StreamRuns Usual mem₀ mem l → l.length < 2 ^ 64 →
      NoReuse a s mem l := by
  intro h
  have hrun : StreamRuns Usual oneStream _ _ := Runs.play .start
    [(.bufferAllocate (some 1) 64 1 1 true, allBut isSemaphoreWait),
      (.executionBarrier (some 1), allSucceed), (.flush (some 1), allSucceed)] (by
    refine ⟨⟨?_, allBut_roomy rfl⟩, ⟨?_, allSucceed_roomy⟩, ⟨?_, allSucceed_roomy⟩, trivial⟩
    all_goals
      intro a h
      cases h
      exact ⟨_, rfl⟩)
  obtain ⟨-, -, hnodup⟩ := h oneStream _ 1 0 _ oneStream_fresh hrun (by decide)
  revert hnodup
  decide

end HrxSystem.Libhrx
