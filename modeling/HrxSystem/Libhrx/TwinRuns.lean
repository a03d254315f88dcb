import HrxSystem.Libhrx.Twins

namespace HrxSystem.Libhrx

open External Program Counting HrxStreamS

variable {loose : Prop} {o : Outside} {n n' : ℕ} {p : Tally} {t t' es es' : Trace}
variable {st st' : HrxStreamS} {mem mem' mem₀ : Memory} {a strong : ℕ} {k : StreamCall}

theorem settle_twin : Couples (Behaves loose) (Twin loose p) (fun _ _ ↦ True) settle settle := by
  have hawait :
      Couples (Behaves loose) (Twin loose p) (fun _ _ ↦ True) awaitTimeline awaitTimeline :=
    twin_of_aside awaitTimeline_aside awaitTimeline_aside
  refine Couples.bind (V := fun st st' ↦ st'.hasPendingWork = st.hasPendingWork) ?_
    fun st st' hw ↦ ?_
  · refine .state fun t st t' st' h ↦ ?_
    obtain ⟨cb', rfl⟩ := h.rest
    rfl
  rw [hw]
  exact .ite Iff.rfl (flushInner_twin.bind fun _ _ _ ↦ hawait) hawait

theorem drop_tally (ho : Behaves loose o) (h : Twin loose p t st t' st') (n n' : ℕ) :
    tally p (t' ++ (HrxStreamS.drop.run o n' st').events) =
      tally p (t ++ (HrxStreamS.drop.run o n st).events) := by
  obtain ⟨-, hsettled⟩ := settle_twin o n n' t st t' st' ho h
  have hdrop :
      ∀ n st, ∃ fs, (HrxStreamS.drop.run o n st).events = (settle.run o n st).events ++ fs ∧
      ∀ q, tally q fs = q := by
    intro n st
    refine ⟨leftover o (n + (settle.run o n st).events.length) (settle.run o n st).state, ?_,
      leftover_tally o _ _⟩
    simp only [HrxStreamS.drop, run_bind, run_state, leftover]
    cases (settle.run o n st).state.pendingCb <;> simp
  obtain ⟨fs, hfs, hnone⟩ := hdrop n st
  obtain ⟨fs', hfs', hnone'⟩ := hdrop n' st'
  rw [hfs, hfs', ← List.append_assoc, ← List.append_assoc, tally_append, hnone',
    tally_append p _ fs, hnone, hsettled.same]

theorem StreamCall.run_twin (ho : Behaves loose o) (hk : k.stream = some a)
    (hglobals : mem'.globals = mem.globals) (ha : mem.streams.cell a = some ⟨strong, st⟩)
    (ha' : mem'.streams.cell a = some ⟨strong, st'⟩) (h : Twin loose p [] st [] st') (n n' : ℕ) :
    (k.run.run o n' mem').state.globals = (k.run.run o n mem).state.globals ∧
      tally p (k.run.run o n' mem').events = tally p (k.run.run o n mem).events ∧
      (((k.run.run o n mem).state.streams.cell a = none ∧
          (k.run.run o n' mem').state.streams.cell a = none) ∨
        ∃ strong₁ st₁ st₁', (k.run.run o n mem).state.streams.cell a = some ⟨strong₁, st₁⟩ ∧
          (k.run.run o n' mem').state.streams.cell a = some ⟨strong₁, st₁'⟩ ∧
          Twin loose p (k.run.run o n mem).events st₁ (k.run.run o n' mem').events st₁') := by
  by_cases hretain : ∃ b, k = .retain b
  · obtain ⟨b, rfl⟩ := hretain
    obtain rfl : b = a := by simpa [StreamCall.stream] using hk
    have hr : ∀ n (mem : Memory) st, mem.streams.cell b = some ⟨strong, st⟩ →
        (StreamCall.retain b).run.run o n mem = ⟨⟨hrxOkStatus, .nothing⟩,
        { mem with streams := mem.streams.put b (some ⟨strong + 1, st⟩) }, []⟩ := by
      intro n mem st ha
      simp [StreamCall.run, hrxStreamRetain, handleRetain, Kind.streams, Heap.retain, ha]
    rw [hr n mem st ha, hr n' mem' st' ha']
    exact ⟨hglobals, rfl,
      .inr ⟨strong + 1, st, st', Heap.put_cell_self _ _ _, Heap.put_cell_self _ _ _, h⟩⟩
  by_cases hrelease : ∃ b, k = .release b
  · obtain ⟨b, rfl⟩ := hrelease
    obtain rfl : b = a := by simpa [StreamCall.stream] using hk
    by_cases hs : strong ≤ 1
    · have hquiet : ∀ n st (mem : Memory), (∀ q, tally q ((teardown st).run o n mem).events = q) ∧
          ((teardown st).run o n mem).state.streams = mem.streams ∧
          ((teardown st).run o n mem).state.globals = mem.globals := fun n st mem ↦
        ⟨tally_of_quiet
          (teardown_confined (f := fun _ ↦ ()) (fun _ _ ↦ rfl) (fun _ _ ↦ rfl) st o n mem).2,
          (teardown_confined (fun _ _ ↦ rfl) (fun _ _ ↦ rfl) st o n mem).1,
          (teardown_confined (fun _ _ ↦ rfl) (fun _ _ ↦ rfl) st o n mem).1⟩
      rw [run_release_last hs ha, run_release_last hs ha']
      simp only [Outcome.after_state, Outcome.after_events, tally_append, (hquiet _ _ _).1,
        (hquiet _ _ _).2.1, (hquiet _ _ _).2.2, Heap.put_cell_self]
      exact ⟨hglobals, drop_tally ho h n n', .inl ⟨trivial, trivial⟩⟩
    · rw [run_release_shared hs ha, run_release_shared hs ha']
      exact ⟨hglobals, rfl,
        .inr ⟨strong - 1, st, st', Heap.put_cell_self _ _ _, Heap.put_cell_self _ _ _, h⟩⟩
  rw [not_exists] at hretain hrelease
  cases hres : k.resolve with
  | none =>
    obtain ⟨s, hr⟩ := StreamCall.run_unresolved n mem ho.roomy hres hretain hrelease
    obtain ⟨s', hr'⟩ := StreamCall.run_unresolved n' mem' ho.roomy hres hretain hrelease
    have hnone : ∀ q n, tally q [payload o n] = q :=
      fun q n ↦ tally_of_quiet (by simp [payload, quiet]) q
    rw [hr, hr']
    exact ⟨hglobals, by rw [hnone, hnone], .inr ⟨strong, st, st', ha, ha',
      h.aside (fun q ↦ hnone q n) fun q ↦ hnone q n'⟩⟩
  | some x =>
    obtain ⟨b, op⟩ := x
    obtain rfl : b = a := by simpa [stream_of_resolve hres] using hk
    obtain ⟨-, hcells, hg, tail, hevents, htail⟩ := run_resolved (o := o) (n := n) hres ha
    obtain ⟨-, hcells', hg', tail', hevents', htail'⟩ := run_resolved (o := o) (n := n') hres ha'
    obtain ⟨-, htwin⟩ := StreamOp.run_twin mem.globals.shared op o n n' [] st [] st' ho h
    rw [hglobals] at hcells' hevents'
    have hdone := htwin.aside (tally_of_quiet htail) (tally_of_quiet htail')
    rw [hcells, hcells', hevents, hevents', hg, hg']
    refine ⟨hglobals, hdone.same,
      .inr ⟨strong, _, _, Function.update_self .., Function.update_self .., hdone⟩⟩

/-- Two runs of the library whose streams are twins. -/
structure TwinRuns (loose : Prop) (mem : Memory) (t : Trace) (mem' : Memory) (t' : Trace) :
    Prop where
  globals : mem'.globals = mem.globals
  kept : Kept AnyUse AnyUse t.length t mem.streams.cell
  kept' : Kept AnyUse AnyUse t'.length t' mem'.streams.cell
  cells : ∀ b, (mem.streams.cell b = none ∧ mem'.streams.cell b = none) ∨
    ∃ strong st st', mem.streams.cell b = some ⟨strong, st⟩ ∧
    mem'.streams.cell b = some ⟨strong, st'⟩ ∧
      unsubmitted t' st' = unsubmitted t st ∧ Twin loose ([], unsubmitted t st) [] st [] st'

theorem TwinRuns.live (h : TwinRuns loose mem t mem' t') (hlive : Live mem k) : Live mem' k := by
  intro a ha
  obtain ⟨arc, harc⟩ := hlive a ha
  obtain ⟨hnone, -⟩ | ⟨strong, st, st', -, ha', -⟩ := h.cells a
  · rw [hnone] at harc
    cases harc
  · exact ⟨_, ha'⟩

/-- One call in both runs submits the same batches, and the runs stay twins. -/
theorem TwinRuns.call (h : TwinRuns loose mem t mem' t') (ho : Behaves loose o)
    (hlive : Live mem k) :
    batches t' (k.run.run o t'.length mem').events = batches t (k.run.run o t.length mem).events ∧
      TwinRuns loose (k.run.run o t.length mem).state (t ++ (k.run.run o t.length mem).events)
        (k.run.run o t'.length mem').state (t' ++ (k.run.run o t'.length mem').events) := by
  have hlive' := h.live hlive
  have hkept := StreamCall.kept anyUse_custody h.kept ⟨hlive, ho.roomy⟩ (.inl trivial)
  have hkept' := StreamCall.kept anyUse_custody h.kept' ⟨hlive', ho.roomy⟩ (.inl trivial)
  rw [← List.length_append] at hkept hkept'
  have helsewhere : ∀ b, k.stream ≠ some b →
      ((k.run.run o t.length mem).state.streams.cell b = none ∧
        (k.run.run o t'.length mem').state.streams.cell b = none) ∨
      ∃ strong st st', (k.run.run o t.length mem).state.streams.cell b = some ⟨strong, st⟩ ∧
        (k.run.run o t'.length mem').state.streams.cell b = some ⟨strong, st'⟩ ∧
        unsubmitted (t' ++ (k.run.run o t'.length mem').events) st' =
          unsubmitted (t ++ (k.run.run o t.length mem).events) st ∧
        Twin loose ([], unsubmitted (t ++ (k.run.run o t.length mem).events) st) [] st [] st' := by
    intro b hb
    rw [StreamCall.run_cell_of_ne ho.roomy hlive hb, StreamCall.run_cell_of_ne ho.roomy hlive' hb]
    obtain hnone | ⟨strong, st, st', hst, hst', hsame, htwin⟩ := h.cells b
    · exact .inl hnone
    · refine .inr ⟨strong, st, st', hst, hst', ?_, ?_⟩
      · rw [StreamCall.run_elsewhere ho.roomy h.kept hlive hb hst,
          StreamCall.run_elsewhere ho.roomy h.kept' hlive' hb hst', hsame]
      · rwa [StreamCall.run_elsewhere ho.roomy h.kept hlive hb hst]
  cases hk : k.stream with
  | none =>
    obtain ⟨err, hrun⟩ := StreamCall.run_null t.length mem ho.roomy hk
    obtain ⟨err', hrun'⟩ := StreamCall.run_null t'.length mem' ho.roomy hk
    refine ⟨?_, ?_, hkept, hkept', fun b ↦ helsewhere b (by simp [hk])⟩
    · rw [hrun, hrun', batches_of_quiet (by simp [payload, quiet]),
        batches_of_quiet (by simp [payload, quiet])]
    · rw [hrun, hrun']
      exact h.globals
  | some a =>
    obtain ⟨arc, harc⟩ := hlive a hk
    obtain ⟨hnone, -⟩ | ⟨strong, st, st', ha, ha', hsame, htwin⟩ := h.cells a
    · rw [hnone] at harc
      cases harc
    obtain ⟨hlives, -⟩ := StreamCall.run_lives (n := t.length) ho.roomy hk ha
    obtain ⟨hlives', -⟩ := StreamCall.run_lives (n := t'.length) ho.roomy hk ha'
    obtain ⟨hbatches, hpending⟩ := hlives.tally [] (h.kept.ward ha)
    obtain ⟨hbatches', hpending'⟩ := hlives'.tally [] (h.kept'.ward ha')
    obtain ⟨hglobals, htally, hcells⟩ :=
      StreamCall.run_twin ho hk h.globals ha ha' htwin t.length t'.length
    simp only [hsame] at hbatches' hpending'
    rw [htally] at hbatches' hpending'
    refine ⟨hbatches'.symm.trans hbatches, hglobals, hkept, hkept', fun b ↦ ?_⟩
    by_cases hb : k.stream = some b
    swap
    · exact helsewhere b hb
    obtain rfl : a = b := Option.some.inj (hk.symm.trans hb)
    obtain hnone | ⟨strong₁, st₁, st₁', hst, hst', htwin'⟩ := hcells
    · exact .inl hnone
    · have hun := hpending _ hst
      have hun' := hpending' _ hst'
      refine .inr ⟨strong₁, st₁, st₁', hst, hst', hun'.symm.trans hun, rfl, htwin'.rest, ?_⟩
      have hopened := htwin'.opened
      simp only at hun
      rw [hun] at hopened
      exact hopened

end HrxSystem.Libhrx
