import HrxSystem.Libhrx.CommandBuffers

namespace HrxSystem.Libhrx

open External Program Counting HrxStreamS

def seals (cb : Obj) (e : Happened) : Bool :=
  match e.call with
  | .commandBufferEnd c => c = some cb && ok e
  | _ => false

/-- A command or barrier recorded into `cb`, or an end of it, whatever the answer. -/
def alters (cb : Obj) (e : Happened) : Bool :=
  match e.call with
  | .commandBufferRecord c _ | .commandBufferEnd c => c = some cb
  | _ => false

def runs (cb : Obj) (e : Happened) : Bool :=
  match e.call with
  | .queueExecute _ _ _ _ c => c = some cb && ok e
  | _ => false

/-- The create-begin-record-end-execute protocol of command buffer `cb`. -/
structure Orderly (cb : Obj) (t : Trace) : Prop where
  ended : t.Pairwise fun f e ↦ seals cb f = true → alters cb e = false
  once : (t.filter (runs cb)).length ≤ 1

/-- Nothing has ended or run in the calls on `cb` so far. -/
def Unsealed (cb : Obj) (u : Trace) : Prop := ∀ e ∈ u, seals cb e = false ∧ runs cb e = false

theorem Unsealed.orderly {cb : Obj} {u w : Trace} (hu : Unsealed cb u)
    (hw : w.Pairwise fun f e ↦ seals cb f = true → alters cb e = false)
    (hruns : (w.filter (runs cb)).length ≤ 1) : Orderly cb (u ++ w) := by
  refine ⟨List.pairwise_append.mpr ⟨?_, hw, ?_⟩, ?_⟩
  · refine List.pairwise_of_forall_mem_list fun f hf e _ hs ↦ ?_
    simp [(hu f hf).1] at hs
  · intro f hf e _ hs
    simp [(hu f hf).1] at hs
  · have hnone : u.filter (runs cb) = [] := by
      rw [List.filter_eq_nil_iff]
      intro e he
      simp [(hu e he).2]
    rwa [List.filter_append, hnone, List.nil_append]

theorem unsealed_append {cb : Obj} {u w : Trace} (hu : Unsealed cb u) (hw : Unsealed cb w) :
    Unsealed cb (u ++ w) := by
  intro e he
  exact (List.mem_append.mp he).elim (hu e) (hw e)

theorem orderly_of_uses {cb : Obj} {t : Trace} (h : Orderly cb (uses cb t)) : Orderly cb t := by
  obtain ⟨hended, honce⟩ := h
  have hseals : ∀ e, seals cb e = true → cbOf e.call = some cb := by
    intro e he
    unfold seals at he
    split at he
    · rename_i hc
      simp only [Bool.and_eq_true, decide_eq_true_eq] at he
      rw [hc, cbOf, he.1]
    · cases he
  have halters : ∀ e, alters cb e = true → cbOf e.call = some cb := by
    intro e he
    unfold alters at he
    split at he
    · rename_i hc
      rw [hc, cbOf, of_decide_eq_true he]
    · rename_i hc
      rw [hc, cbOf, of_decide_eq_true he]
    · cases he
  have hruns : ∀ e, runs cb e = true → cbOf e.call = some cb := by
    intro e he
    unfold runs at he
    split at he
    · rename_i hc
      simp only [Bool.and_eq_true, decide_eq_true_eq] at he
      rw [hc, cbOf, he.1]
    · cases he
  refine ⟨?_, ?_⟩
  · rw [uses, List.pairwise_filter] at hended
    refine hended.imp ?_
    intro f e h hs
    cases ha : alters cb e with
    | false => rfl
    | true => rw [← ha, h (by simpa using hseals f hs) (by simpa using halters e ha) hs]
  · rw [uses, List.filter_filter] at honce
    refine (le_of_eq (congrArg List.length (List.filter_congr fun e _ ↦ ?_))).trans honce
    cases hr : runs cb e with
    | false => simp
    | true => simp [hruns e hr]

theorem orderly_custody : Custody False Unsealed Orderly where
  unused _ := ⟨.nil, by simp⟩
  opened hb _ := by simp [Unsealed, seals, runs, hb]
  unbegun hb _ hr := ⟨by simp [seals, hb], by simp [runs, hb, hr]⟩
  recorded hu he := unsealed_append hu (by simp [Unsealed, seals, runs, he])
  notEnded hu he hok := unsealed_append hu (by simp [Unsealed, seals, runs, he, hok])
  rejected hmay := hmay.elim
  executed hu he heok hx hxok hr :=
    hu.orderly (by simp [seals, alters, he, hx, hr]) (by simp [runs, he, hx, hr, hxok])
  abandoned hu he heok hx hxok hr :=
    hu.orderly (by simp [seals, alters, he, hx, hr]) (by simp [runs, he, hx, hr, hxok])
  released hu hr := hu.orderly (by simp) (by simp [runs, hr])

/-- Unless it is the last release of its stream, no execution is refused in the call. -/
def NotRefused (n : ℕ) (mem : Memory) (k : StreamCall) (o : Outside) : Prop :=
  Usual n mem k o ∧ (LastRelease mem k ∨ ∀ e ∈ (k.run.run o n mem).events, refused e = false)

variable {mem₀ mem : Memory} {l : StreamLog}

theorem command_buffers_orderly (hfresh : AllFresh mem₀) (h : StreamRuns NotRefused mem₀ mem l)
    (cb : Obj) : Orderly cb (trace l) := by
  have hkept : Kept Unsealed Orderly (trace l).length (trace l) mem.streams.cell := by
    refine Runs.keeps (I := fun mem l ↦
      Kept Unsealed Orderly (trace l).length (trace l) mem.streams.cell) ?_ ?_ h
    · exact hfresh.kept orderly_custody
    · intro mem l k o hinv hk
      rw [trace_append, trace_single, List.length_append]
      exact StreamCall.kept orderly_custody hinv hk.1 (.inr hk.2)
  by_cases hidle : ∀ b arc, mem.streams.cell b = some arc → arc.data.pendingCb ≠ some cb
  · exact orderly_of_uses (hkept.idle cb hidle)
  · simp only [not_forall, ne_eq, not_not] at hidle
    obtain ⟨b, arc, hb, hcb⟩ := hidle
    have hopen := (hkept.pending b arc cb hb hcb).2
    refine orderly_of_uses ?_
    have horderly := hopen.orderly (w := []) .nil (by simp)
    rwa [List.append_nil] at horderly

theorem command_buffers_orderly_refused : Orderly 0 (trace (play StreamCall.run oneStream []
    [(.executionBarrier (some 1), allSucceed), (.release 1, allBut isQueueExecute)]).2) := by
  refine command_buffers_orderly oneStream_allFresh (Runs.play .start _ ?_) 0
  refine ⟨⟨⟨?_, allSucceed_roomy⟩, .inr (by decide)⟩,
    ⟨⟨?_, allBut_roomy rfl⟩, .inl ⟨1, _, rfl, rfl, by decide⟩⟩, trivial⟩
  all_goals
    intro a h
    cases h
    exact ⟨_, rfl⟩

/-- A refused execution leaves an ended command buffer installed, and the next
barrier is recorded into it. -/
theorem recorded_after_end :
    ¬ ∀ mem₀ mem l, AllFresh mem₀ → StreamRuns Usual mem₀ mem l → ∀ cb, Orderly cb (trace l) := by
  intro h
  have hrun : StreamRuns Usual oneStream _ _ := Runs.play .start
    [(.executionBarrier (some 1), allSucceed), (.flush (some 1), allBut isQueueExecute),
      (.executionBarrier (some 1), allSucceed)] (by
    refine ⟨⟨?_, allSucceed_roomy⟩, ⟨?_, allBut_roomy rfl⟩, ⟨?_, allSucceed_roomy⟩, trivial⟩
    all_goals
      intro a h
      cases h
      exact ⟨_, rfl⟩)
  have hended := (h oneStream _ _ oneStream_allFresh hrun 0).ended
  revert hended
  decide

end HrxSystem.Libhrx
