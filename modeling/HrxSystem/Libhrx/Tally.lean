import HrxSystem.External.Coupling
import HrxSystem.Libhrx.Batching

namespace HrxSystem.Libhrx

open External Program Counting HrxStreamS

/-- The batches a stream has submitted, and the commands that wait in its command buffer. -/
abbrev Tally := List (List Command) × List Command

def tallyStep (p : Tally) (e : Happened) : Tally :=
  match e.call with
  | .commandBufferRecord _ c => if ok e then (p.1, p.2 ++ [c]) else p
  | .queueExecute .. => if ok e then (p.1 ++ [p.2], []) else p
  | _ => p

/-- What the calls of one stream come to, whatever its command buffers are called. -/
def tally (p : Tally) (es : Trace) : Tally := es.foldl tallyStep p

@[simp] theorem tally_nil (p : Tally) : tally p [] = p := rfl

theorem tally_append (p : Tally) (es fs : Trace) : tally p (es ++ fs) = tally (tally p es) fs :=
  List.foldl_append

theorem tallyStep_of_quiet {e : Happened} (h : quiet e.call = true) (p : Tally) :
    tallyStep p e = p := by
  unfold tallyStep
  split
  · rename_i hc
    simp [hc, quiet] at h
  · rename_i hc
    simp [hc, quiet] at h
  · rfl

theorem tally_of_quiet {es : Trace} (h : ∀ e ∈ es, quiet e.call = true) (p : Tally) :
    tally p es = p := by
  induction es with
  | nil => rfl
  | cons e es ih =>
    rw [tally, List.foldl_cons, tallyStep_of_quiet (h e (by simp))]
    exact ih fun f hf ↦ h f (by simp [hf])

variable {n : ℕ} {t es : Trace} {st st' : HrxStreamS} {bs : List (List Command)}

theorem Small.tally (h : Small n st es st') (hfresh : uses n t = []) :
    Libhrx.tally (bs, unsubmitted t st) es = (bs ++ batches t es, unsubmitted (t ++ es) st') := by
  have hstill : ∀ {es : Trace}, Libhrx.tally (bs, unsubmitted t st) es = (bs, unsubmitted t st) →
      batches t es = [] → commandsIn es = [] → ∀ {st' : HrxStreamS}, st'.pendingCb = st.pendingCb →
      Libhrx.tally (bs, unsubmitted t st) es = (bs ++ batches t es, unsubmitted (t ++ es) st') := by
    intro es htally hbatches hcommands st' hcb
    rw [htally, hbatches, List.append_nil]
    simp [unsubmitted, hcb, contents_of_none hcommands]
  cases h with
  | @aside e hq =>
    have hes : ∀ f ∈ [e], quiet f.call = true := by simpa using hq
    exact hstill (tally_of_quiet hes _) (batches_of_quiet hes t) (commandsIn_of_quiet hes) rfl
  | notCreated hx | notBegun _ hx | barred hx | joined hx | notAllocated hx | allocated _ hx
  | lost _ hx | notEnded _ _ hx =>
    exact hstill (by simp [Libhrx.tally, tallyStep]) (by simp [batches, batch])
      (by simp [commandsIn, recordOf]) rfl
  | notRecorded hcb hx =>
    exact hstill (by simp [Libhrx.tally, tallyStep, ok, hx]) (by simp [batches, batch])
      (by simp [commandsIn, recordOf, ok, hx]) rfl
  | rejected hcb hw hx hy =>
    exact hstill (by simp [Libhrx.tally, tallyStep, ok, hy]) (by simp [batches, batch, ok, hy])
      (by simp [commandsIn, recordOf]) rfl
  | @opened d k f x y hcb hx hy =>
    have hnew : unsubmitted (t ++ [⟨n, .commandBufferCreate d k f, x⟩,
        ⟨n + 1, .commandBufferBegin (some n), y⟩]) { st with pendingCb := some n } = [] := by
      simp only [unsubmitted, contents_append, contents_of_unused hfresh, List.nil_append]
      exact contents_of_none (by simp [commandsIn, recordOf]) n
    rw [hnew]
    simp [Libhrx.tally, tallyStep, batches, batch, unsubmitted, hcb]
  | @half cb c x y hcb hx hy =>
    simp [Libhrx.tally, tallyStep, batches, batch, unsubmitted, hcb, contents, uses,
      cbOf, commandsIn, recordOf, ok, hx, hy]
  | recorded hcb hx hy =>
    simp [Libhrx.tally, tallyStep, batches, batch, unsubmitted, hcb, contents, uses,
      cbOf, commandsIn, recordOf, ok, hx, hy]
  | barriered hcb hx =>
    simp [Libhrx.tally, tallyStep, batches, batch, unsubmitted, hcb, contents, uses,
      cbOf, commandsIn, recordOf, ok, hx]
  | @executed cb d f x y z hcb hw hx hy =>
    have hend : contents cb [⟨n, .commandBufferEnd (some cb), x⟩] = [] :=
      contents_of_none (by simp [commandsIn, recordOf]) cb
    simp [Libhrx.tally, tallyStep, batches, batch, unsubmitted, hcb, flushed, ok, hy, hend]

variable {others : Obj → Prop} {k : StreamCall} {arc : Arc HrxStreamS}
  {cell' : Option (Arc HrxStreamS)}

theorem Steps.tally (h : Steps n st es st') (hw : Ward AnyUse AnyUse others n t st) :
    Libhrx.tally (bs, unsubmitted t st) es = (bs ++ batches t es, unsubmitted (t ++ es) st') := by
  induction h generalizing t bs with
  | nil => simp [batches]
  | @cons n st st₁ st₂ es fs hsmall _ ih =>
    rw [tally_append, hsmall.tally (hw.later n le_rfl),
      ih (hsmall.ward anyUse_custody (.inl trivial) hw), batches_append, List.append_assoc,
      List.append_assoc]

theorem leftover_tally (o : Outside) (n : ℕ) (st : HrxStreamS) (p : Tally) :
    Libhrx.tally p (leftover o n st) = p := by
  unfold leftover
  split
  · rfl
  · simp [Libhrx.tally, tallyStep]

theorem leftover_batches (o : Outside) (n : ℕ) (st : HrxStreamS) (seen : Trace) :
    batches seen (leftover o n st) = [] := by
  unfold leftover
  split
  · rfl
  · simp [batches, batch]

theorem Lives.tally (bs : List (List Command)) (h : Lives k n arc es cell')
    (hw : Ward AnyUse AnyUse others n t arc.data) :
    (Libhrx.tally (bs, unsubmitted t arc.data) es).1 = bs ++ batches t es ∧
      ∀ arc', cell' = some arc' →
        (Libhrx.tally (bs, unsubmitted t arc.data) es).2 = unsubmitted (t ++ es) arc'.data := by
  cases h with
  | walked _ hsteps _ =>
    rw [hsteps.tally hw]
    exact ⟨rfl, by rintro _ ⟨⟩; rfl⟩
  | skipped _ hes =>
    rw [tally_of_quiet hes, batches_of_quiet hes, List.append_nil]
    refine ⟨rfl, ?_⟩
    rintro _ ⟨⟩
    simp [unsubmitted, advanced, contents_of_none (commandsIn_of_quiet hes)]
  | dropped _ hsmall _ _ hfs htail =>
    refine ⟨?_, fun _ h ↦ by cases h⟩
    rw [tally_append, tally_append, tally_append, (steps_of_one hsmall).tally hw,
      tally_of_quiet hfs,
      leftover_tally, tally_of_quiet htail, batches_append, batches_append, batches_append,
      batches_of_quiet hfs, leftover_batches, batches_of_quiet htail]
    simp

end HrxSystem.Libhrx
