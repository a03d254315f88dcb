import HrxSystem.Libhrx.SemaphoreLists

namespace HrxSystem.Libhrx

open External Program Counting HrxStreamS

/-- What a dispatch hands to the HAL, on the queue or into a command buffer. -/
structure Dispatch where
  executable : Obj
  function : ℕ
  config : DispatchConfig
  constants : Option ℕ
  constantsSize : ℕ
  bindings : List BufferRef
  flags : ℕ
deriving DecidableEq

def Call.dispatch? : Call → Option Dispatch
  | queueDispatch _ _ _ _ executable function config constants constantsSize bindings flags
  | commandBufferRecord _
      (.dispatch executable function config constants constantsSize bindings flags) =>
    some ⟨executable, function, config, constants, constantsSize, bindings, flags⟩
  | _ => none

def dispatches (t : Trace) : List Dispatch := t.filterMap fun e ↦ e.call.dispatch?

namespace DispatchArgs

variable (x : DispatchArgs)

def Refused : Prop :=
  x.executable = none ∨ x.config = none ∨ (x.bindingCount > 0 ∧ x.bindings = none) ∨
    (x.constantsSize > 0 ∧ x.constants = none) ∨
    ∃ bs, x.bindings = some bs ∧ ∃ i < x.bindingCount, (bs i).buffer = none

structure Passes (d : Dispatch) : Prop where
  executable : ∃ e, x.executable = some e ∧ d.executable = e.hal
  function : d.function = x.exportOrdinal
  config : ∃ c, x.config = some c ∧ d.config.workgroupSize = c.workgroupSize ∧
    d.config.workgroupCount = c.workgroupCount
  constants : d.constants = x.constants ∧ d.constantsSize = x.constantsSize
  count : d.bindings.length = x.bindingCount
  bindings : ∀ i < x.bindingCount, ∃ bs b, x.bindings = some bs ∧ (bs i).buffer = some b ∧
    d.bindings[i]? = some ⟨b.hal, (bs i).offset, (bs i).length⟩
  flags : d.flags = x.flags

end DispatchArgs

section Bindings

variable {α β : Type} {f : α → Option β} {l : List α}

theorem mapM_eq_none (h : ∃ a ∈ l, f a = none) : l.mapM f = none := by
  induction l with
  | nil => simp at h
  | cons a l ih =>
    rw [List.mapM_cons]
    cases hf : f a with
    | none => rfl
    | some b =>
      have hrest : ∃ a ∈ l, f a = none := by simpa [hf] using h
      rw [ih hrest]
      rfl

theorem mapM_eq_some {g : α → β} (h : ∀ a ∈ l, f a = some (g a)) : l.mapM f = some (l.map g) := by
  induction l with
  | nil => rfl
  | cons a l ih =>
    rw [List.mapM_cons, h a List.mem_cons_self, ih fun b hb ↦ h b (List.mem_cons_of_mem a hb)]
    rfl

def HrxBufferRef.hal (r : HrxBufferRef) : BufferRef :=
  ⟨r.buffer.elim 0 BufferPtr.hal, r.offset, r.length⟩

theorem buildHalBindings_eq_none {bs : ℕ → HrxBufferRef} {count : ℕ}
    (h : ∃ i < count, (bs i).buffer = none) :
    buildHalBindings bs count = none := by
  obtain ⟨i, hi, hnull⟩ := h
  exact mapM_eq_none ⟨i, List.mem_range.mpr hi, by rw [hnull]; rfl⟩

theorem buildHalBindings_eq_some {bs : ℕ → HrxBufferRef} {count : ℕ}
    (h : ∀ i < count, (bs i).buffer ≠ none) :
    buildHalBindings bs count = some ((List.range count).map fun i ↦ (bs i).hal) := by
  refine mapM_eq_some fun i hi ↦ ?_
  obtain ⟨b, hb⟩ := Option.ne_none_iff_exists'.mp (h i (List.mem_range.mp hi))
  rw [HrxBufferRef.hal, hb]
  rfl

end Bindings

namespace DispatchArgs

/-- The dispatch that the arguments describe, unless they are refused. -/
def translated (x : DispatchArgs) : Option Dispatch :=
  match x.executable, x.config with
  | some e, some c =>
    if (x.bindingCount > 0 ∧ x.bindings.isNone) ∨
      (x.constantsSize > 0 ∧ x.constants.isNone) then none
    else (x.bindings.elim (some []) (buildHalBindings · x.bindingCount)).map fun bs ↦
      ⟨e.hal, x.exportOrdinal, ⟨c.workgroupSize, c.workgroupCount⟩, x.constants, x.constantsSize,
        bs, x.flags⟩
  | _, _ => none

variable {x : DispatchArgs}

theorem translated_eq_some {d : Dispatch} (h : x.translated = some d) :
    ∃ e c bs, x.executable = some e ∧
    x.config = some c ∧
    ¬ ((x.bindingCount > 0 ∧ x.bindings.isNone) ∨ (x.constantsSize > 0 ∧ x.constants.isNone)) ∧
    x.bindings.elim (some []) (buildHalBindings · x.bindingCount) = some bs ∧
    d = ⟨e.hal, x.exportOrdinal, ⟨c.workgroupSize, c.workgroupCount⟩, x.constants, x.constantsSize,
      bs, x.flags⟩ := by
  rw [translated] at h
  split at h
  case h_2 => cases h
  case h_1 e c he hc =>
    split at h
    case isTrue => cases h
    case isFalse hargs =>
      obtain ⟨bs, hbs, rfl⟩ := Option.map_eq_some_iff.mp h
      exact ⟨e, c, bs, he, hc, hargs, hbs, rfl⟩

theorem translated_of_refused (h : x.Refused) : x.translated = none := by
  rw [translated]
  split
  case h_2 => rfl
  case h_1 e c he hc =>
    split
    case isTrue => rfl
    case isFalse hargs =>
      rcases h with h | h | ⟨hcount, h⟩ | ⟨hsize, h⟩ | ⟨bs, hbs, hnull⟩
      · rw [he] at h
        cases h
      · rw [hc] at h
        cases h
      · exact absurd (.inl ⟨hcount, by rw [h]; rfl⟩) hargs
      · exact absurd (.inr ⟨hsize, by rw [h]; rfl⟩) hargs
      · rw [hbs, Option.elim_some, buildHalBindings_eq_none hnull]
        rfl

theorem translated_of_not_refused (h : ¬ x.Refused) : ∃ d, x.translated = some d ∧ x.Passes d := by
  simp only [Refused, not_or] at h
  obtain ⟨he, hc, hbindings, hconstants, hnull⟩ := h
  obtain ⟨e, he⟩ := Option.ne_none_iff_exists'.mp he
  obtain ⟨c, hc⟩ := Option.ne_none_iff_exists'.mp hc
  have hargs :
      ¬ ((x.bindingCount > 0 ∧ x.bindings.isNone) ∨
        (x.constantsSize > 0 ∧ x.constants.isNone)) := by
    rw [Option.isNone_iff_eq_none, Option.isNone_iff_eq_none]
    exact not_or.mpr ⟨hbindings, hconstants⟩
  have htranslated :
      x.translated = (x.bindings.elim (some []) (buildHalBindings · x.bindingCount)).map fun bs ↦
      ⟨e.hal, x.exportOrdinal, ⟨c.workgroupSize, c.workgroupCount⟩, x.constants, x.constantsSize,
        bs, x.flags⟩ := by
    simp only [translated, he, hc, if_neg hargs]
  cases hb : x.bindings with
  | none =>
    have hcount : x.bindingCount = 0 := by
      by_contra hne
      exact hbindings ⟨Nat.pos_of_ne_zero hne, hb⟩
    rw [hb, Option.elim_none, Option.map_some] at htranslated
    refine ⟨_, htranslated, ?_⟩
    exact ⟨⟨e, he, rfl⟩, rfl, ⟨c, hc, rfl, rfl⟩, ⟨rfl, rfl⟩, hcount.symm,
      fun i hi ↦ absurd hi (by omega), rfl⟩
  | some bs =>
    have hbuffers : ∀ i < x.bindingCount, (bs i).buffer ≠ none :=
      fun i hi h ↦ hnull ⟨bs, hb, i, hi, h⟩
    rw [hb, Option.elim_some, buildHalBindings_eq_some hbuffers, Option.map_some] at htranslated
    refine ⟨_, htranslated, ⟨e, he, rfl⟩, rfl, ⟨c, hc, rfl, rfl⟩,
      ⟨rfl, rfl⟩, by simp, fun i hi ↦ ?_, rfl⟩
    obtain ⟨b, hbuf⟩ := Option.ne_none_iff_exists'.mp (hbuffers i hi)
    refine ⟨bs, b, hb, hbuf, ?_⟩
    simp [hi, HrxBufferRef.hal, hbuf]

end DispatchArgs

def RefusedWith (o : Outside) (s : HrxStatus) (t : Trace) : Prop :=
  dispatches t = [] ∧ ∃ m text, payload o m ∈ t ∧
    s = made o m ⟨HrxStatusCode.invalidArgument.toInt, some text⟩

section Paths

variable {σ : Type} {x : DispatchArgs} {o : Outside}

abbrev Undispatched {α : Type} (m : Hrx σ α) : Prop :=
  Confined (fun _ ↦ ()) (fun c ↦ c.dispatch? = none) m

theorem Undispatched.dispatches {α : Type} {m : Hrx σ α} (h : Undispatched m) (o : Outside) (n : ℕ)
    (s : σ) :
    dispatches (m.run o n s).events = [] := List.filterMap_eq_nil_iff.mpr (h o n s).2

theorem dispatches_append (t u : Trace) : dispatches (t ++ u) = dispatches t ++ dispatches u :=
  List.filterMap_append ..

theorem refusedWith_error (text : String) (n : ℕ) (s : σ) :
    RefusedWith o ((hrxError .invalidArgument text).run o n s).val
      ((hrxError .invalidArgument text).run o n s).events := by
  rw [run_hrxError_made (by decide)]
  exact ⟨rfl, n, text, List.mem_singleton_self _, rfl⟩

open SemaphoreLists in
theorem queue_refused {waits signals : CallerListPtr} (dev : DevicePtr) (affinity : ℕ)
    (hx : x.translated = none) (n : ℕ) (s : σ) : ∃ status,
      ((SemaphoreLists.hrxQueueDispatch (some dev) affinity waits signals x).run o n s).val =
        .ok status ∧
      RefusedWith o status
        ((SemaphoreLists.hrxQueueDispatch (some dev) affinity waits signals x).run o n
          s).events := by
  have hrefuse :
      ∀ text, ∃ status, ((refuse .invalidArgument text : Hrx σ _).run o n s).val = .ok status ∧
      RefusedWith o status ((refuse .invalidArgument text : Hrx σ _).run o n s).events := by
    intro text
    refine ⟨_, rfl, ?_⟩
    have h := @refusedWith_error σ o text n s
    simpa [refuse] using h
  cases he : x.executable with
  | none =>
    simp only [SemaphoreLists.hrxQueueDispatch, he]
    exact hrefuse _
  | some e =>
    cases hc : x.config with
    | none =>
      simp only [SemaphoreLists.hrxQueueDispatch, he, hc]
      exact hrefuse _
    | some c =>
      simp only [DispatchArgs.translated, he, hc] at hx
      simp only [SemaphoreLists.hrxQueueDispatch, he, hc]
      split
      case isTrue => exact hrefuse _
      case isFalse hargs =>
        rw [if_neg hargs, Option.map_eq_none_iff] at hx
        rw [hx]
        exact hrefuse _

open SemaphoreLists in
theorem queue_dispatches {waits signals : CallerListPtr} (hw : Fits waits) (hg : Fits signals)
    (dev : DevicePtr) (affinity : ℕ) {d : Dispatch} (hx : x.translated = some d) (n : ℕ) (s : σ) :
    ∃ status,
      ((SemaphoreLists.hrxQueueDispatch (some dev) affinity waits signals x).run o n s).val =
        .ok status ∧
      dispatches
        ((SemaphoreLists.hrxQueueDispatch (some dev) affinity waits signals x).run o n s).events =
          [d] := by
  obtain ⟨e, c, bs, he, hc, hargs, hbs, rfl⟩ := DispatchArgs.translated_eq_some hx
  simp only [SemaphoreLists.hrxQueueDispatch, he, hc, if_neg hargs, hbs, submitting, withLists,
    toIreeSemList_ok hw,
    toIreeSemList_ok hg, run_bind, run_pure, run_call, Outcome.after_val, Outcome.after_events,
    List.nil_append, List.append_nil, dispatches_append]
  refine ⟨_, rfl, ?_⟩
  rw [Undispatched.dispatches (hrxStatusFromIree_calls (fun _ ↦ rfl) _)]
  rfl

/-- Command buffers are created and begun. -/
structure Opens (o : Outside) : Prop where
  creates : ∀ n d k f, (o n (.commandBufferCreate d k f)).status = none
  begins : ∀ n cb, (o n (.commandBufferBegin cb)).status = none

theorem beginCb_opens (ho : Opens o) (n : ℕ) (st : HrxStreamS) : ∃ st' es,
    beginCb.run o n st = ⟨hrxOkStatus, st', es⟩ ∧ dispatches es = [] := by
  have hcreate :
      ok (happens o n (.commandBufferCreate st.device.halDevice 3 affinityAny)) = true := by
    simp [ok, happens, ho.creates]
  have hbegin : ok (happens o (n + 1) (.commandBufferBegin (some n))) = true := by
    simp [ok, happens, ho.begins]
  cases hcb : st.pendingCb with
  | some cb => exact ⟨st, [], by simp [beginCb, hcb], rfl⟩
  | none =>
    refine ⟨{ st with pendingCb := some n },
      [happens o n (.commandBufferCreate st.device.halDevice 3 affinityAny),
      happens o (n + 1) (.commandBufferBegin (some n))], ?_, rfl⟩
    simp [beginCb, hcb, hcreate, hbegin]

theorem dispatches_call {α : Type} {c : Call} {d : Dispatch} {k : Happened → Hrx σ α}
    (hc : c.dispatch? = some d) (hk : ∀ e, Undispatched (k e)) (n : ℕ) (s : σ) :
    dispatches ((call c >>= k).run o n s).events = [d] := by
  have hrest := (hk (happens o n c)).dispatches o (n + 1) s
  rw [dispatches] at hrest
  simp [dispatches, hc, hrest]

theorem recordCommand_dispatches (n : ℕ) (st : HrxStreamS) (d : Dispatch) :
    dispatches ((recordCommand (some (.dispatch d.executable d.function d.config d.constants
      d.constantsSize d.bindings d.flags))).run o n st).events = [d] := by
  have hstatus : ∀ s, Undispatched (hrxStatusFromIree s : Hrx HrxStreamS HrxStatus) :=
    hrxStatusFromIree_calls fun _ ↦ rfl
  rw [recordCommand, run_bind, run_state]
  refine dispatches_call rfl (fun e ↦ .ite (hstatus _) ?_) n st
  exact .bind (.bind .state fun _ ↦ .call rfl) fun b ↦ .ite (hstatus _)
    (.bind (.update fun _ ↦ rfl) fun _ ↦ .pure _)

theorem record_dispatches (ho : Opens o) (n : ℕ) (st : HrxStreamS) (d : Dispatch) :
    dispatches ((record (some (.dispatch d.executable d.function d.config d.constants
      d.constantsSize d.bindings d.flags))).run o n st).events = [d] := by
  obtain ⟨st', es, hrun, hes⟩ := beginCb_opens ho n st
  rw [record, run_bind, hrun]
  refine (dispatches_append ..).trans ?_
  rw [hes, List.nil_append]
  exact recordCommand_dispatches (n + es.length) st' d

theorem stream_refused (ho : Opens o) {mem : Memory} {a : ℕ} {arc : Arc HrxStreamS}
    (ha : mem.streams.cell a = some arc) (hx : x.translated = none) (n : ℕ) :
    RefusedWith o ((hrxStreamDispatch (some a) x).run o n mem).val
      ((hrxStreamDispatch (some a) x).run o n mem).events := by
  cases he : x.executable with
  | none =>
    simp only [hrxStreamDispatch, he]
    exact refusedWith_error _ n mem
  | some e =>
    cases hc : x.config with
    | none =>
      simp only [hrxStreamDispatch, he, hc]
      exact refusedWith_error _ n mem
    | some c =>
      simp only [DispatchArgs.translated, he, hc] at hx
      simp only [hrxStreamDispatch, he, hc]
      split
      case isTrue => exact refusedWith_error _ n mem
      case isFalse hargs =>
        rw [if_neg hargs, Option.map_eq_none_iff] at hx
        have hcommand : x.command e c = none := by
          cases hb : x.bindings with
          | none =>
            rw [hb] at hx
            cases hx
          | some bs =>
            rw [hb, Option.elim_some] at hx
            simp only [DispatchArgs.command, hb, hx, Option.map_none]
        obtain ⟨st', es, hrun, hes⟩ := beginCb_opens ho n arc.data
        obtain ⟨hnone, m, text, hpayload, hval⟩ :=
          @refusedWith_error HrxStreamS o "binding buffer is NULL"
          (n + es.length) st'
        rw [run_onStream ha, hcommand, record, run_bind, hrun]
        refine ⟨?_, m, text, List.mem_append_right es hpayload, hval⟩
        exact (dispatches_append ..).trans (by rw [hes]; exact hnone)

theorem stream_dispatches (ho : Opens o) {mem : Memory} {a : ℕ} {arc : Arc HrxStreamS}
    (ha : mem.streams.cell a = some arc) {d : Dispatch} (hx : x.translated = some d) (n : ℕ) :
    dispatches ((hrxStreamDispatch (some a) x).run o n mem).events = [d] := by
  obtain ⟨e, c, bs, he, hc, hargs, hbs, rfl⟩ := DispatchArgs.translated_eq_some hx
  have hcommand :
      x.command e c = some (.dispatch e.hal x.exportOrdinal ⟨c.workgroupSize, c.workgroupCount⟩
      x.constants x.constantsSize bs x.flags) := by
    cases hb : x.bindings with
    | none =>
      rw [hb, Option.elim_none] at hbs
      obtain rfl := Option.some.inj hbs
      simp only [DispatchArgs.command, hb, Option.map_some]
    | some b =>
      rw [hb, Option.elim_some] at hbs
      simp only [DispatchArgs.command, hb, hbs, Option.map_some]
  simp only [hrxStreamDispatch, he, hc, if_neg hargs]
  rw [run_onStream ha, hcommand]
  exact record_dispatches ho n arc.data
    ⟨e.hal, x.exportOrdinal, ⟨c.workgroupSize, c.workgroupCount⟩, x.constants,
    x.constantsSize, bs, x.flags⟩

end Paths

/-- The two dispatch paths refuse the same inputs and hand the HAL the same dispatch for all
others. -/
theorem dispatch_paths_agree (x : DispatchArgs) (dev : DevicePtr) (affinity : ℕ)
    {waits signals : SemaphoreLists.CallerListPtr} (hw : SemaphoreLists.Fits waits)
    (hg : SemaphoreLists.Fits signals) {mem : Memory} {a : ℕ} {arc : Arc HrxStreamS}
    (ha : mem.streams.cell a = some arc) (o₁ o₂ : Outside) (ho : Opens o₂) (n₁ n₂ : ℕ) : ∃ status,
      ((SemaphoreLists.hrxQueueDispatch (some dev) affinity waits signals x).run o₁ n₁ mem).val =
        .ok status ∧
      (x.Refused →
        RefusedWith o₁ status
          ((SemaphoreLists.hrxQueueDispatch (some dev) affinity waits signals x).run o₁ n₁
            mem).events ∧
        RefusedWith o₂ ((hrxStreamDispatch (some a) x).run o₂ n₂ mem).val
          ((hrxStreamDispatch (some a) x).run o₂ n₂ mem).events) ∧
      (¬ x.Refused → ∃ d, x.Passes d ∧
        dispatches
          ((SemaphoreLists.hrxQueueDispatch (some dev) affinity waits signals x).run o₁ n₁
            mem).events = [d] ∧
        dispatches ((hrxStreamDispatch (some a) x).run o₂ n₂ mem).events = [d]) := by
  by_cases hx : x.Refused
  · have htranslated := DispatchArgs.translated_of_refused hx
    obtain ⟨status, hval, hqueue⟩ :=
      @queue_refused Memory x o₁ waits signals dev affinity htranslated n₁ mem
    exact ⟨status, hval, fun _ ↦ ⟨hqueue, stream_refused ho ha htranslated n₂⟩, fun h ↦ absurd hx h⟩
  · obtain ⟨d, htranslated, hpasses⟩ := DispatchArgs.translated_of_not_refused hx
    obtain ⟨status, hval, hqueue⟩ :=
      @queue_dispatches Memory x o₁ _ _ hw hg dev affinity d htranslated n₁ mem
    exact ⟨status, hval, fun h ↦ absurd h hx,
      fun _ ↦ ⟨d, hpasses, hqueue, stream_dispatches ho ha htranslated n₂⟩⟩

def twoBindings : DispatchArgs :=
  ⟨some ⟨1, 7⟩, 2, some ⟨(4, 1, 1), (64, 1, 1), 0⟩, none, 0,
    some fun i ↦ ⟨some ⟨i + 1, i + 10⟩, 16 * i, 16⟩, 2, 0⟩

def idleStream : Memory :=
  { Memory.initial
    with streams := Heap.empty.put 1 (some ⟨1, ⟨0, none, false, 0, ⟨1, 5⟩, ⟨1, 3, 4, 6⟩⟩⟩) }

theorem dispatch_paths_agree_twoBindings : ∃ d, twoBindings.Passes d ∧
    dispatches ((SemaphoreLists.hrxQueueDispatch (some ⟨1, 3, 4, 6⟩) 0 none none twoBindings).run
      (fun _ _ ↦ {}) 0
      idleStream).events = [d] ∧
    dispatches ((hrxStreamDispatch (some 1) twoBindings).run (fun _ _ ↦ {}) 0 idleStream).events =
      [d] := by
  have hnone : SemaphoreLists.Fits none := fun l hl ↦ nomatch hl
  obtain ⟨status, -, -, hpasses⟩ := @dispatch_paths_agree twoBindings ⟨1, 3, 4, 6⟩ 0 none none hnone
    hnone idleStream 1 _
    (Heap.put_cell_self ..) (fun _ _ ↦ {}) (fun _ _ ↦ {}) ⟨fun _ _ _ _ ↦ rfl, fun _ _ ↦ rfl⟩ 0 0
  refine hpasses ?_
  rintro (h | h | ⟨-, h⟩ | ⟨h, -⟩ | ⟨bs, hbs, i, hi, h⟩)
  · cases h
  · cases h
  · cases h
  · exact absurd h (by decide)
  · obtain rfl := Option.some.inj hbs
    cases h

end HrxSystem.Libhrx
