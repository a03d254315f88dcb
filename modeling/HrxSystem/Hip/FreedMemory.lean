import HrxSystem.Hip.LiveBuffers
import Mathlib.Data.Set.Basic

namespace HrxSystem.Hip

open External Program

/-- Which of the passed-on symbols `dlsym` finds. -/
abbrev PresentDirect := String → Bool

/-- An exported call with the table of the tracer active. A passed-on symbol that is missing returns
1. -/
def Exported.run (present : Present) (direct : PresentDirect) :
    Exported → HipM Tracer (Option HipResult)
  | .routed c => export_ (tracerTable present) c
  | .direct name args =>
    if direct name then do
      let e ← call (.pass name args)
      return some (.error e.answer.ret)
    else return some (.error 1)

abbrev ExportLog := List (Entry HipRequest HipAnswer Tracer (Option HipResult) Exported)

abbrev ExportRuns (present : Present) (direct : PresentDirect) (st₀ st : Tracer) (l : ExportLog) :
    Prop :=
  Runs (Exported.run present direct) (fun _ _ _ _ ↦ True) st₀ st l

/-- What call `x` may ask the backend for: itself, a synchronization, and the memory of entries. -/
def AsksFor (x : Exported) (t : BufferTable) : HipRequest → Prop
  | .call c => x = .routed c ∨ c = .hipDeviceSynchronize
  | .pass name args => x = .direct name args
  | .stage p n | .read p n => ∃ a ∈ t.entries, a.ptr = p ∧ n ≤ a.size

def Within {α : Type} (x : Exported) (t : BufferTable) (m : HipM Tracer α) : Prop :=
  ∀ o n st, st.buffers = t → (m.run o n st).state.buffers = t ∧ ∀ e ∈ (m.run o n st).events,
    AsksFor x t e.call

namespace Within

variable {α β : Type} {x : Exported} {t : BufferTable} {m : HipM Tracer α} {k : α → HipM Tracer β}

theorem pure (a : α) : Within x t (Pure.pure a : HipM Tracer α) := by
  intro o n st hst
  simpa using hst

theorem call {r : HipRequest} (hr : AsksFor x t r) : Within x t (Program.call r) := by
  intro o n st hst
  simpa using ⟨hst, hr⟩

theorem update {f : Tracer → Tracer} (hf : ∀ st, (f st).buffers = st.buffers) :
    Within x t (Program.update f) := by
  intro o n st hst
  simpa [hf] using hst

theorem bind (hm : Within x t m) (hk : ∀ a, Within x t (k a)) : Within x t (m >>= k) := by
  intro o n st hst
  obtain ⟨hs, he⟩ := hm o n st hst
  obtain ⟨hs', he'⟩ := hk (m.run o n st).val o (n + (m.run o n st).events.length) _ hs
  refine ⟨hs', fun e h ↦ ?_⟩
  rw [run_bind, Outcome.after_events, List.mem_append] at h
  exact h.elim (he e) (he' e)

theorem state {k : Tracer → HipM Tracer β} (hk : ∀ st, st.buffers = t → Within x t (k st)) :
    Within x t (Program.state >>= k) := by
  intro o n st hst
  simpa using hk st hst o n st hst

theorem ite {c : Prop} [Decidable c] {m' : HipM Tracer α} (hm : c → Within x t m)
    (hm' : ¬ c → Within x t m') :
    Within x t (if c then m else m') := by
  split
  · exact hm ‹_›
  · exact hm' ‹_›

theorem orAbort {m : HipM Tracer (Option α)} {k : α → HipM Tracer (Option β)} (hm : Within x t m)
    (hk : ∀ a, Within x t (k a)) : Within x t (Hip.orAbort m k) := by
  refine hm.bind fun r ↦ ?_
  cases r with
  | none => exact pure _
  | some a => exact hk a

theorem traceMsg (level : ℤ) (line : TraceLine) : Within x t (Hip.traceMsg level line) :=
  update fun _ ↦ message_buffers ..

theorem unwrapCall (present : Present) {c : HipCall} (hc : AsksFor x t (.call c)) :
    Within x t (Hip.unwrapCall present c) :=
  ite (fun _ ↦ bind (call hc) fun _ ↦ pure _) fun _ ↦ pure _

end Within

section Dumps

variable {x : Exported} {t : BufferTable} {present : Present}

theorem rawWrite_within (line : TraceLine) : Within x t (rawWrite line) := by
  refine .update fun st ↦ ?_
  rw [Tracer.raw]
  split <;> rfl

theorem reportBuffer_within (force : Bool) (maxDump : ℕ) (b : TrackedBuffer) (data : List UInt8) :
    Within x t (reportBuffer force maxDump b data) := by
  refine .state fun st _ ↦ .ite (fun _ ↦ (rawWrite_within _).bind fun _ ↦ .pure _) fun _ ↦
    (rawWrite_within _).bind fun _ ↦ ?_
  cases dumpBufferHex data b.size maxDump with
  | none => exact .pure _
  | some text => exact (rawWrite_within _).bind fun _ ↦ .pure _

theorem dumpBuffer_within (force : Bool) {b : TrackedBuffer} (hb : b ∈ t.buffers) :
    Within x t (dumpBuffer present force b) := by
  refine .ite (fun _ ↦ .pure _) fun hskip ↦ .state fun st _ ↦ ?_
  have huse : b.inUse = true := by
    simp only [Bool.or_eq_true, Bool.not_eq_true', not_or, Bool.not_eq_false] at hskip
    exact hskip.1
  have hentry : b.allocation ∈ t.entries := List.mem_map_of_mem (List.mem_filter.mpr ⟨hb, huse⟩)
  have hread :
      ∀ d : ℕ, (if (!force && decide (d > 0) && decide (b.size > d)) = true then d else b.size) ≤
        b.size := by
    intro d
    split
    case isTrue h =>
      simp only [Bool.and_eq_true, decide_eq_true_eq] at h
      exact h.2.le
    case isFalse => exact le_refl _
  refine .ite (fun _ ↦ .ite (fun _ ↦ .pure _) fun _ ↦ ?_) fun _ ↦ ?_
  · refine .bind (.call ⟨_, hentry, rfl, hread _⟩) fun _ ↦ .ite (fun _ ↦ ?_) fun _ ↦
      reportBuffer_within _ _ _ _
    exact (Within.traceMsg _ _).bind fun _ ↦ .pure _
  · exact .bind (.call ⟨_, hentry, rfl, hread _⟩) fun _ ↦ reportBuffer_within _ _ _ _

theorem dumpBuffers_within (force : Bool) {bs : List TrackedBuffer}
    (hbs : ∀ b ∈ bs, b ∈ t.buffers) :
    Within x t (dumpBuffers present force bs) := by
  induction bs with
  | nil => exact .pure _
  | cons b bs ih =>
    exact (dumpBuffer_within force (hbs b (List.mem_cons_self ..))).orAbort fun _ ↦
      ih fun b' hb' ↦ hbs b' (List.mem_cons_of_mem _ hb')

theorem dumpAllBuffersEx_within (label : String) (force : Bool) :
    Within x t (dumpAllBuffersEx present label force) := by
  refine .state fun st hst ↦ .ite (fun _ ↦ .pure _) fun _ ↦ (Within.traceMsg _ _).bind fun _ ↦ ?_
  exact dumpBuffers_within force fun b hb ↦ hst ▸ hb

theorem syncAndDump_within (label : String) (force : Bool) :
    Within x t (syncAndDump present label force) :=
  (Within.unwrapCall present (.inr rfl)).orAbort fun _ ↦ dumpAllBuffersEx_within label force

theorem shouldFullDumpKernel_within (name : Option String) :
    Within x t (shouldFullDumpKernel name) := by
  refine .state fun st _ ↦ ?_
  cases fullDumpToken st name with
  | none => exact .pure _
  | some token => exact (Within.traceMsg _ _).bind fun _ ↦ .pure _

theorem tracedLaunch_within (c : HipCall) (f : Ptr) :
    Within (.routed c) t (tracedLaunch present c f) := by
  have hdump : ∀ (b : Bool) (label : String) (force : Bool),
      Within (.routed c) t (if b then syncAndDump present label force else return some ()) :=
      fun b label force ↦
    .ite (fun _ ↦ syncAndDump_within label force) fun _ ↦ .pure _
  refine .state fun st _ ↦ (shouldFullDumpKernel_within _).bind fun doFull ↦
    (hdump _ _ _).orAbort fun _ ↦ ?_
  refine (Within.traceMsg _ _).bind fun _ ↦ (Within.unwrapCall present (.inl rfl)).orAbort fun a ↦
    (hdump _ _ _).orAbort fun _ ↦ ?_
  refine .ite (fun _ ↦ .bind (.update fun _ ↦ rfl) fun _ ↦ ?_) fun _ ↦ ?_
  · exact (Within.traceMsg _ _).bind fun _ ↦ .pure _
  · exact (Within.traceMsg _ _).bind fun _ ↦ .pure _

theorem reported_within (c : HipCall) (out : HipAnswer → ℤ) :
    Within (.routed c) t (reported present c out) :=
  (Within.unwrapCall present (.inl rfl)).orAbort fun _ ↦ (Within.traceMsg _ _).bind fun _ ↦ .pure _

theorem realTable_within {c : HipCall} {m : HipM Tracer (Option HipResult)}
    (h : realTable present c = some m) :
    Within (.routed c) t m := by
  rw [realTable] at h
  split at h
  · obtain rfl := Option.some.inj h
    exact .bind (.call (.inl rfl)) fun _ ↦ .pure _
  · cases h

theorem kernelTableAdd_buffers (hostFunc : Ptr) (name : Option String) (st : Tracer) :
    (kernelTableAdd hostFunc name st).buffers = st.buffers := by
  rw [kernelTableAdd]
  split
  · rfl
  · split <;> rfl

theorem export_within {c : HipCall} (hc : c.isMemory = false) :
    Within (.routed c) t (export_ (tracerTable present) c) := by
  have hreal : ∀ c, Within (.routed c) t (export_ (realTable present) c) := by
    intro c
    rw [export_]
    split
    case h_1 m hm => exact realTable_within hm
    case h_2 => exact .pure _
  have hvoid :
      ∀ c, Within (.routed c) t
        (orAbort (unwrapCall present c) fun _ ↦ return some HipResult.nothing) :=
    fun c ↦ (Within.unwrapCall present (.inl rfl)).orAbort fun _ ↦ .pure _
  cases c with
  | hipModuleLaunchKernel => exact tracedLaunch_within _ _
  | hipLaunchKernel => exact tracedLaunch_within _ _
  | hipExtModuleLaunchKernel => exact tracedLaunch_within _ _
  | hipUnregisterFatBinary => exact (Within.traceMsg _ _).bind fun _ ↦ hvoid _
  | hipRegisterFunction =>
    exact .bind (.update (kernelTableAdd_buffers _ _)) fun _ ↦ (Within.traceMsg _ _).bind
      fun _ ↦ hvoid _
  | hipRegisterVar => exact (Within.traceMsg _ _).bind fun _ ↦ hvoid _
  | hipMalloc | hipFree | hipHostMalloc | hipHostFree => cases hc
  | hipInit | hipGetDevice | hipGetDeviceCount | hipSetDevice | hipDeviceSynchronize | hipMemcpy
  | hipMemcpyAsync | hipMemset | hipMemsetAsync | hipStreamCreate | hipStreamCreateWithFlags
  | hipStreamDestroy | hipStreamSynchronize | hipEventCreate | hipEventCreateWithFlags
  | hipEventDestroy | hipEventRecord | hipEventSynchronize
  | hipRegisterFatBinary => exact reported_within _ _
  | _ => exact hreal _

end Dumps

/-- The blocks that the backend has allocated and not freed, as the trace of its calls determines
them. -/
abbrev Blocks := HipTrace → Set (Ptr × ℕ)

/-- What the backend's memory functions do to its blocks. -/
structure Allocates (blocks : Blocks) (t : HipTrace) : Prop where
  made : ∀ t₁ e t₂, t = t₁ ++ e :: t₂ → ∀ p size, (e.call = .call (.hipMalloc p size) ∨
    ∃ flags, e.call = .call (.hipHostMalloc p size flags)) →
      blocks t₁ ⊆ blocks (t₁ ++ [e]) ∧ (e.answer.ret = 0 → size ≠ 0 → e.answer.out.toNat ≠ 0 →
        (e.answer.out.toNat, size) ∈ blocks (t₁ ++ [e]) ∧ ∀ m, (e.answer.out.toNat, m) ∉ blocks t₁)
  freed : ∀ t₁ e t₂, t = t₁ ++ e :: t₂ →
    ∀ p, (e.call = .call (.hipFree p) ∨ e.call = .call (.hipHostFree p)) →
    ∀ b ∈ blocks t₁, b.1 ≠ p → b ∈ blocks (t₁ ++ [e])

def Allocation.block (a : Allocation) : Ptr × ℕ := (a.ptr, a.size)

def Exported.isMemory : Exported → Bool
  | .routed c => c.isMemory
  | .direct .. => false

/-- No request of a call other than the four memory functions frees a block that an entry stands
for. -/
def SparesEntries (blocks : Blocks) (l : ExportLog) : Prop :=
  ∀ l₁ e l₂, l = l₁ ++ e :: l₂ → e.call.isMemory = false →
    ∀ u f v, e.result.events = u ++ f :: v → ∀ a ∈ e.before.buffers.entries,
      a.block ∈ blocks (trace l₁ ++ u) → a.block ∈ blocks (trace l₁ ++ u ++ [f])

/-- Every entry in use stands for an allocated block, each for its own. -/
structure Valid (blocks : Blocks) (st : Tracer) (t : HipTrace) : Prop where
  allocated : ∀ a ∈ st.buffers.entries, a.block ∈ blocks t
  distinct : (st.buffers.entries.map Allocation.ptr).Nodup
  nonnull : ∀ a ∈ st.buffers.entries, a.ptr ≠ 0

section Steps

variable {blocks : Blocks} {present : Present} {direct : PresentDirect} {o : Backend} {st : Tracer}
  {t : HipTrace}
variable {c : HipCall} {p : Ptr} {size : ℕ} {btype : BufferType}

theorem Valid.congr {st' : Tracer} {t' : HipTrace} (h : Valid blocks st t)
    (hst : st'.buffers = st.buffers)
    (ht : ∀ a ∈ st.buffers.entries, a.block ∈ blocks t → a.block ∈ blocks t') :
    Valid blocks st' t' := by
  refine ⟨?_, hst ▸ h.distinct, hst ▸ h.nonnull⟩
  rw [hst]
  exact fun a ha ↦ ht a ha (h.allocated a ha)

theorem Valid.malloc {st' : Tracer} {e : HipEvent} (h : Valid blocks st t)
    (halloc : blocks t ⊆ blocks (t ++ [e]) ∧ (e.answer.ret = 0 → size ≠ 0 → e.answer.out.toNat ≠ 0 →
      (e.answer.out.toNat, size) ∈ blocks (t ++ [e]) ∧ ∀ m, (e.answer.out.toNat, m) ∉ blocks t))
    (hst : st'.buffers = (if e.answer.ret = 0 ∧ p ≠ 0 ∧ e.answer.out.toNat ≠ 0 then
      bufferTableAdd e.answer.out.toNat size btype st else st).buffers) :
      Valid blocks st' (t ++ [e]) := by
  obtain ⟨hgrow, hnew⟩ := halloc
  split at hst
  case isFalse => exact h.congr hst fun a _ ha ↦ hgrow ha
  case isTrue hok =>
    obtain hsame | ⟨hsize, hperm⟩ := bufferTableAdd_cases e.answer.out.toNat size btype st
    · exact h.congr (hst.trans hsame) fun a _ ha ↦ hgrow ha
    obtain ⟨hblock, hfresh⟩ := hnew hok.1 hsize hok.2.2
    rw [← hst] at hperm
    refine ⟨fun a ha ↦ ?_, ?_, fun a ha ↦ ?_⟩
    · obtain rfl | ha := List.mem_cons.mp (hperm.subset ha)
      · exact hblock
      · exact hgrow (h.allocated a ha)
    · refine (hperm.map Allocation.ptr).nodup_iff.mpr ?_
      rw [List.map_cons, List.nodup_cons]
      refine ⟨fun hmem ↦ ?_, h.distinct⟩
      obtain ⟨a, ha, hptr⟩ := List.mem_map.mp hmem
      have hblock' := h.allocated a ha
      rw [Allocation.block, hptr] at hblock'
      exact hfresh _ hblock'
    · obtain rfl | ha := List.mem_cons.mp (hperm.subset ha)
      · exact hok.2.2
      · exact h.nonnull a ha

theorem Valid.removed (h : Valid blocks st t) (p : Ptr) :
    ∀ a ∈ (bufferTableRemove p st).buffers.entries, a ∈ st.buffers.entries ∧ a.ptr ≠ p := by
  intro a ha
  by_cases hmem : p ∈ st.buffers.entries.map Allocation.ptr
  · obtain ⟨b, hb, hbp⟩ := List.mem_map.mp hmem
    have hptr : p ≠ 0 := hbp ▸ h.nonnull b hb
    obtain ⟨a', rfl, hperm, -⟩ := bufferTableRemove_entries hptr hmem
    have hnodup := (hperm.map Allocation.ptr).nodup h.distinct
    rw [List.map_cons, List.nodup_cons] at hnodup
    exact ⟨hperm.symm.subset (List.mem_cons_of_mem _ ha),
      fun heq ↦ hnodup.1 (List.mem_map.mpr ⟨a, ha, heq⟩)⟩
  · rw [bufferTableRemove_absent hmem] at ha
    exact ⟨ha, fun heq ↦ hmem (heq ▸ List.mem_map_of_mem ha)⟩

theorem bufferTableRemove_sublist (p : Ptr) (st : Tracer) :
    (bufferTableRemove p st).buffers.entries.Sublist st.buffers.entries := by
  rw [bufferTableRemove]
  split
  · exact List.Sublist.refl _
  split
  · exact List.Sublist.refl _
  case h_2 slot hslot =>
    obtain ⟨l₁, b, l₂, hl, rfl, hb⟩ := exists_of_findIdx? hslot
    simp only [Bool.and_eq_true, beq_iff_eq] at hb
    simp only [BufferTable.entries, hl, modify_append_cons, List.filter_append,
      List.filter_cons, hb.1, Bool.false_eq_true, if_false, if_true, List.map_append, List.map_cons]
    exact List.Sublist.append (List.Sublist.refl _) (List.sublist_cons_self ..)

theorem Valid.free {st' : Tracer} {t' : HipTrace} (h : Valid blocks st t)
    (hkeep : ∀ b ∈ blocks t, b.1 ≠ p → b ∈ blocks t')
    (hst : st'.buffers = (bufferTableRemove p st).buffers) : Valid blocks st' t' := by
  have hsub := bufferTableRemove_sublist p st
  have hrest := h.removed p
  rw [← hst] at hsub hrest
  refine ⟨fun a ha ↦ ?_, h.distinct.sublist (hsub.map _), fun a ha ↦ h.nonnull a (hsub.subset ha)⟩
  obtain ⟨hmem, hne⟩ := hrest a ha
  exact hkeep _ (h.allocated a hmem) hne

theorem tracedMalloc_aborted
    (h : ((tracedMalloc present c p size btype).run o t.length st).val.isSome = false) :
    ((tracedMalloc present c p size btype).run o t.length st).events = [] ∧
      ((tracedMalloc present c p size btype).run o t.length st).state = st := by
  cases hpres : present c.symbol with
  | false => simp [tracedMalloc, orAbort, unwrapCall, hpres]
  | true =>
    simp only [tracedMalloc, orAbort, unwrapCall, hpres, if_true, run_bind, run_call, run_pure,
      traceMsg, happens] at h
    by_cases hret : (o t.length (.call c)).ret = 0 ∧ p ≠ 0
    · by_cases hout : (o t.length (.call c)).out.toNat = 0 <;> simp [hret, hout] at h
    · simp [hret] at h

theorem tracedFree_aborted (h : ((tracedFree present c p).run o t.length st).val.isSome = false) :
    ((tracedFree present c p).run o t.length st).events = [] ∧
      ((tracedFree present c p).run o t.length st).state = bufferTableRemove p st := by
  cases hpres : present c.symbol with
  | false => simp [tracedFree, orAbort, unwrapCall, hpres]
  | true => simp [tracedFree, orAbort, unwrapCall, hpres, traceMsg] at h

theorem Valid.memoryCall (h : Valid blocks st t) (hc : c.isMemory = true)
    (halloc : Allocates blocks
      (t ++ ((export_ (tracerTable present) c).run o t.length st).events)) :
    Valid blocks ((export_ (tracerTable present) c).run o t.length st).state
      (t ++ ((export_ (tracerTable present) c).run o t.length st).events) := by
  have hmalloc :
      ∀ {c p size btype}, (c = .hipMalloc p size ∨ ∃ flags, c = .hipHostMalloc p size flags) →
      Allocates blocks (t ++ ((tracedMalloc present c p size btype).run o t.length st).events) →
      Valid blocks ((tracedMalloc present c p size btype).run o t.length st).state
        (t ++ ((tracedMalloc present c p size btype).run o t.length st).events) := by
    intro c p size btype hc halloc
    cases hr : ((tracedMalloc present c p size btype).run o t.length st).val.isSome with
    | false =>
      obtain ⟨hev, hst⟩ := tracedMalloc_aborted hr
      rw [hev, hst, List.append_nil]
      exact h
    | true =>
      obtain ⟨hev, hst⟩ := tracedMalloc_run hr
      rw [hev] at halloc ⊢
      refine h.malloc (halloc.made t _ [] rfl p size ?_) hst
      obtain rfl | ⟨flags, rfl⟩ := hc
      · exact .inl rfl
      · exact .inr ⟨flags, rfl⟩
  have hfree : ∀ {c p}, (c = .hipFree p ∨ c = .hipHostFree p) →
      Allocates blocks (t ++ ((tracedFree present c p).run o t.length st).events) →
      Valid blocks ((tracedFree present c p).run o t.length st).state
        (t ++ ((tracedFree present c p).run o t.length st).events) := by
    intro c p hc halloc
    cases hr : ((tracedFree present c p).run o t.length st).val.isSome with
    | false =>
      obtain ⟨hev, hst⟩ := tracedFree_aborted hr
      rw [hev, List.append_nil]
      exact h.free (fun _ hb _ ↦ hb) (congrArg Tracer.buffers hst)
    | true =>
      obtain ⟨hev, hst, -⟩ := tracedFree_run hr
      rw [hev] at halloc ⊢
      refine h.free (halloc.freed t _ [] rfl p ?_) hst
      obtain rfl | rfl := hc
      · exact .inl rfl
      · exact .inr rfl
  cases c with
  | hipMalloc p size => exact hmalloc (.inl rfl) halloc
  | hipHostMalloc p size flags => exact hmalloc (.inr ⟨flags, rfl⟩) halloc
  | hipFree p => exact hfree (.inl rfl) halloc
  | hipHostFree p => exact hfree (.inr rfl) halloc
  | _ => cases hc

theorem memory_requests (hc : c.isMemory = true) :
    Confined (fun _ ↦ ()) (fun r ↦ r = .call c) (export_ (tracerTable present) c) := by
  have hunwrap :
      Confined (fun _ ↦ ()) (fun r ↦ r = .call c) (unwrapCall present c : HipM Tracer _) :=
    .ite (.bind (.call rfl) fun _ ↦ .pure _) (.pure _)
  have hmsg : ∀ level line, Confined (fun _ ↦ ()) (fun r ↦ r = .call c) (traceMsg level line) :=
    fun _ _ ↦ .update fun _ ↦ rfl
  have hmalloc : ∀ p size btype,
      Confined (fun _ ↦ ()) (fun r ↦ r = .call c) (tracedMalloc present c p size btype) := by
    intro p size btype
    refine .bind hunwrap fun r ↦ ?_
    cases r with
    | none => exact .pure _
    | some a =>
      refine .ite (.ite (.bind (.update fun _ ↦ rfl) fun _ ↦ ?_) ?_) ?_
      all_goals exact .bind (hmsg _ _) fun _ ↦ .pure _
  have hfree : ∀ p, Confined (fun _ ↦ ()) (fun r ↦ r = .call c) (tracedFree present c p) := by
    intro p
    refine .bind (.update fun _ ↦ rfl) fun _ ↦ .bind hunwrap fun r ↦ ?_
    cases r with
    | none => exact .pure _
    | some a => exact .bind (hmsg _ _) fun _ ↦ .pure _
  cases c with
  | hipMalloc p size => exact hmalloc _ _ _
  | hipHostMalloc p size flags => exact hmalloc _ _ _
  | hipFree p => exact hfree _
  | hipHostFree p => exact hfree _
  | _ => cases hc

end Steps

/-- An exported call that is not one of the memory functions leaves the table alone and reads only
its entries. -/
theorem Exported.run_within {t : BufferTable} {present : Present} {direct : PresentDirect}
    {x : Exported} (hx : x.isMemory = false) : Within x t (x.run present direct) := by
  cases x with
  | routed c => exact export_within hx
  | direct name args => exact .ite (fun _ ↦ .bind (.call rfl) fun _ ↦ .pure _) fun _ ↦ .pure _

theorem Allocates.left {blocks : Blocks} {t u : HipTrace} (h : Allocates blocks (t ++ u)) :
    Allocates blocks t where
  made t₁ e t₂ ht := h.made t₁ e (t₂ ++ u) (by rw [ht, List.append_assoc, List.cons_append])
  freed t₁ e t₂ ht := h.freed t₁ e (t₂ ++ u) (by rw [ht, List.append_assoc, List.cons_append])

theorem SparesEntries.left {blocks : Blocks} {l l' : ExportLog}
    (h : SparesEntries blocks (l ++ l')) :
    SparesEntries blocks l :=
  fun l₁ e l₂ hl ↦ h l₁ e (l₂ ++ l') (by rw [hl, List.append_assoc, List.cons_append])

theorem spared {blocks : Blocks} {l₁ l₂ : ExportLog}
    {e : Entry HipRequest HipAnswer Tracer (Option HipResult) Exported}
    (h : SparesEntries blocks (l₁ ++ e :: l₂)) (he : e.call.isMemory = false)
    (hv : Valid blocks e.before (trace l₁)) {u v : HipTrace} (huv : e.result.events = u ++ v) :
    ∀ a ∈ e.before.buffers.entries, a.block ∈ blocks (trace l₁ ++ u) := by
  induction u using List.reverseRecOn generalizing v with
  | nil =>
    rw [List.append_nil]
    exact hv.allocated
  | append_singleton u f ih =>
    rw [List.append_assoc, List.singleton_append] at huv
    intro a ha
    rw [← List.append_assoc]
    exact h l₁ e l₂ rfl he u f v huv a ha (ih huv a ha)

section Main

variable {blocks : Blocks} {present : Present} {direct : PresentDirect} {config : TracerConfig}
  {traceFile ownsFile : Bool}
variable {st : Tracer} {l : ExportLog}

theorem initial_valid (blocks : Blocks) (config : TracerConfig) (traceFile ownsFile : Bool) :
    Valid blocks (.initial config traceFile ownsFile) [] := by
  have hentries : (Tracer.initial config traceFile ownsFile).buffers.entries = [] :=
    (initial_tableInv config traceFile ownsFile).tracks.eq_nil
  refine ⟨?_, ?_, ?_⟩
  · rw [hentries]
    simp
  · rw [hentries]
    exact List.nodup_nil
  · rw [hentries]
    simp

/-- As long as nothing but the four memory functions frees what the entries stand for, they are
valid. -/
theorem valid_runs (h : ExportRuns present direct (.initial config traceFile ownsFile) st l) :
    Allocates blocks (trace l) → SparesEntries blocks l → Valid blocks st (trace l) := by
  induction h with
  | start => exact fun _ _ ↦ initial_valid ..
  | @call st l x o hrun _ ih =>
    intro halloc hspares
    rw [trace_append, trace_single] at halloc ⊢
    have hv := ih halloc.left hspares.left
    cases hx : x.isMemory with
    | true =>
      cases x with
      | routed c => exact hv.memoryCall hx halloc
      | direct name args => cases hx
    | false =>
      refine hv.congr (Exported.run_within hx o _ st rfl).1 fun a ha _ ↦ ?_
      exact @spared _ _ [] _ hspares hx hv _ [] (List.append_nil _).symm a ha

/-- As long as no call other than the memory functions frees a block that an entry stands for, the
tracer reads allocated memory only: at each read of a dump, every entry in use stands for an
allocated block of its full size, no two for the same address, and the read lies within one of
them. -/
theorem dumps_read_allocated
    (h : ExportRuns present direct (.initial config traceFile ownsFile) st l)
    (halloc : Allocates blocks (trace l)) (hspares : SparesEntries blocks l) :
    ∀ l₁ e l₂, l = l₁ ++ e :: l₂ → ∀ u f v, e.result.events = u ++ f :: v →
      ∀ p n, (f.call = .stage p n ∨ f.call = .read p n) →
        (∃ a ∈ e.before.buffers.entries, a.ptr = p ∧ n ≤ a.size) ∧
          (∀ a ∈ e.before.buffers.entries, (a.ptr, a.size) ∈ blocks (trace l₁ ++ u)) ∧
          (e.before.buffers.entries.map Allocation.ptr).Nodup := by
  intro l₁ e l₂ hl u f v hev p n hf
  obtain ⟨hrun, -, o, -, hres⟩ := h.upTo hl
  rw [hl, trace_append] at halloc
  rw [hl] at hspares
  have hv := valid_runs hrun halloc.left hspares.left
  have hmem : f ∈ e.result.events := by
    rw [hev]
    simp
  cases hx : e.call.isMemory with
  | true =>
    rw [hres] at hmem
    cases hcall : e.call with
    | direct name args =>
      rw [hcall] at hx
      cases hx
    | routed c =>
      rw [hcall] at hmem hx
      have hreq := (memory_requests hx o _ e.before).2 f hmem
      obtain hf | hf := hf
      · rw [hf] at hreq
        cases hreq
      · rw [hf] at hreq
        cases hreq
  | false =>
    refine ⟨?_, spared hspares hx hv hev, hv.distinct⟩
    rw [hres] at hmem
    have hreads := (Exported.run_within hx o _ e.before rfl).2 f hmem
    obtain hf | hf := hf
    · rwa [hf] at hreads
    · rwa [hf] at hreads

end Main

section Reads

variable (present : Present) (o : Backend) (n : ℕ) {st : Tracer} {b : TrackedBuffer}
  {bs : List TrackedBuffer}

theorem run_orAbort_events {σ α β : Type} (m : HipM σ (Option α)) (k : α → HipM σ (Option β))
    (s : σ) :
    ∃ v, ((orAbort m k).run o n s).events = (m.run o n s).events ++ v := ⟨_, rfl⟩

theorem dumpBuffers_reads (force : Bool) (huse : b.inUse = true) (hsize : b.size ≠ 0)
    (hhost : b.btype = .host) (hmax : b.size ≤ st.config.traceDumpMax) :
    ∃ v, ((dumpBuffers present force (b :: bs)).run o n st).events = happens o n
      (.read b.ptr b.size) :: v := by
  obtain ⟨v, hv⟩ :=
    run_orAbort_events o n (dumpBuffer present force b) (fun _ ↦ dumpBuffers present force bs) st
  rw [dumpBuffers, hv]
  simp [dumpBuffer, huse, hsize, hhost, Nat.not_lt.mpr hmax]

theorem syncAndDump_reads (label : String) (force : Bool)
    (hp : present .hipDeviceSynchronize = true) (hdump : st.config.traceDump ≠ 0)
    (hbuf : st.buffers.buffers = b :: bs) (huse : b.inUse = true) (hsize : b.size ≠ 0)
    (hhost : b.btype = .host) (hmax : b.size ≤ st.config.traceDumpMax) :
    ∃ v, ((syncAndDump present label force).run o n st).events =
      happens o n (.call .hipDeviceSynchronize) :: happens o (n + 1) (.read b.ptr b.size) :: v := by
  have hmax' :
      b.size ≤ (st.message 3 (.dumpHeader label st.buffers.count force)).config.traceDumpMax := by
    rwa [message_config]
  obtain ⟨v, hv⟩ := @dumpBuffers_reads present o (n + 1) _ b bs force huse hsize hhost hmax'
  refine ⟨v, ?_⟩
  simp [syncAndDump, orAbort, unwrapCall, HipCall.symbol, hp, dumpAllBuffersEx, hdump,
    traceMsg, hbuf, hv]

theorem tracedLaunch_reads (c : HipCall) {f : Ptr} (hp : present .hipDeviceSynchronize = true)
    (hname : fullDumpToken st (kernelTableGetName st f) = none)
    (htrace : shouldTraceKernel st (kernelTableGetName st f) = true)
    (hsync : st.config.traceSync = true) (hdump : st.config.traceDump ≠ 0)
    (hbuf : st.buffers.buffers = b :: bs) (huse : b.inUse = true) (hsize : b.size ≠ 0)
    (hhost : b.btype = .host) (hmax : b.size ≤ st.config.traceDumpMax) :
    ∃ v, ((tracedLaunch present c f).run o n st).events =
      happens o n (.call .hipDeviceSynchronize) :: happens o (n + 1) (.read b.ptr b.size) :: v := by
  have hfull : (shouldFullDumpKernel (kernelTableGetName st f)).run o n st = ⟨false, st, []⟩ := by
    simp [shouldFullDumpKernel, hname]
  obtain ⟨v, hv⟩ :=
    syncAndDump_reads present o n (beforeLabel st.kernelCount (kernelTableGetName st f))
      false hp hdump
    hbuf huse hsize hhost hmax
  have hevents : ∃ w, ((tracedLaunch present c f).run o n st).events =
      ((syncAndDump present (beforeLabel st.kernelCount (kernelTableGetName st f)) false).run o n
        st).events ++ w := by
    simp only [tracedLaunch, run_bind, run_state, List.length_nil, Nat.add_zero,
      Outcome.after_events, List.nil_append, hfull, htrace, hsync, Bool.and_self, if_true]
    exact run_orAbort_events ..
  obtain ⟨w, hw⟩ := hevents
  exact ⟨v ++ w, by rw [hw, hv, List.cons_append, List.cons_append]⟩

end Reads

theorem bufferTableAdd_fresh {st : Tracer} {k p size : ℕ} {btype : BufferType}
    (h : st.buffers.buffers = List.replicate (k + 1) emptyBuffer) (hp : p ≠ 0) (hsize : size ≠ 0) :
    (bufferTableAdd p size btype st).buffers.buffers =
      ⟨p, size, btype, true, st.buffers.nextAllocId⟩ :: List.replicate k emptyBuffer := by
  have hslot : (st.buffers.buffers.findIdx? fun b ↦ !b.inUse) = some 0 := by
    rw [h, List.replicate_succ, List.findIdx?_cons]
    rfl
  rw [bufferTableAdd, if_neg (by simp [hp, hsize]), hslot, h, List.replicate_succ]
  rfl

/-- What a backend with the usual semantics has allocated. `hipFreeHost` is passed straight on. -/
def blocksAfter (l : List (Ptr × ℕ)) (e : HipEvent) : List (Ptr × ℕ) :=
  match e.call with
  | .call (.hipMalloc _ size) | .call (.hipHostMalloc _ size _) =>
    if e.answer.ret = 0 ∧ size ≠ 0 then (e.answer.out.toNat, size) :: l else l
  | .call (.hipFree p) | .call (.hipHostFree p) | .pass "hipFreeHost" [p] =>
    if e.answer.ret = 0 then l.filter fun b ↦ b.1 ≠ p else l
  | _ => l

def usualBlocks : Blocks := fun t ↦ {b | b ∈ t.foldl blocksAfter []}

def HipRequest.inert : HipRequest → Bool
  | .call c => !c.isMemory
  | .pass .. => false
  | .stage .. | .read .. => true

theorem blocksAfter_inert {e : HipEvent} (he : e.call.inert = true) (l : List (Ptr × ℕ)) :
    blocksAfter l e = l := by
  obtain ⟨pos, r, a⟩ := e
  cases r with
  | call c => cases c <;> first | rfl | cases he
  | pass => cases he
  | stage => rfl
  | read => rfl

theorem usualBlocks_snoc (t : HipTrace) (e : HipEvent) (b : Ptr × ℕ) :
    b ∈ usualBlocks (t ++ [e]) ↔ b ∈ blocksAfter (t.foldl blocksAfter []) e := by
  rw [usualBlocks, Set.mem_ofPred_eq, List.foldl_append]
  rfl

theorem usualBlocks_allocates {e : HipEvent} {t : HipTrace}
    (ht : ∀ f ∈ t, ∀ p size, f.call ≠ .call (.hipMalloc p size) ∧
      ∀ flags, f.call ≠ .call (.hipHostMalloc p size flags)) :
    Allocates usualBlocks (e :: t) where
  made t₁ f t₂ hl p size hf := by
    cases t₁ with
    | cons e' t₁ =>
      obtain ⟨rfl, rfl⟩ := List.cons.inj hl
      have hmem : f ∈ t₁ ++ f :: t₂ := by simp
      obtain hf | ⟨flags, hf⟩ := hf
      · exact absurd hf (ht f hmem p size).1
      · exact absurd hf ((ht f hmem p size).2 flags)
    | nil =>
      refine ⟨fun b hb ↦ absurd hb List.not_mem_nil,
        fun hret hsize _ ↦ ⟨?_, fun m ↦ List.not_mem_nil⟩⟩
      rw [usualBlocks_snoc, blocksAfter]
      obtain hf | ⟨flags, hf⟩ := hf
      · rw [hf]
        simp [hret, hsize]
      · rw [hf]
        simp [hret, hsize]
  freed t₁ f t₂ _ p hf b hb hne := by
    have hkept : b ∈ if f.answer.ret = 0 then (t₁.foldl blocksAfter []).filter fun b ↦ b.1 ≠ p
        else t₁.foldl blocksAfter [] := by
      split
      · exact List.mem_filter.mpr ⟨hb, decide_eq_true hne⟩
      · exact hb
    rw [usualBlocks_snoc, blocksAfter]
    obtain hf | hf := hf
    · rwa [hf]
    · rwa [hf]

def hostBackend : Backend := fun _ r ↦
  match r with
  | .call (.hipHostMalloc ..) => { out := 4096 }
  | _ => {}

def dumping : TracerConfig := { traceSync := true, traceDump := 1 }

def hostAllocated : Tracer :=
  ((tracedMalloc (fun _ ↦ true) (.hipHostMalloc 8 64 0) 8 64 .host).run hostBackend 0
    (.initial dumping true false)).state

def launchCall : HipCall := .hipLaunchKernel 1 ⟨1, 1, 1⟩ ⟨1, 1, 1⟩ 0 0 0

abbrev ExportEntry := Entry HipRequest HipAnswer Tracer (Option HipResult) Exported

def entryOf (st : Tracer) (x : Exported) (n : ℕ) : ExportEntry :=
  ⟨st, x, (x.run (fun _ ↦ true) fun _ ↦ true).run hostBackend n st⟩

def mallocEntry : ExportEntry :=
  entryOf (.initial dumping true false) (.routed (.hipHostMalloc 8 64 0)) 0

def freeHostEntry : ExportEntry := entryOf hostAllocated (.direct "hipFreeHost" [4096]) 1

def launchEntry (n : ℕ) : ExportEntry := entryOf hostAllocated (.routed launchCall) n

theorem mallocEntry_events :
    mallocEntry.result.events = [happens hostBackend 0 (.call (.hipHostMalloc 8 64 0))] := rfl

theorem hostAllocated_buffers : hostAllocated.buffers.buffers =
    ⟨4096, 64, .host, true, 1⟩ :: List.replicate 65535 emptyBuffer := by
  have hrun :
      hostAllocated.buffers =
        (bufferTableAdd 4096 64 .host (.initial dumping true false)).buffers :=
    (tracedMalloc_run rfl).2
  rw [hrun]
  exact bufferTableAdd_fresh rfl (by decide) (by decide)

theorem hostAllocated_config : hostAllocated.config = dumping := rfl

theorem freeHostEntry_events :
    freeHostEntry.result.events = [happens hostBackend 1 (.pass "hipFreeHost" [4096])] := rfl

theorem freeHostEntry_state : freeHostEntry.result.state = hostAllocated := rfl

abbrev AllPresent (st : Tracer) (l : ExportLog) : Prop :=
  ExportRuns (fun _ ↦ true) (fun _ ↦ true) (.initial dumping true false) st l

theorem AllPresent.snoc {st : Tracer} {l : ExportLog} (h : AllPresent st l) {n : ℕ}
    (hn : (trace l).length = n) (x : Exported) :
    AllPresent (entryOf st x n).result.state (l ++ [entryOf st x n]) := by
  subst hn
  exact .call x hostBackend h trivial

theorem mallocEntry_state : mallocEntry.result.state = hostAllocated := by
  rw [mallocEntry, entryOf, hostAllocated]
  rfl

theorem mallocEntry_runs : AllPresent hostAllocated [mallocEntry] := by
  have h :=
    AllPresent.snoc .start (congrArg List.length trace_nil) (.routed (.hipHostMalloc 8 64 0))
  rwa [List.length_nil, ← mallocEntry, mallocEntry_state] at h

theorem mallocEntry_length : (trace [mallocEntry]).length = 1 := by
  rw [trace_single, mallocEntry_events, List.length_singleton]

theorem freeHostEntry_runs : AllPresent hostAllocated [mallocEntry, freeHostEntry] := by
  have h := mallocEntry_runs.snoc mallocEntry_length (.direct "hipFreeHost" [4096])
  rwa [← freeHostEntry, freeHostEntry_state] at h

theorem launch_run : Exported.run (fun _ ↦ true) (fun _ ↦ true) (.routed launchCall) =
    tracedLaunch (fun _ ↦ true) launchCall 1 := rfl

theorem launch_reads {st : Tracer} {bs : List TrackedBuffer} (hconfig : st.config = dumping)
    (hbuf : st.buffers.buffers = ⟨4096, 64, .host, true, 1⟩ :: bs) (n : ℕ) :
    ∃ v, ((tracedLaunch (fun _ ↦ true) launchCall 1).run hostBackend n st).events =
      happens hostBackend n (.call .hipDeviceSynchronize) :: happens hostBackend (n + 1)
        (.read 4096 64) :: v := by
  refine tracedLaunch_reads (fun _ ↦ true) hostBackend n launchCall rfl ?_ ?_ ?_ ?_ hbuf rfl
    (by decide) rfl ?_
  all_goals simp [fullDumpToken, shouldTraceKernel, hconfig, dumping]

theorem launchEntry_reads (n : ℕ) : ∃ v, (launchEntry n).result.events =
    happens hostBackend n (.call .hipDeviceSynchronize) :: happens hostBackend (n + 1)
      (.read 4096 64) :: v := by
  rw [launchEntry, entryOf, launch_run]
  exact launch_reads hostAllocated_config hostAllocated_buffers n

theorem launchEntry_inert (n : ℕ) : ∀ e ∈ (launchEntry n).result.events, e.call.inert = true := by
  intro e he
  have hwithin :
      Within (.routed launchCall) hostAllocated.buffers
        (Exported.run (fun _ ↦ true) (fun _ ↦ true) _) :=
    Exported.run_within rfl
  rw [launchEntry, entryOf] at he
  have hasks := (hwithin hostBackend n hostAllocated rfl).2 e he
  cases hcall : e.call with
  | call c =>
    rw [hcall] at hasks
    obtain hc | rfl := hasks
    · obtain rfl := Exported.routed.inj hc
      rfl
    · rfl
  | pass name args =>
    rw [hcall] at hasks
    cases hasks
  | stage => rfl
  | read => rfl

theorem inert_allocates_nothing {e : HipEvent} (he : e.call.inert = true) (p size : ℕ) :
    e.call ≠ .call (.hipMalloc p size) ∧ ∀ flags, e.call ≠ .call (.hipHostMalloc p size flags) := by
  refine ⟨fun h ↦ ?_, fun flags h ↦ ?_⟩
  · rw [h] at he
    cases he
  · rw [h] at he
    cases he

theorem inert_spares {l : ExportLog}
    (h : ∀ e ∈ l, e.call.isMemory = false → ∀ f ∈ e.result.events, f.call.inert = true) :
    SparesEntries usualBlocks l := by
  intro l₁ e l₂ hl he u f v hev a _ ha
  have hf : f.call.inert = true := h e (by simp [hl]) he f (by simp [hev])
  rwa [usualBlocks_snoc, blocksAfter_inert hf]

theorem launch_reads_allocated :
    ∃ l₁ e l₂ u f v, [mallocEntry, launchEntry 1] = l₁ ++ e :: l₂ ∧ e.result.events = u ++ f :: v ∧
      f.call = .read 4096 64 ∧ ∀ a ∈ e.before.buffers.entries,
      (a.ptr, a.size) ∈ usualBlocks (trace l₁ ++ u) := by
  have hrun := mallocEntry_runs.snoc mallocEntry_length (.routed launchCall)
  rw [← launchEntry] at hrun
  have hinert := launchEntry_inert 1
  have halloc : Allocates usualBlocks (trace ([mallocEntry] ++ [launchEntry 1])) := by
    rw [trace_append, trace_single, mallocEntry_events, trace_single, List.singleton_append]
    exact usualBlocks_allocates fun f hf ↦ inert_allocates_nothing (hinert f hf)
  have hspares : SparesEntries usualBlocks ([mallocEntry] ++ [launchEntry 1]) := by
    refine inert_spares fun e he hmem ↦ ?_
    obtain he | he := List.mem_append.mp he
    · rw [List.mem_singleton.mp he, mallocEntry, entryOf] at hmem
      cases hmem
    · rw [List.mem_singleton.mp he]
      exact hinert
  obtain ⟨v, hv⟩ := launchEntry_reads 1
  refine ⟨[mallocEntry], launchEntry 1, [], [_], _, v, rfl, hv, rfl, ?_⟩
  exact (dumps_read_allocated hrun halloc hspares [mallocEntry] (launchEntry 1) [] rfl
    [_] _ v hv 4096 64 (.inr rfl)).2.1

/-- Host memory freed by `hipFreeHost`, which is passed straight on, is read by the next dump. -/
theorem freed_memory_read :
    ∃ st l, ExportRuns (fun _ ↦ true) (fun _ ↦ true) (.initial dumping true false) st l ∧
      Allocates usualBlocks (trace l) ∧ ∃ l₁ e l₂ u f v, l = l₁ ++ e :: l₂ ∧
      e.result.events = u ++ f :: v ∧
        f.call = .read 4096 64 ∧ usualBlocks (trace l₁ ++ u) = ∅ := by
  have htrace :
      trace [mallocEntry, freeHostEntry] = [happens hostBackend 0 (.call (.hipHostMalloc 8 64 0)),
      happens hostBackend 1 (.pass "hipFreeHost" [4096])] := by
    rw [trace, List.flatMap_cons, List.flatMap_singleton, mallocEntry_events, freeHostEntry_events,
      List.singleton_append]
  have hlength : (trace [mallocEntry, freeHostEntry]).length = 2 := by
    rw [htrace]
    rfl
  have hrun := freeHostEntry_runs.snoc hlength (.routed launchCall)
  rw [← launchEntry] at hrun
  refine ⟨_, _, hrun, ?_, ?_⟩
  · rw [trace_append, trace_single, htrace, List.cons_append, List.singleton_append]
    refine usualBlocks_allocates fun f hf p size ↦ ?_
    obtain rfl | hf := List.mem_cons.mp hf
    · exact ⟨fun h ↦ (by cases h), fun _ h ↦ (by cases h)⟩
    · exact inert_allocates_nothing (launchEntry_inert 2 f hf) p size
  · obtain ⟨v, hv⟩ := launchEntry_reads 2
    refine ⟨[mallocEntry, freeHostEntry], launchEntry 2, [], [_], _, v, rfl, hv, rfl, ?_⟩
    rw [htrace]
    exact Set.eq_empty_of_forall_notMem fun b ↦ List.not_mem_nil

end HrxSystem.Hip
