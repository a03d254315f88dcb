import HrxSystem.External.Runs
import HrxSystem.Hip.Tracer
import Mathlib.Data.List.Perm.Basic

namespace HrxSystem.Hip

open External Program

section Lists

variable {α : Type} {p : α → Bool} {l : List α} {i : ℕ}

theorem exists_of_findIdx? (h : l.findIdx? p = some i) :
    ∃ l₁ a l₂, l = l₁ ++ a :: l₂ ∧ l₁.length = i ∧ p a = true := by
  obtain ⟨hi, ha, -⟩ := List.findIdx?_eq_some_iff_getElem.mp h
  refine ⟨l.take i, l[i], l.drop (i + 1), ?_, by simp; omega, ha⟩
  rw [← List.drop_eq_getElem_cons hi, List.take_append_drop]

theorem set_append_cons (l₁ l₂ : List α) (a b : α) :
    (l₁ ++ a :: l₂).set l₁.length b = l₁ ++ b :: l₂ := by
  simp

theorem modify_append_cons (l₁ l₂ : List α) (a : α) (f : α → α) :
    (l₁ ++ a :: l₂).modify l₁.length f = l₁ ++ f a :: l₂ := by
  induction l₁ with
  | nil => rfl
  | cons x xs ih =>
    rw [List.cons_append, List.length_cons, List.modify_succ_cons, ih, List.cons_append]

end Lists

structure Allocation where
  ptr : Ptr
  size : ℕ
  btype : BufferType
deriving DecidableEq

def TrackedBuffer.allocation (b : TrackedBuffer) : Allocation := ⟨b.ptr, b.size, b.btype⟩

def BufferTable.entries (t : BufferTable) : List Allocation :=
  (t.buffers.filter TrackedBuffer.inUse).map TrackedBuffer.allocation

section Table

variable {st : Tracer} {ptr : Ptr} {size : ℕ}

@[simp] theorem message_config (level : ℤ) (line : TraceLine) (st : Tracer) :
    (st.message level line).config = st.config := by
  rw [Tracer.message]
  split <;> rfl

@[simp] theorem message_buffers (level : ℤ) (line : TraceLine) (st : Tracer) :
    (st.message level line).buffers = st.buffers := by
  rw [Tracer.message]
  split <;> rfl

theorem exists_free {t : BufferTable} (h : t.entries.length < t.buffers.length) :
    ∃ slot, t.buffers.findIdx? (fun b ↦ !b.inUse) = some slot := by
  refine Option.isSome_iff_exists.mp (List.findIdx?_isSome.trans ?_)
  by_contra hall
  simp only [List.any_eq_true, Bool.not_eq_true', not_exists, not_and, Bool.not_eq_false] at hall
  rw [BufferTable.entries, List.length_map, List.filter_eq_self.mpr hall] at h
  exact lt_irrefl _ h

theorem bufferTableAdd_slot (btype : BufferType) (hptr : ptr ≠ 0) (hsize : size ≠ 0) {slot : ℕ}
    (hslot : st.buffers.buffers.findIdx? (fun b ↦ !b.inUse) = some slot) :
    ((bufferTableAdd ptr size btype st).buffers.entries).Perm
      (⟨ptr, size, btype⟩ :: st.buffers.entries) ∧
      (bufferTableAdd ptr size btype st).buffers.buffers.length = st.buffers.buffers.length := by
  obtain ⟨l₁, b, l₂, hl, rfl, hb⟩ := exists_of_findIdx? hslot
  have hb' : b.inUse = false := by simpa using hb
  rw [bufferTableAdd, if_neg (by simp [hptr, hsize]), hslot]
  simp only [BufferTable.entries, hl, set_append_cons, List.filter_append, List.filter_cons, hb',
    Bool.false_eq_true,
    if_false, if_true, List.map_append, List.map_cons, TrackedBuffer.allocation, List.length_append,
    List.length_cons, and_true]
  exact List.perm_middle

theorem bufferTableAdd_entries (btype : BufferType) (hptr : ptr ≠ 0) (hsize : size ≠ 0)
    (hfree : st.buffers.entries.length < st.buffers.buffers.length) :
    ((bufferTableAdd ptr size btype st).buffers.entries).Perm
      (⟨ptr, size, btype⟩ :: st.buffers.entries) ∧
      (bufferTableAdd ptr size btype st).buffers.buffers.length = st.buffers.buffers.length := by
  obtain ⟨slot, hslot⟩ := exists_free hfree
  exact bufferTableAdd_slot btype hptr hsize hslot

theorem bufferTableAdd_cases (ptr : Ptr) (size : ℕ) (btype : BufferType) (st : Tracer) :
    (bufferTableAdd ptr size btype st).buffers = st.buffers ∨ size ≠ 0 ∧
      ((bufferTableAdd ptr size btype st).buffers.entries).Perm
        (⟨ptr, size, btype⟩ :: st.buffers.entries) := by
  by_cases hzero : ptr = 0 ∨ size = 0
  · rw [bufferTableAdd, if_pos hzero]
    exact .inl rfl
  rw [not_or] at hzero
  cases hslot : st.buffers.buffers.findIdx? fun b ↦ !b.inUse with
  | none =>
    rw [bufferTableAdd, if_neg (by simp [hzero]), hslot]
    exact .inl (message_buffers ..)
  | some slot => exact .inr ⟨hzero.2, (bufferTableAdd_slot btype hzero.1 hzero.2 hslot).1⟩

theorem bufferTableRemove_absent (h : ptr ∉ st.buffers.entries.map Allocation.ptr) :
    bufferTableRemove ptr st = st := by
  rw [bufferTableRemove]
  split
  · rfl
  split
  · rfl
  case h_2 slot hslot =>
    obtain ⟨l₁, b, l₂, hl, -, hb⟩ := exists_of_findIdx? hslot
    simp only [Bool.and_eq_true, beq_iff_eq] at hb
    refine absurd ?_ h
    rw [BufferTable.entries, hl]
    simp [hb.1, hb.2, TrackedBuffer.allocation]

theorem bufferTableRemove_entries (hptr : ptr ≠ 0)
    (hmem : ptr ∈ st.buffers.entries.map Allocation.ptr) :
    ∃ a, a.ptr = ptr ∧ st.buffers.entries.Perm (a :: (bufferTableRemove ptr st).buffers.entries) ∧
      (bufferTableRemove ptr st).buffers.buffers.length = st.buffers.buffers.length := by
  have hslot :
      ∃ slot, st.buffers.buffers.findIdx? (fun b ↦ b.inUse && b.ptr == ptr) = some slot := by
    refine Option.isSome_iff_exists.mp (List.findIdx?_isSome.trans ?_)
    obtain ⟨a, ha, rfl⟩ := List.mem_map.mp hmem
    obtain ⟨b, hb, rfl⟩ := List.mem_map.mp ha
    rw [List.mem_filter] at hb
    simp only [List.any_eq_true, Bool.and_eq_true, beq_iff_eq]
    exact ⟨b, hb.1, hb.2, rfl⟩
  obtain ⟨slot, hslot⟩ := hslot
  obtain ⟨l₁, b, l₂, hl, rfl, hb⟩ := exists_of_findIdx? hslot
  simp only [Bool.and_eq_true, beq_iff_eq] at hb
  refine ⟨b.allocation, hb.2, ?_⟩
  rw [bufferTableRemove, if_neg hptr, hslot]
  simp only [BufferTable.entries, hl, modify_append_cons, List.filter_append, List.filter_cons,
    hb.1, Bool.false_eq_true, if_false, if_true, List.map_append, List.map_cons, List.length_append,
    List.length_cons, and_true]
  exact List.perm_middle

end Table

/-- The allocations after one more event: those that were made and not given back. -/
def liveAfter (l : List Allocation) (e : HipEvent) : List Allocation :=
  match e.call with
  | .call (.hipMalloc _ size) =>
    if e.answer.ret = 0 ∧ size ≠ 0 then ⟨e.answer.out.toNat, size, .device⟩ :: l else l
  | .call (.hipHostMalloc _ size _) =>
    if e.answer.ret = 0 ∧ size ≠ 0 then ⟨e.answer.out.toNat, size, .host⟩ :: l else l
  | .call (.hipFree p) | .call (.hipHostFree p) =>
    if e.answer.ret = 0 then l.filter fun a ↦ a.ptr ≠ p else l
  | _ => l

def live (t : HipTrace) : List Allocation := t.foldl liveAfter []

theorem live_snoc (t : HipTrace) (e : HipEvent) : live (t ++ [e]) = liveAfter (live t) e := by
  rw [live, List.foldl_append, List.foldl_cons, List.foldl_nil, live]

/-- What a malloc promises: on success, through a valid pointer, an address that is not in use. -/
def Promises (p : Ptr) (size : ℕ) (a : HipAnswer) (l : List Allocation) : Prop :=
  a.ret = 0 → size ≠ 0 → p ≠ 0 ∧ a.out.toNat ≠ 0 ∧ a.out.toNat ∉ l.map Allocation.ptr

def KeepsPromises (t : HipTrace) : Prop :=
  ∀ t₁ e t₂, t = t₁ ++ e :: t₂ → match e.call with
    | .call (.hipMalloc p size) => Promises p size e.answer (live t₁)
    | .call (.hipHostMalloc p size _) => Promises p size e.answer (live t₁)
    | _ => True

/-- No more allocations are live than the table has slots. -/
def Fits (t : HipTrace) : Prop := ∀ t₁, t₁ <+: t → (live t₁).length ≤ maxTrackedBuffers

def HipCall.freed : HipCall → Option Ptr
  | .hipFree p | .hipHostFree p => some p
  | _ => none

def HipCall.isMemory : HipCall → Bool
  | .hipMalloc .. | .hipHostMalloc .. | .hipFree _ | .hipHostFree _ => true
  | _ => false

abbrev TracerLog := List (Entry HipRequest HipAnswer Tracer (Option HipResult) HipCall)

/-- Runs of the four memory functions through the table of the tracer, in which each call
returns. -/
abbrev MemoryRuns (present : Present) (st₀ st : Tracer) (l : TracerLog) : Prop :=
  Runs (export_ (tracerTable present))
    (fun n st c o ↦ c.isMemory = true ∧ ((export_ (tracerTable present) c).run o n st).val.isSome)
    st₀ st l

def Tracks (st : Tracer) (t : HipTrace) : Prop := st.buffers.entries.Perm (live t)

/-- Each free of a live allocation returned `hipSuccess`. -/
def FreesSucceed (l : TracerLog) : Prop :=
  ∀ l₁ e l₂, l = l₁ ++ e :: l₂ → ∀ p, e.call.freed = some p →
    p ∈ (live (trace l₁)).map Allocation.ptr →
    e.result.val = some (.error 0)

structure TableInv (st : Tracer) (t : HipTrace) : Prop where
  tracks : Tracks st t
  slots : st.buffers.buffers.length = maxTrackedBuffers
  distinct : ((live t).map Allocation.ptr).Nodup
  nonnull : 0 ∉ (live t).map Allocation.ptr

section Steps

variable {present : Present} {o : Backend} {n : ℕ} {st : Tracer} {t : HipTrace} {c : HipCall}
  {p : Ptr} {size : ℕ}
variable {btype : BufferType}

theorem tracedMalloc_run (h : ((tracedMalloc present c p size btype).run o n st).val.isSome) :
    ((tracedMalloc present c p size btype).run o n st).events = [happens o n (.call c)] ∧
      ((tracedMalloc present c p size btype).run o n st).state.buffers =
        (if (o n (.call c)).ret = 0 ∧ p ≠ 0 ∧ (o n (.call c)).out.toNat ≠ 0 then
          bufferTableAdd (o n (.call c)).out.toNat size btype st else st).buffers := by
  cases hpres : present c.symbol with
  | false => simp [tracedMalloc, orAbort, unwrapCall, hpres] at h
  | true =>
    simp only [tracedMalloc, orAbort, unwrapCall, hpres, if_true, run_bind, run_call, run_pure,
      traceMsg, happens]
    by_cases hret : (o n (.call c)).ret = 0 ∧ p ≠ 0
    · by_cases hout : (o n (.call c)).out.toNat = 0 <;> simp [hret, hout]
    · have hret' : ¬ ((o n (.call c)).ret = 0 ∧ p ≠ 0 ∧ (o n (.call c)).out.toNat ≠ 0) :=
        fun h ↦ hret ⟨h.1, h.2.1⟩
      rw [if_neg hret']
      simp [hret]

theorem tracedFree_run (h : ((tracedFree present c p).run o n st).val.isSome) :
    ((tracedFree present c p).run o n st).events = [happens o n (.call c)] ∧
      ((tracedFree present c p).run o n st).state.buffers = (bufferTableRemove p st).buffers ∧
      ((tracedFree present c p).run o n st).val = some (c.result (o n (.call c))) := by
  cases hpres : present c.symbol with
  | false => simp [tracedFree, orAbort, unwrapCall, hpres] at h
  | true => simp [tracedFree, orAbort, unwrapCall, hpres, traceMsg, happens]

theorem TableInv.congr {st' : Tracer} {t' : HipTrace} (h : TableInv st t)
    (hst : st'.buffers = st.buffers) (ht : live t' = live t) : TableInv st' t' := by
  obtain ⟨htracks, hslots, hdistinct, hnonnull⟩ := h
  rw [Tracks, ← hst, ← ht] at htracks
  rw [← hst] at hslots
  rw [← ht] at hdistinct hnonnull
  exact ⟨htracks, hslots, hdistinct, hnonnull⟩

theorem TableInv.malloc {st' : Tracer} {e : HipEvent} (h : TableInv st t)
    (hp : Promises p size e.answer (live t)) (hlive : live (t ++ [e]) =
      if e.answer.ret = 0 ∧ size ≠ 0 then ⟨e.answer.out.toNat, size, btype⟩ :: live t else live t)
    (hfit : (live (t ++ [e])).length ≤ maxTrackedBuffers)
    (hst : st'.buffers = (if e.answer.ret = 0 ∧ p ≠ 0 ∧ e.answer.out.toNat ≠ 0 then
      bufferTableAdd e.answer.out.toNat size btype st else st).buffers) :
      TableInv st' (t ++ [e]) := by
  by_cases hmade : e.answer.ret = 0 ∧ size ≠ 0
  · obtain ⟨hptr, hout, hnew⟩ := hp hmade.1 hmade.2
    rw [if_pos hmade] at hlive
    rw [if_pos ⟨hmade.1, hptr, hout⟩] at hst
    have hroom : st.buffers.entries.length < st.buffers.buffers.length := by
      rw [hlive, List.length_cons, ← h.tracks.length_eq, ← h.slots] at hfit
      omega
    obtain ⟨hperm, hlen⟩ := bufferTableAdd_entries btype hout hmade.2 hroom
    refine ⟨?_, ?_, ?_, ?_⟩
    · rw [Tracks, hst, hlive]
      exact hperm.trans (h.tracks.cons _)
    · rw [hst, hlen, h.slots]
    · rw [hlive, List.map_cons, List.nodup_cons]
      exact ⟨hnew, h.distinct⟩
    · rw [hlive, List.map_cons, List.mem_cons, not_or]
      exact ⟨hout.symm, h.nonnull⟩
  · rw [if_neg hmade] at hlive
    refine h.congr ?_ hlive
    rw [hst]
    split
    case isTrue hret =>
      have hsize : size = 0 := by
        by_contra hne
        exact hmade ⟨hret.1, hne⟩
      rw [bufferTableAdd, if_pos (Or.inr hsize)]
    case isFalse => rfl

theorem live_mem_iff (h : Tracks st t) :
    p ∈ st.buffers.entries.map Allocation.ptr ↔ p ∈ (live t).map Allocation.ptr := (h.map _).mem_iff

theorem TableInv.free {st' : Tracer} {e : HipEvent} (h : TableInv st t)
    (hlive : live (t ++ [e]) = if e.answer.ret = 0 then (live t).filter fun a ↦ a.ptr ≠ p
      else live t)
    (hst : st'.buffers = (bufferTableRemove p st).buffers)
    (hok : p ∈ (live t).map Allocation.ptr → e.answer.ret = 0) : TableInv st' (t ++ [e]) := by
  by_cases hmem : p ∈ (live t).map Allocation.ptr
  · rw [if_pos (hok hmem)] at hlive
    have hptr : p ≠ 0 := fun h0 ↦ h.nonnull (h0 ▸ hmem)
    obtain ⟨a, rfl, hperm, hlen⟩ :=
      bufferTableRemove_entries hptr ((live_mem_iff h.tracks).mpr hmem)
    have hall := h.tracks.symm.trans hperm
    have hnodup := (hall.map Allocation.ptr).nodup h.distinct
    rw [List.map_cons, List.nodup_cons] at hnodup
    have hrest :
        ((live t).filter fun b ↦ b.ptr ≠ a.ptr).Perm
        (bufferTableRemove a.ptr st).buffers.entries := by
      refine (hall.filter _).trans ?_
      rw [List.filter_cons, if_neg (by simp), List.filter_eq_self.mpr]
      intro b hb
      simp only [decide_eq_true_eq]
      exact fun heq ↦ hnodup.1 (List.mem_map.mpr ⟨b, hb, heq⟩)
    refine ⟨?_, ?_, ?_, ?_⟩
    · rw [Tracks, hst, hlive]
      exact hrest.symm
    · rw [hst, hlen, h.slots]
    · rw [hlive]
      exact h.distinct.sublist (List.filter_sublist.map _)
    · rw [hlive]
      exact fun h0 ↦ h.nonnull ((List.filter_sublist.map _).subset h0)
  · have hsame : live (t ++ [e]) = live t := by
      rw [hlive]
      split
      · refine List.filter_eq_self.mpr fun b hb ↦ ?_
        simp only [decide_eq_true_eq]
        exact fun heq ↦ hmem (heq ▸ List.mem_map_of_mem hb)
      · rfl
    refine h.congr ?_ hsame
    rw [hst, bufferTableRemove_absent (fun h' ↦ hmem ((live_mem_iff h.tracks).mp h'))]

theorem TableInv.lost {st' : Tracer} {e : HipEvent} (h : TableInv st t)
    (hlive : live (t ++ [e]) = live t) (hst : st'.buffers = (bufferTableRemove p st).buffers)
    (hmem : p ∈ (live t).map Allocation.ptr) :
    ¬ Tracks st' (t ++ [e]) := by
  intro htracks
  have hptr : p ≠ 0 := fun h0 ↦ h.nonnull (h0 ▸ hmem)
  obtain ⟨a, -, hperm, -⟩ := bufferTableRemove_entries hptr ((live_mem_iff h.tracks).mpr hmem)
  have hbefore := (h.tracks.symm.trans hperm).length_eq
  have hafter := htracks.length_eq
  rw [hst, hlive] at hafter
  rw [List.length_cons] at hbefore
  omega

def Leaks (t : HipTrace) (c : HipCall) (r : Option HipResult) : Prop :=
  ∃ p, c.freed = some p ∧ p ∈ (live t).map Allocation.ptr ∧ r ≠ some (.error 0)

/-- What a call does to an exact table: it stays exact unless a free fails. -/
def Either (t : HipTrace) (c : HipCall)
    (r : Outcome HipRequest HipAnswer Tracer (Option HipResult)) : Prop :=
  (Leaks t c r.val → ¬ Tracks r.state (t ++ r.events)) ∧
    (¬ Leaks t c r.val → TableInv r.state (t ++ r.events))

theorem TableInv.mallocCall (h : TableInv st t) (hfreed : c.freed = none)
    (hlive : ∀ e : HipEvent, e.call = .call c → liveAfter (live t) e =
      if e.answer.ret = 0 ∧ size ≠ 0 then ⟨e.answer.out.toNat, size, btype⟩ :: live t else live t)
    (hp : ∀ e : HipEvent, e.call = .call c → KeepsPromises (t ++ [e]) →
      Promises p size e.answer (live t))
    (hr : ((tracedMalloc present c p size btype).run o t.length st).val.isSome)
    (hlaw : KeepsPromises (t ++ ((tracedMalloc present c p size btype).run o t.length st).events))
    (hfit : Fits (t ++ ((tracedMalloc present c p size btype).run o t.length st).events)) :
    Either t c ((tracedMalloc present c p size btype).run o t.length st) := by
  refine ⟨fun ⟨q, hq, _⟩ ↦ ?_, fun _ ↦ ?_⟩
  · rw [hfreed] at hq
    cases hq
  · obtain ⟨hev, hst⟩ := tracedMalloc_run hr
    rw [hev] at hlaw hfit ⊢
    exact h.malloc (hp _ rfl hlaw) ((live_snoc ..).trans (hlive _ rfl))
      (hfit _ (List.prefix_refl _)) hst

theorem TableInv.freeCall (h : TableInv st t) (hfreed : c.freed = some p)
    (hresult : ∀ a, c.result a = .error a.ret)
    (hlive : ∀ e : HipEvent, e.call = .call c → liveAfter (live t) e =
      if e.answer.ret = 0 then (live t).filter fun a ↦ a.ptr ≠ p else live t)
    (hr : ((tracedFree present c p).run o t.length st).val.isSome) :
    Either t c ((tracedFree present c p).run o t.length st) := by
  obtain ⟨hev, hst, hval⟩ := tracedFree_run hr
  rw [Either, hev, hval, hresult]
  have hlive' := (live_snoc t (happens o t.length (.call c))).trans (hlive _ rfl)
  refine ⟨?_, fun hno ↦ ?_⟩
  · rintro ⟨q, hq, hmem, hne⟩
    obtain rfl : p = q := Option.some.inj (hfreed.symm.trans hq)
    have hret : ¬ (happens o t.length (.call c)).answer.ret = 0 := by
      intro h0
      refine hne ?_
      rw [← h0]
      rfl
    rw [if_neg hret] at hlive'
    exact h.lost hlive' hst hmem
  · refine h.free hlive' hst fun hmem ↦ ?_
    by_contra hret
    exact hno ⟨p, hfreed, hmem, fun h0 ↦ hret (by simpa [happens] using h0)⟩

theorem TableInv.call (h : TableInv st t) (hc : c.isMemory = true)
    (hr : ((export_ (tracerTable present) c).run o t.length st).val.isSome)
    (hlaw : KeepsPromises (t ++ ((export_ (tracerTable present) c).run o t.length st).events))
    (hfit : Fits (t ++ ((export_ (tracerTable present) c).run o t.length st).events)) :
    Either t c ((export_ (tracerTable present) c).run o t.length st) := by
  cases c with
  | hipMalloc p size =>
    refine h.mallocCall rfl (fun e he ↦ by simp only [liveAfter, he])
      (fun e he hk ↦ ?_) hr hlaw hfit
    have hlast := hk t e [] rfl
    simpa only [he] using hlast
  | hipHostMalloc p size flags =>
    refine h.mallocCall rfl (fun e he ↦ by simp only [liveAfter, he])
      (fun e he hk ↦ ?_) hr hlaw hfit
    have hlast := hk t e [] rfl
    simpa only [he] using hlast
  | hipFree p => exact h.freeCall rfl (fun _ ↦ rfl) (fun e he ↦ by simp only [liveAfter, he]) hr
  | hipHostFree p => exact h.freeCall rfl (fun _ ↦ rfl) (fun e he ↦ by simp only [liveAfter, he]) hr
  | _ => cases hc

end Steps

theorem KeepsPromises.left {t u : HipTrace} (h : KeepsPromises (t ++ u)) : KeepsPromises t := by
  intro t₁ e t₂ ht
  refine h t₁ e (t₂ ++ u) ?_
  rw [ht, List.append_assoc, List.cons_append]

theorem Fits.left {t u : HipTrace} (h : Fits (t ++ u)) : Fits t :=
  fun t₁ ht ↦ h t₁ (ht.trans (List.prefix_append t u))

theorem initial_buffers (config : TracerConfig) (traceFile ownsFile : Bool) :
    (Tracer.initial config traceFile ownsFile).buffers =
      ⟨List.replicate maxTrackedBuffers emptyBuffer, 0, 1⟩ := by
  simp only [Tracer.initial]
  split <;> split <;> (try split) <;> (try split) <;> simp

theorem initial_tableInv (config : TracerConfig) (traceFile ownsFile : Bool) :
    TableInv (Tracer.initial config traceFile ownsFile) [] := by
  have hentries : (Tracer.initial config traceFile ownsFile).buffers.entries = [] := by
    rw [initial_buffers, BufferTable.entries, List.map_eq_nil_iff, List.filter_eq_nil_iff]
    intro b hb
    rw [List.eq_of_mem_replicate hb]
    nofun
  refine ⟨?_, ?_, List.nodup_nil, List.not_mem_nil⟩
  · rw [Tracks, hentries]
    exact List.Perm.refl _
  · rw [initial_buffers, List.length_replicate]

section Main

variable {present : Present} {config : TracerConfig} {traceFile ownsFile : Bool} {st : Tracer}
  {l : TracerLog}

theorem FreesSucceed.snoc {e : Entry HipRequest HipAnswer Tracer (Option HipResult) HipCall} :
    FreesSucceed (l ++ [e]) ↔ FreesSucceed l ∧ ¬ Leaks (trace l) e.call e.result.val := by
  refine ⟨fun h ↦ ⟨fun l₁ f l₂ hl ↦ ?_, ?_⟩, ?_⟩
  · refine h l₁ f (l₂ ++ [e]) ?_
    rw [hl, List.append_assoc, List.cons_append]
  · rintro ⟨p, hp, hmem, hne⟩
    exact hne (h l e [] rfl p hp hmem)
  · rintro ⟨hl, hno⟩ l₁ f l₂ heq p hp hmem
    rcases List.eq_nil_or_concat l₂ with rfl | ⟨l₃, g, rfl⟩
    · obtain ⟨rfl, hf⟩ := List.append_inj' heq rfl
      obtain rfl : e = f := by simpa using hf
      by_contra hne
      exact hno ⟨p, hp, hmem, hne⟩
    · rw [List.concat_eq_append, ← List.cons_append, ← List.append_assoc] at heq
      exact hl l₁ f l₃ (List.append_inj' heq rfl).1 p hp hmem

/-- As long as no free fails, the table is exact; where one fails, it is not. -/
theorem tracked_runs (h : MemoryRuns present (.initial config traceFile ownsFile) st l) :
    KeepsPromises (trace l) → Fits (trace l) →
      (FreesSucceed l → TableInv st (trace l)) ∧
      ((∀ st' l', MemoryRuns present (.initial config traceFile ownsFile) st' l' → l' <+: l →
        Tracks st' (trace l')) →
        FreesSucceed l) := by
  induction h with
  | start => exact fun _ _ ↦ ⟨fun _ ↦ initial_tableInv .., fun _ l₁ e l₂ hl ↦ by simp at hl⟩
  | @call st l c o hrun hc ih =>
    intro hlaw hfit
    rw [trace_append, trace_single] at hlaw hfit
    obtain ⟨hinv, hfrees⟩ := ih hlaw.left hfit.left
    refine ⟨fun hall ↦ ?_, fun hall ↦ ?_⟩
    · obtain ⟨hl, hno⟩ := FreesSucceed.snoc.mp hall
      rw [trace_append, trace_single]
      exact ((hinv hl).call hc.1 hc.2 hlaw hfit).2 hno
    · have hl := hfrees fun st' l' hr' hpre ↦ hall st' l' hr' (hpre.trans (List.prefix_append ..))
      refine FreesSucceed.snoc.mpr ⟨hl, fun hleak ↦ ?_⟩
      refine ((hinv hl).call hc.1 hc.2 hlaw hfit).1 hleak ?_
      have hlast := hall _ _ (.call c o hrun hc) (List.prefix_refl _)
      rwa [trace_append, trace_single] at hlast

/-- In every state of a run the entries in use are the live allocations exactly if no free of a live
allocation fails along it. -/
theorem table_is_live_iff (h : MemoryRuns present (.initial config traceFile ownsFile) st l)
    (hlaw : KeepsPromises (trace l)) (hfit : Fits (trace l)) :
    (∀ st' l', MemoryRuns present (.initial config traceFile ownsFile) st' l' → l' <+: l →
      Tracks st' (trace l')) ↔
      FreesSucceed l := by
  obtain ⟨-, hfrees⟩ := tracked_runs h hlaw hfit
  refine ⟨hfrees, fun hall st' l' hrun hpre ↦ ?_⟩
  obtain ⟨l₂, rfl⟩ := hpre
  rw [trace_append] at hlaw hfit
  have hl' : FreesSucceed l' := by
    intro l₁ e l₃ hl
    refine hall l₁ e (l₃ ++ l₂) ?_
    rw [hl, List.append_assoc, List.cons_append]
  exact ((tracked_runs hrun hlaw.left hfit.left).1 hl').tracks

end Main

def freeing (ret : ℤ) : Backend := fun _ r ↦
  match r with
  | .call (.hipMalloc ..) => { out := 4096 }
  | .call (.hipFree _) => { ret := ret }
  | _ => {}

def mallocFree (ret : ℤ) : Tracer × TracerLog :=
  play (export_ (tracerTable fun _ ↦ true)) (.initial {} true false) []
    [(.hipMalloc 8 64, freeing ret), (.hipFree 4096, freeing ret)]

theorem mallocFree_runs (ret : ℤ) :
    MemoryRuns (fun _ ↦ true) (.initial {} true false) (mallocFree ret).1 (mallocFree ret).2 :=
  Runs.play .start _ ⟨⟨rfl, rfl⟩, ⟨rfl, rfl⟩, trivial⟩

theorem mallocFree_trace (ret : ℤ) : trace (mallocFree ret).2 =
    [⟨0, .call (.hipMalloc 8 64), { out := 4096 }⟩, ⟨1, .call (.hipFree 4096), { ret := ret }⟩] :=
  rfl

theorem mallocFree_promises (ret : ℤ) : KeepsPromises (trace (mallocFree ret).2) := by
  rw [mallocFree_trace]
  intro t₁ e t₂ ht
  match t₁ with
  | [] =>
    obtain ⟨rfl, -⟩ := List.cons.inj ht
    exact fun _ _ ↦ ⟨by decide, by decide, by decide⟩
  | [_] =>
    obtain ⟨rfl, -⟩ := List.cons.inj (List.cons.inj ht).2
    trivial
  | _ :: _ :: t₃ => simp at ht

theorem mallocFree_fits (ret : ℤ) : Fits (trace (mallocFree ret).2) := by
  have hlen : ∀ l e, (liveAfter l e).length ≤ l.length + 1 := by
    intro l e
    rw [liveAfter]
    split <;> (try split) <;> first | exact Nat.le_succ_of_le (List.length_filter_le ..) | simp
  intro t₁ ht
  rw [mallocFree_trace] at ht
  match t₁ with
  | [] => exact Nat.zero_le _
  | [e] => exact (hlen [] e).trans (by decide)
  | [e, f] => exact ((hlen _ f).trans (Nat.succ_le_succ (hlen [] e))).trans (by decide)
  | _ :: _ :: _ :: _ => exact absurd ht.length_le (by simp)

def mallocked (ret : ℤ) : Tracer × TracerLog :=
  play (export_ (tracerTable fun _ ↦ true)) (.initial {} true false) []
    [(.hipMalloc 8 64, freeing ret)]

theorem mallocked_runs (ret : ℤ) :
    MemoryRuns (fun _ ↦ true) (.initial {} true false) (mallocked ret).1 (mallocked ret).2 :=
  Runs.play .start _ ⟨⟨rfl, rfl⟩, trivial⟩

theorem mallocked_first (ret : ℤ) : (mallocked ret).2 <+: (mallocFree ret).2 :=
  List.prefix_append _ [_]

theorem freesSucceed_malloc (ret : ℤ) : FreesSucceed (mallocked ret).2 := by
  have hnil : FreesSucceed [] := fun l₁ e l₂ hl ↦ by simp at hl
  refine FreesSucceed.snoc.mpr ⟨hnil, ?_⟩
  rintro ⟨p, ⟨⟩, -⟩

theorem table_is_live_mallocFree :
    (mallocked 0).1.buffers.entries = [⟨4096, 64, .device⟩] ∧
      Tracks (mallocFree 0).1 (trace (mallocFree 0).2) := by
  have hfrees : FreesSucceed (mallocFree 0).2 := by
    refine FreesSucceed.snoc.mpr ⟨freesSucceed_malloc 0, ?_⟩
    rintro ⟨p, -, -, hne⟩
    exact hne rfl
  have htracks :=
    (table_is_live_iff (mallocFree_runs 0) (mallocFree_promises 0) (mallocFree_fits 0)).mpr hfrees
  constructor
  · have hfirst : Tracks (mallocked 0).1 (trace (mallocked 0).2) :=
      htracks _ _ (mallocked_runs 0) (mallocked_first 0)
    exact List.perm_singleton.mp hfirst
  · exact htracks _ _ (mallocFree_runs 0) (List.prefix_refl _)

/-- A `hipFree` that fails: the allocation is live, and the tracer has forgotten it. -/
theorem failed_free_forgotten :
    MemoryRuns (fun _ ↦ true) (.initial {} true false) (mallocFree 1).1 (mallocFree 1).2 ∧
      KeepsPromises (trace (mallocFree 1).2) ∧ Fits (trace (mallocFree 1).2) ∧
      ¬ Tracks (mallocFree 1).1 (trace (mallocFree 1).2) := by
  refine ⟨mallocFree_runs 1, mallocFree_promises 1, mallocFree_fits 1, ?_⟩
  have hlaw := mallocFree_promises 1
  have hfit := mallocFree_fits 1
  have hinv :=
    (tracked_runs (mallocked_runs 1) (KeepsPromises.left (u := [_]) hlaw)
      (Fits.left (u := [_]) hfit)).1
    (freesSucceed_malloc 1)
  have heither :=
    @TableInv.call (fun _ ↦ true) (freeing 1) _ _ (.hipFree 4096) hinv rfl rfl hlaw hfit
  exact heither.1 ⟨4096, rfl, by decide, by decide⟩

end HrxSystem.Hip
