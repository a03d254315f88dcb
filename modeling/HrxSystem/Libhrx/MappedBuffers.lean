import HrxSystem.External.Triples
import HrxSystem.Libhrx.Mappings

namespace HrxSystem.Libhrx

open External Program Counting

def leavesMaps : Call → Bool
  | .bufferMapRange .. | .bufferUnmapRange _ | .bufferRelease _ | .virtualMemoryRelease .. => false
  | _ => true

section LeavesMaps

variable {e : Happened}

theorem mapOf_left (he : leavesMaps e.call = true) : mapOf e = none := by
  unfold mapOf
  split
  · simp_all [leavesMaps]
  · rfl

theorem unmapOf_left (he : leavesMaps e.call = true) : unmapOf e = none := by
  unfold unmapOf
  split
  · simp_all [leavesMaps]
  · rfl

theorem givesBack_left (he : leavesMaps e.call = true) : givesBack e = none := by
  unfold givesBack
  split
  · simp_all [leavesMaps]
  · simp_all [leavesMaps]
  · rfl

theorem Tended.left {t : Trace} {objs : Option ℕ → Option HrxBufferS} (h : Tended t objs)
    (hpos : e.pos = t.length) (he : leavesMaps e.call = true) : Tended (t ++ [e]) objs :=
  h.aside hpos (mapOf_left he) (unmapOf_left he) (givesBack_left he)

end LeavesMaps

section Objects

variable {held : Option HrxBufferS} {buffers : Buffers} {a : ℕ}

theorem objects_update (v : Option (Arc HrxBufferS)) :
    objects held (Function.update buffers a v) = Function.update (objects held buffers) (some a)
      (v.map Arc.data) := by
  funext i
  cases i with
  | none => simp [objects]
  | some b =>
    by_cases hb : b = a
    · subst hb
      simp [objects]
    · simp [objects, Function.update_of_ne hb,
        Function.update_of_ne (fun h ↦ hb (Option.some.inj h))]

theorem objects_held (held' : Option HrxBufferS) :
    objects held' buffers = Function.update (objects held buffers) none held' := by
  funext i
  cases i <;> simp [objects]

theorem objects_swap (v : Option (Arc HrxBufferS)) :
    objects ((buffers a).map Arc.data) (Function.update buffers a v) =
      objects (v.map Arc.data) buffers ∘ Equiv.swap none (some a) := by
  funext i
  cases i with
  | none => simp [objects]
  | some b =>
    by_cases hb : b = a
    · subst hb
      simp [objects]
    · rw [Function.comp_apply, Equiv.swap_apply_of_ne_of_ne (by simp) (by simpa using hb)]
      simp [objects, Function.update_of_ne hb]

theorem objects_same {v : Option (Arc HrxBufferS)}
    (hv : v.map Arc.data = (buffers a).map Arc.data) :
    objects held (Function.update buffers a v) = objects held buffers := by
  rw [objects_update, hv]
  exact Function.update_eq_self (some a) _

end Objects

/-- The trace and the memory are in order while a call has `held` in its hands. -/
def MapsKept (held : Option HrxBufferS) (t : Trace) (mem : Memory) : Prop :=
  Tended t (objects held mem.buffers.cell)

abbrev Always (_ : Outside) : Prop := True

section Calls

variable {α : Type} {held : Option HrxBufferS} {x : HrxBufferS}

theorem kept_confined {m : Hrx Memory α}
    (hm : Confined Memory.buffers (fun c ↦ leavesMaps c = true) m) :
    Triple Always (MapsKept held) m (fun _ ↦ MapsKept held) :=
  Triple.of_confined (I := fun t (buffers : Heap HrxBufferS) ↦ Tended t (objects held buffers.cell))
    hm
    fun _ _ _ h hpos he ↦ h.left hpos he

theorem kept_deviceRelease (device : ℕ) :
    Triple Always (MapsKept held) (hrxDeviceRelease device) (fun _ ↦ MapsKept held) :=
  kept_confined
    (hrxDeviceRelease_calls (fun _ ↦ rfl) (fun _ ↦ rfl) (fun _ ↦ rfl) (fun _ _ ↦ rfl) device)

theorem kept_deviceRetain (device : ℕ) :
    Triple Always (MapsKept held) (hrxDeviceRetain device) (fun _ ↦ MapsKept held) :=
  kept_confined (.update fun _ ↦ rfl)

theorem kept_dropPool (pool : Option PoolPtr) :
    Triple Always (MapsKept held) (HrxBufferS.dropPool pool) (fun _ ↦ MapsKept held) := by
  cases pool with
  | none => exact .pure fun _ _ h ↦ h
  | some p =>
    exact kept_confined
      (halPoolRelease_calls (fun _ ↦ rfl) (fun _ ↦ rfl) (fun _ ↦ rfl) (fun _ ↦ rfl) (some p))

theorem kept_status (s : IreeStatus) :
    Triple Always (MapsKept held) (hrxStatusFromIree s) (fun _ ↦ MapsKept held) :=
  kept_confined (hrxStatusFromIree_calls (fun _ ↦ rfl) s)

theorem kept_error (code : HrxStatusCode) (message : String) :
    Triple Always (MapsKept held) (hrxError code message) (fun _ ↦ MapsKept held) :=
  kept_confined (hrxError_calls (fun _ ↦ rfl) code message)

theorem kept_failing (code : HrxStatusCode) (message : String) (w : Written) :
    Triple Always (MapsKept held) (do return ⟨← hrxError code message, w⟩ : Hrx Memory Returned)
      (fun _ ↦ MapsKept held) :=
  (kept_error code message).bind fun _ ↦ .pure fun _ _ h ↦ h

theorem dropMap_kept : Triple Always (MapsKept (some x)) (HrxBufferS.dropMap x.map)
    (fun _ ↦ MapsKept (some { x with map := none })) := by
  cases hm : x.map with
  | none =>
    refine .pure fun _ _ h ↦ ?_
    rwa [show ({ x with map := none } : HrxBufferS) = x by cases x; simp_all]
  | some m =>
    refine .bind (.call (Q := fun _ ↦ MapsKept (some { x with map := none })) ?_) fun _ ↦
      .pure fun _ _ h ↦ h
    intro e t mem h hpos hcall
    have h' := h.unmapped (i := none) rfl hm hpos hcall
    rwa [← objects_held] at h'

theorem givesBack_kept {c : Call} (hx : x.map = none)
    (hmap : ∀ e : Happened, e.call = c → mapOf e = none)
    (hunmap : ∀ e : Happened, e.call = c → unmapOf e = none)
    (hback : ∀ e : Happened, e.call = c → givesBack e = some x.halBuffer) :
    Triple Always (MapsKept (some x)) (call c) (fun _ ↦ MapsKept none) := by
  refine .call fun e t mem h hpos hcall ↦ ?_
  have h' := h.givenBack (i := none) rfl hx hpos (hmap e hcall) (hunmap e hcall) (hback e hcall)
  rwa [← objects_held] at h'

theorem bufferRelease_kept (hx : x.map = none) :
    Triple Always (MapsKept (some x)) (call (.bufferRelease (some x.halBuffer)))
      (fun _ ↦ MapsKept none) :=
  givesBack_kept hx (fun e he ↦ by simp [mapOf, he]) (fun e he ↦ by simp [unmapOf, he])
    fun e he ↦ by simp [givesBack, he]

theorem drop_kept : Triple Always (MapsKept (some x)) x.drop (fun _ ↦ MapsKept none) :=
  dropMap_kept.bind fun _ ↦ (bufferRelease_kept (x := { x with map := none }) rfl).bind fun _ ↦
    (kept_dropPool _).bind fun _ ↦ kept_deviceRelease _

theorem releaseVirtual_kept (allocator : DevicePtr) :
    Triple Always (MapsKept (some x)) (releaseVirtual allocator x) (fun _ ↦ MapsKept none) := by
  refine dropMap_kept.bind fun _ ↦ (kept_dropPool _).bind fun _ ↦ ?_
  refine (givesBack_kept (x := { x with map := none }) rfl (fun e he ↦ by simp [mapOf, he])
    (fun e he ↦ by simp [unmapOf, he]) fun e he ↦ by simp [givesBack, he]).bind fun _ ↦ ?_
  exact (kept_deviceRelease _).bind fun _ ↦ (kept_status _).bind fun _ ↦ .pure fun _ _ h ↦ h

theorem handleRelease_kept (a : ℕ) :
    Triple Always (MapsKept none) (handleRelease .buffers a) MapsKept := by
  refine .bind (.state (Q := fun mem t mem' ↦ mem' = mem ∧ MapsKept none t mem) fun _ _ h ↦
    ⟨rfl, h⟩) fun mem ↦ ?_
  refine .bind (.update (Q := fun _ ↦ MapsKept ((Kind.buffers.heap mem).release a).1) ?_) fun _ ↦
    .pure fun _ _ h ↦ h
  rintro t mem ⟨rfl, h⟩
  simp only [Kind.buffers, Heap.release]
  cases ha : mem.buffers.cell a with
  | none => exact h
  | some arc =>
    by_cases hs : arc.strong ≤ 1
    · simp only [hs, if_true]
      have h' := h.reindex (Equiv.swap none (some a))
      rwa [← Option.map_none Arc.data, ← objects_swap, ha] at h'
    · simp only [hs, if_false]
      have hsame :
          objects none
            (Function.update mem.buffers.cell a (some { arc with strong := arc.strong - 1 })) =
          objects none mem.buffers.cell := objects_same (by simp [ha])
      exact (congrArg (Tended t) hsame).mpr h

theorem intoHandle_kept :
    Triple Always (MapsKept (some x)) (intoHandle .buffers x) (fun _ ↦ MapsKept none) := by
  refine .bind (.call (Q := fun _ ↦ MapsKept (some x)) fun e _ _ h hpos hcall ↦ h.left hpos
    (by rw [hcall]; rfl)) fun e ↦ ?_
  refine .bind (.state (Q := fun mem t mem' ↦ mem' = mem ∧ MapsKept (some x) t mem) fun _ _ h ↦
    ⟨rfl, h⟩) fun mem ↦ ?_
  refine .bind (.update (Q := fun _ ↦ MapsKept none) ?_) fun _ ↦ .pure fun _ _ h ↦ h
  rintro t mem ⟨rfl, h⟩
  have hfree := mem.buffers.fresh_cell e.answer.value
  have h' := h.reindex (Equiv.swap none (some (mem.buffers.fresh e.answer.value)))
  rw [show some x = (some (⟨1, x⟩ : Arc HrxBufferS)).map Arc.data from rfl, ← objects_swap, hfree]
    at h'
  exact h'

theorem hrxBufferRetain_kept (a : ℕ) :
    Triple Always (MapsKept none) (hrxBufferRetain a) (fun _ ↦ MapsKept none) := by
  refine .update fun t mem h ↦ ?_
  simp only [Kind.buffers, Heap.retain]
  cases ha : mem.buffers.cell a with
  | none => exact h
  | some arc =>
    have hsame :
        objects none
          (Function.update mem.buffers.cell a (some { arc with strong := arc.strong + 1 })) =
        objects none mem.buffers.cell := objects_same (by simp [ha])
    exact (congrArg (Tended t) hsame).mpr h

theorem hrxBufferRelease_kept (a : ℕ) :
    Triple Always (MapsKept none) (hrxBufferRelease a) (fun _ ↦ MapsKept none) := by
  refine (handleRelease_kept a).bind fun r ↦ ?_
  cases r with
  | none => exact .pure fun _ _ h ↦ h
  | some x => exact drop_kept

theorem virtualMemoryRelease_kept (allocator : HrxAllocator) (buffer : HrxBuffer) :
    Triple Always (MapsKept none) (hrxAllocatorVirtualMemoryRelease allocator buffer)
      (fun _ ↦ MapsKept none) := by
  cases allocator with
  | none => exact kept_failing _ _ _
  | some al =>
    cases buffer with
    | none => exact kept_failing _ _ _
    | some b =>
      refine (handleRelease_kept b.addr).bind fun r ↦ ?_
      cases r with
      | none => exact .pure fun _ _ h ↦ h
      | some x => exact releaseVirtual_kept al

/-- The HAL buffer of a call that made one, and the object it is put into. -/
def madeBy (e : Happened) (x : Obj → HrxBufferS) : Option HrxBufferS :=
  if ok e then some (x e.pos) else none

theorem creates_kept {c : Call} {x : Obj → HrxBufferS} (hc : leavesMaps c = true)
    (hmap : ∀ p, (x p).map = none) (hhal : ∀ p, (x p).halBuffer = p) :
    Triple Always (MapsKept none) (call c) (fun e ↦ MapsKept (madeBy e x)) := by
  refine .call fun e t mem h hpos hcall ↦ ?_
  have hleft : leavesMaps e.call = true := hcall ▸ hc
  unfold madeBy
  split
  · have h' := h.created (i := none) (x := x e.pos) rfl hpos (mapOf_left hleft) (unmapOf_left hleft)
      (givesBack_left hleft) (hmap _) (hhal _)
    rwa [← objects_held] at h'
  · exact h.left hpos hleft

theorem wrapBuffer_kept (allocator : DevicePtr) (e : Happened) (memType size : ℕ) :
    Triple Always (MapsKept (madeBy e fun p ↦ ⟨none, p, none, allocator, memType, size⟩))
      (wrapBuffer allocator e memType size) (fun _ ↦ MapsKept none) := by
  cases he : ok e with
  | false =>
    simp only [wrapBuffer, madeBy, he, Bool.not_false, if_true]
    exact (kept_status _).bind fun _ ↦ .pure fun _ _ h ↦ h
  | true =>
    simp only [wrapBuffer, madeBy, he, Bool.not_true]
    exact (kept_deviceRetain _).bind fun _ ↦ intoHandle_kept.bind fun _ ↦ .pure fun _ _ h ↦ h

theorem allocateBuffer_kept (allocator : HrxAllocator) (params : HrxBufferParams) (size : ℕ)
    (buffer : Bool) :
    Triple Always (MapsKept none) (hrxAllocatorAllocateBuffer allocator params size buffer)
      (fun _ ↦ MapsKept none) := by
  unfold hrxAllocatorAllocateBuffer
  split
  · exact (creates_kept rfl (fun _ ↦ rfl) fun _ ↦ rfl).bind fun e ↦ wrapBuffer_kept _ e _ _
  · exact kept_failing _ _ _

theorem importBuffer_kept (allocator : HrxAllocator) (params : HrxBufferParams) (hostPtr : Option ℕ)
    (size : ℕ) (buffer : Bool) :
    Triple Always (MapsKept none) (hrxAllocatorImportBuffer allocator params hostPtr size buffer)
      (fun _ ↦ MapsKept none) := by
  unfold hrxAllocatorImportBuffer
  split
  · exact (creates_kept rfl (fun _ ↦ rfl) fun _ ↦ rfl).bind fun e ↦ wrapBuffer_kept _ e _ _
  · exact kept_failing _ _ _

theorem virtualMemoryReserve_kept (allocator : HrxAllocator) (affinity size : ℕ) (buffer : Bool) :
    Triple Always (MapsKept none) (hrxAllocatorVirtualMemoryReserve allocator affinity size buffer)
      (fun _ ↦ MapsKept none) := by
  unfold hrxAllocatorVirtualMemoryReserve
  split
  · exact (creates_kept rfl (fun _ ↦ rfl) fun _ ↦ rfl).bind fun e ↦ wrapBuffer_kept _ e _ _
  · exact kept_failing _ _ _

end Calls

section Allocate

open HrxStreamS

variable {α : Type} {objs : Option ℕ → Option HrxBufferS} {buffers : Buffers}
  {x : Obj → PoolPtr → HrxBufferS}

theorem tended_confined {m : Hrx HrxStreamS α}
    (hm : Confined (fun _ ↦ ()) (fun c ↦ leavesMaps c = true) m) :
    Triple Always (fun t _ ↦ Tended t objs) m (fun _ t _ ↦ Tended t objs) :=
  Triple.of_confined (I := fun t (_ : Unit) ↦ Tended t objs) hm fun _ _ _ h hpos he ↦ h.left hpos he

theorem flushInner_leavesMaps : Confined (fun _ ↦ ()) (fun c ↦ leavesMaps c = true) flushInner := by
  have hstatus : ∀ s, Confined (fun _ ↦ ()) (fun c ↦ leavesMaps c = true)
      (hrxStatusFromIree s : Hrx HrxStreamS _) :=
    hrxStatusFromIree_calls fun _ ↦ rfl
  refine .bind .state fun _ ↦ .ite (.pure _) (.bind (.call rfl) fun _ ↦ .ite (hstatus _) ?_)
  refine .bind (.call rfl) fun _ ↦ .ite (hstatus _) ?_
  exact .bind (.update fun _ ↦ rfl) fun _ ↦ .bind (.call rfl) fun _ ↦ .bind (.update fun _ ↦ rfl)
    fun _ ↦ .pure _

theorem abandonAlloca_tended {rawBuffer : Option Obj} (rawPool : Option PoolPtr)
    (status : IreeStatus) (held : Option HrxBufferS)
    (hheld : held.map HrxBufferS.halBuffer = rawBuffer) (hmap : ∀ y, held = some y → y.map = none) :
    Triple Always (fun t _ ↦ Tended t (objects held buffers))
      (abandonAlloca rawBuffer rawPool status)
      (fun r t _ ↦ r.2 = none ∧ Tended t (objects none buffers)) := by
  have hrest : Triple Always (fun t _ ↦ Tended t (objects none buffers))
      (do halPoolRelease rawPool; return (← hrxStatusFromIree status, none))
      (fun (r : HrxStatus × Option (Obj × PoolPtr)) t (_ : HrxStreamS) ↦
        r.2 = none ∧ Tended t (objects none buffers)) := by
    refine (tended_confined
      (halPoolRelease_calls (fun _ ↦ rfl) (fun _ ↦ rfl) (fun _ ↦ rfl) (fun _ ↦ rfl)
      rawPool)).bind fun _ ↦ ?_
    exact (tended_confined (hrxStatusFromIree_calls (fun _ ↦ rfl) status)).bind fun _ ↦
      .pure fun _ _ h ↦ ⟨rfl, h⟩
  refine .bind (.call (Q := fun _ t _ ↦ Tended t (objects none buffers)) fun e t _ h hpos hcall ↦
    ?_) fun _ ↦ hrest
  cases held with
  | none =>
    subst hheld
    exact h.aside hpos (by simp [mapOf, hcall]) (by simp [unmapOf, hcall])
      (by simp [givesBack, hcall])
  | some y =>
    subst hheld
    have h' := h.givenBack (i := none) (x := y) rfl (hmap y rfl) hpos (by simp [mapOf, hcall])
      (by simp [unmapOf, hcall]) (by simp [givesBack, hcall])
    rwa [← objects_held] at h'

theorem queueAlloca_tended (shared : SharedState) (params : BufferParams) (size : ℕ)
    (hmap : ∀ p pool, (x p pool).map = none) (hhal : ∀ p pool, (x p pool).halBuffer = p) :
    Triple Always (fun t _ ↦ Tended t (objects none buffers)) (queueAlloca shared params size)
      (fun r t _ ↦ Tended t (objects (r.2.map fun q ↦ x q.1 q.2) buffers)) := by
  have habandon : ∀ rawPool status, Triple Always (fun t _ ↦ Tended t (objects none buffers))
      (abandonAlloca none rawPool status)
      (fun r t _ ↦ Tended t (objects (r.2.map fun q ↦ x q.1 q.2) buffers)) :=
    fun rawPool status ↦ (abandonAlloca_tended rawPool status none rfl (by simp)).mono
      (fun _ _ h ↦ h)
      fun r _ _ h ↦ by rw [h.1]; exact h.2
  refine .bind (.state (Q := fun _ t _ ↦ Tended t (objects none buffers)) fun _ _ h ↦ h) fun st ↦ ?_
  refine (tended_confined
    (hrxIreeExactPoolCreate_calls (fun _ ↦ rfl) (fun _ ↦ rfl) (fun _ ↦ rfl) (fun _ ↦ rfl)
    (fun _ ↦ rfl) (fun _ ↦ rfl) shared _ params)).bind fun p ↦ ?_
  obtain ⟨status, _ | pool⟩ := p
  · exact habandon none status
  refine .bind (.call (Q := fun a t _ ↦ Tended t (objects (madeBy a fun p ↦ x p pool) buffers)) ?_)
    fun a ↦ ?_
  · intro a t _ h hpos hcall
    have hleft : leavesMaps a.call = true := by rw [hcall]; rfl
    unfold madeBy
    split
    · have h' :=
        h.created (i := none) (x := x a.pos pool) rfl hpos (mapOf_left hleft) (unmapOf_left hleft)
        (givesBack_left hleft) (hmap _ _) (hhal _ _)
      rwa [← objects_held] at h'
    · exact h.left hpos hleft
  cases ha : ok a with
  | false =>
    simp only [madeBy, ha, Bool.not_false, if_true]
    exact habandon (some pool) _
  | true =>
    simp only [madeBy, ha, Bool.not_true, if_true]
    refine .bind (tended_confined (.call rfl)) fun w ↦ .ite (fun _ ↦ ?_) fun _ ↦ ?_
    · exact (abandonAlloca_tended (some pool) _ (some (x a.pos pool)) (by simp [hhal])
        (by simp [hmap])).mono
        (fun _ _ h ↦ h) fun r _ _ h ↦ by rw [h.1]; exact h.2
    · exact .bind
        (.update (Q := fun _ t _ ↦ Tended t (objects (some (x a.pos pool)) buffers)) fun _ _ h ↦ h)
        fun _ ↦ .pure fun _ _ h ↦ h

theorem bufferAllocate_tended (shared : SharedState) (size memType usage : ℕ)
    (hmap : ∀ p pool, (x p pool).map = none) (hhal : ∀ p pool, (x p pool).halBuffer = p) :
    Triple Always (fun t _ ↦ Tended t (objects none buffers))
      (bufferAllocate shared size memType usage)
      (fun r t _ ↦ Tended t (objects (r.2.map fun q ↦ x q.1 q.2) buffers)) := by
  refine .bind (.state (Q := fun _ t _ ↦ Tended t (objects none buffers)) fun _ _ h ↦ h) fun st ↦ ?_
  refine (tended_confined (.call rfl)).bind fun q ↦ .ite (fun _ ↦ ?_) fun _ ↦ ?_
  · exact (tended_confined (hrxError_calls (fun _ ↦ rfl) _ _)).bind fun _ ↦ .pure fun _ _ h ↦ h
  · exact (tended_confined flushInner_leavesMaps).bind fun _ ↦
      .ite (fun _ ↦ .pure fun _ _ h ↦ h) fun _ ↦ queueAlloca_tended shared _ size hmap hhal

theorem hrxBufferAllocate_kept (stream : HrxStream) (size memType usage : ℕ) (buffer : Bool) :
    Triple Always (MapsKept none) (hrxBufferAllocate stream size memType usage buffer)
      (fun _ ↦ MapsKept none) := by
  unfold hrxBufferAllocate
  split
  · rename_i a
    refine .ite (fun _ ↦ kept_failing _ _ _) fun _ ↦ ?_
    refine .bind (.state (Q := fun mem t mem' ↦ mem' = mem ∧ MapsKept none t mem) fun _ _ h ↦
      ⟨rfl, h⟩) fun mem ↦ ?_
    unfold onStream
    cases ha : mem.streams.cell a with
    | none =>
      refine .bind (Q := fun r t mem ↦ r = (none, none) ∧ MapsKept none t mem) ?_ fun r ↦ ?_
      · refine .bind (.state (Q := fun mem' t s ↦ mem' = mem ∧ MapsKept none t s) ?_) fun mem' ↦
          .assume fun hm ↦ ?_
        · rintro t mem ⟨rfl, h⟩
          exact ⟨rfl, h⟩
        · rw [hm, ha]
          exact .pure fun _ _ h ↦ ⟨rfl, h⟩
      · refine .assume fun hr ↦ ?_
        rw [hr]
        exact .pure fun _ _ h ↦ h
    | some arc =>
      let x : Obj → PoolPtr → HrxBufferS :=
        fun p pool ↦ ⟨none, p, some pool, arc.data.device, memType, size⟩
      refine .bind (Q := fun r ↦ MapsKept (r.2.map fun q ↦ x q.1 q.2)) ?_ fun r ↦ ?_
      · refine .bind (.state (Q := fun mem' t s ↦ mem' = mem ∧ MapsKept none t s) ?_) fun mem' ↦
          .assume fun hm ↦ ?_
        · rintro t mem ⟨rfl, h⟩
          exact ⟨rfl, h⟩
        · rw [hm, ha]
          exact .focus fun s ↦
            (bufferAllocate_tended (x := x) mem.globals.shared size memType usage (fun _ _ ↦ rfl)
            fun _ _ ↦ rfl).mono (fun _ _ h ↦ h.2) fun _ _ _ h ↦ h
      · obtain ⟨status, _ | ⟨p, pool⟩⟩ := r
        · exact .pure fun _ _ h ↦ h
        · exact (kept_deviceRetain _).bind fun _ ↦ intoHandle_kept.bind fun _ ↦ .pure fun _ _ h ↦ h
  · exact kept_failing _ _ _

end Allocate

section OnBuffer

variable {α : Type} {objs : Option ℕ → Option HrxBufferS} {i : Option ℕ}

def Within (objs : Option ℕ → Option HrxBufferS) (i : Option ℕ) (t : Trace) (y : HrxBufferS) :
    Prop :=
  Tended t (Function.update objs i (some y))

theorem within_confined {m : Hrx HrxBufferS α} (hm : Confined id (fun c ↦ leavesMaps c = true) m) :
    Triple Always (Within objs i) m (fun _ ↦ Within objs i) :=
  Triple.of_confined (I := Within objs i) hm fun _ _ _ h hpos he ↦ h.left hpos he

theorem within_failing (code : HrxStatusCode) (message : String) (w : Written) :
    Triple Always (Within objs i) (do return ⟨← hrxError code message, w⟩ : Hrx HrxBufferS Returned)
      (fun _ ↦ Within objs i) :=
  (within_confined (hrxError_calls (fun _ ↦ rfl) code message)).bind fun _ ↦ .pure fun _ _ h ↦ h

def mappedBy (e : Happened) (buf : HrxBufferS) : HrxBufferS :=
  if ok e then { buf with map := some ⟨e.pos, e.answer.value⟩ } else buf

theorem bufferMapRange_within {buf : HrxBufferS} (hnone : buf.map = none) (access offset size : ℕ) :
    Triple Always (fun t y ↦ y = buf ∧ Within objs i t y)
      (call (.bufferMapRange buf.halBuffer access offset size))
      (fun e t y ↦ y = buf ∧ Within objs i t (mappedBy e buf)) := by
  refine .call ?_
  rintro e t y ⟨rfl, h⟩ hpos hcall
  refine ⟨rfl, ?_⟩
  unfold mappedBy
  split
  case isTrue he =>
    have h' := h.mapped (i := i) (Function.update_self ..) hnone hpos hcall he e.answer.value
    rwa [Function.update_idem] at h'
  case isFalse he =>
    exact h.aside hpos (by simp [mapOf, hcall, he]) (by simp [unmapOf, hcall])
      (by simp [givesBack, hcall])

theorem state_within :
    Triple Always (Within objs i) state (fun buf t y ↦ y = buf ∧ Within objs i t y) :=
  .state fun _ _ h ↦ ⟨rfl, h⟩

theorem mapRange_within (flags offset size : ℕ) :
    Triple Always (Within objs i) (HrxBufferS.mapRange flags offset size)
      (fun _ ↦ Within objs i) := by
  refine state_within.bind fun buf ↦ .ite (fun _ ↦ ?_) fun hmap ↦ ?_
  · exact (within_failing _ _ _).mono (fun _ _ h ↦ h.2) fun _ _ _ h ↦ h
  refine (bufferMapRange_within (by simpa using hmap) _ _ _).bind fun e ↦ ?_
  cases he : ok e with
  | false =>
    simp only [mappedBy, he, Bool.not_false, if_true]
    refine (((within_confined (hrxStatusFromIree_calls (fun _ ↦ rfl) _)).bind fun _ ↦
      .pure fun _ _ h ↦ h).mono
      ?_ fun _ _ _ h ↦ h)
    rintro t y ⟨rfl, h⟩
    exact h
  | true =>
    simp only [mappedBy, he, Bool.not_true, if_true]
    refine .bind (.update (Q := fun _ ↦ Within objs i) ?_) fun _ ↦ .pure fun _ _ h ↦ h
    rintro t y ⟨rfl, h⟩
    exact h

theorem getDevicePtr_within :
    Triple Always (Within objs i) HrxBufferS.getDevicePtr (fun _ ↦ Within objs i) := by
  refine state_within.bind fun buf ↦ ?_
  cases hmap : buf.map with
  | some m => exact .pure fun _ _ h ↦ h.2
  | none =>
    refine (bufferMapRange_within hmap _ _ _).bind fun e ↦ ?_
    cases he : ok e with
    | false =>
      simp only [mappedBy, he]
      refine (within_failing _ _ _).mono ?_ fun _ _ _ h ↦ h
      rintro t y ⟨rfl, h⟩
      exact h
    | true =>
      simp only [mappedBy, he, if_true]
      refine .bind (.update (Q := fun _ ↦ Within objs i) ?_) fun _ ↦ .pure fun _ _ h ↦ h
      rintro t y ⟨rfl, h⟩
      exact h

theorem unmap_within : Triple Always (Within objs i) HrxBufferS.unmap (fun _ ↦ Within objs i) := by
  refine state_within.bind fun buf ↦ ?_
  refine .bind (.update (Q := fun _ t y ↦ y = { buf with map := none } ∧ Within objs i t buf) ?_)
    fun _ ↦ ?_
  · rintro t y ⟨rfl, h⟩
    exact ⟨rfl, h⟩
  cases hmap : buf.map with
  | none =>
    refine .pure ?_
    rintro t y ⟨rfl, h⟩
    rwa [show ({ buf with map := none } : HrxBufferS) = buf by cases buf; simp_all]
  | some m =>
    refine .bind (.call (Q := fun _ ↦ Within objs i) ?_) fun e ↦
      (within_confined (hrxStatusFromIree_calls (fun _ ↦ rfl) _)).bind fun _ ↦ .pure fun _ _ h ↦ h
    rintro e t y ⟨rfl, h⟩ hpos hcall
    have h' := h.unmapped (i := i) (Function.update_self ..) hmap hpos hcall
    rwa [Function.update_idem] at h'

theorem onBuffer_kept (a : ℕ) {m : Hrx HrxBufferS Returned}
    (hm : ∀ objs, Triple Always (Within objs (some a)) m (fun _ ↦ Within objs (some a))) :
    Triple Always (MapsKept none) (onBuffer a m) (fun _ ↦ MapsKept none) := by
  refine .bind (.state (Q := fun mem t mem' ↦ mem' = mem ∧ MapsKept none t mem) fun _ _ h ↦
    ⟨rfl, h⟩) fun mem ↦ ?_
  cases ha : mem.buffers.cell a with
  | none =>
    refine .pure ?_
    rintro t mem ⟨rfl, h⟩
    exact h
  | some arc =>
    refine .focus fun s ↦ ?_
    rintro o t y ho ⟨rfl, rfl, h⟩
    have hself : Function.update (objects none s.buffers.cell) (some a) (some arc.data) =
        objects none s.buffers.cell :=
      Function.update_eq_self_iff.mpr (by simp [objects, ha])
    have h' := hm (objects none s.buffers.cell) o t arc.data ho ((congrArg (Tended t) hself).mpr h)
    simp only [MapsKept, Heap.modify, ha]
    exact (congrArg (Tended _) (objects_update _)).mpr h'

end OnBuffer

/-- The calls that make, map, unmap, retain and release buffers. -/
inductive BufferCall
  | allocateBuffer (allocator : HrxAllocator) (params : HrxBufferParams) (size : ℕ) (buffer : Bool)
  | importBuffer (allocator : HrxAllocator) (params : HrxBufferParams) (hostPtr : Option ℕ)
      (size : ℕ) (buffer : Bool)
  | virtualMemoryReserve (allocator : HrxAllocator) (affinity size : ℕ) (virtualBuffer : Bool)
  | allocate (stream : HrxStream) (size memType usage : ℕ) (buffer : Bool)
  | map (buffer : HrxBuffer) (flags offset size : ℕ) (mappedPtr : Bool)
  | unmap (buffer : HrxBuffer)
  | getDevicePtr (buffer : HrxBuffer) (devicePtr : Bool)
  | retain (buffer : ℕ)
  | release (buffer : ℕ)
  | virtualMemoryRelease (allocator : HrxAllocator) (virtualBuffer : HrxBuffer)

namespace BufferCall

def run : BufferCall → Hrx Memory Returned
  | allocateBuffer allocator params size buffer =>
    hrxAllocatorAllocateBuffer allocator params size buffer
  | importBuffer allocator params hostPtr size buffer =>
    hrxAllocatorImportBuffer allocator params hostPtr size buffer
  | virtualMemoryReserve allocator affinity size virtualBuffer =>
    hrxAllocatorVirtualMemoryReserve allocator affinity size virtualBuffer
  | allocate stream size memType usage buffer => hrxBufferAllocate stream size memType usage buffer
  | map buffer flags offset size mappedPtr => hrxBufferMap buffer flags offset size mappedPtr
  | unmap buffer => hrxBufferUnmap buffer
  | getDevicePtr buffer devicePtr => hrxBufferGetDevicePtr buffer devicePtr
  | retain buffer => do hrxBufferRetain buffer; return ⟨hrxOkStatus, .nothing⟩
  | release buffer => do hrxBufferRelease buffer; return ⟨hrxOkStatus, .nothing⟩
  | virtualMemoryRelease allocator virtualBuffer =>
    hrxAllocatorVirtualMemoryRelease allocator virtualBuffer

def buffer : BufferCall → Option ℕ
  | map buffer .. | unmap buffer | getDevicePtr buffer _ | virtualMemoryRelease _ buffer =>
    buffer.map BufferPtr.addr
  | retain buffer | release buffer => some buffer
  | _ => none

def Live (_ : ℕ) (mem : Memory) (k : BufferCall) (_ : Outside) : Prop :=
  ∀ a, k.buffer = some a → ∃ arc, mem.buffers.cell a = some arc

theorem run_kept (k : BufferCall) :
    Triple Always (MapsKept none) k.run (fun _ ↦ MapsKept none) := by
  cases k with
  | allocateBuffer allocator params size buffer =>
    exact allocateBuffer_kept allocator params size buffer
  | importBuffer allocator params hostPtr size buffer =>
    exact importBuffer_kept allocator params hostPtr size buffer
  | virtualMemoryReserve allocator affinity size buffer =>
    exact virtualMemoryReserve_kept allocator affinity size buffer
  | allocate stream size memType usage buffer =>
    exact hrxBufferAllocate_kept stream size memType usage buffer
  | map buffer flags offset size mappedPtr =>
    simp only [run, hrxBufferMap]
    split
    · exact onBuffer_kept _ fun _ ↦ mapRange_within flags offset size
    · exact kept_failing _ _ _
  | unmap buffer =>
    cases buffer with
    | none => exact kept_failing _ _ _
    | some b => exact onBuffer_kept _ fun _ ↦ unmap_within
  | getDevicePtr buffer devicePtr =>
    simp only [run, hrxBufferGetDevicePtr]
    split
    · exact onBuffer_kept _ fun _ ↦ getDevicePtr_within
    · exact kept_failing _ _ _
  | retain buffer => exact (hrxBufferRetain_kept buffer).bind fun _ ↦ .pure fun _ _ h ↦ h
  | release buffer => exact (hrxBufferRelease_kept buffer).bind fun _ ↦ .pure fun _ _ h ↦ h
  | virtualMemoryRelease allocator buffer => exact virtualMemoryRelease_kept allocator buffer

end BufferCall

def mapsRange : Call → Bool
  | .bufferMapRange .. => true
  | _ => false

def mapFailed (e : Happened) : Bool := mapsRange e.call && !ok e

section MapFailed

abbrev MapsNothing {σ α : Type} (m : Hrx σ α) : Prop :=
  Confined (fun _ ↦ ()) (fun c ↦ mapsRange c = false) m

theorem mapsNothing_of_leaves {c : Call} (hc : leavesMaps c = true) : mapsRange c = false := by
  unfold mapsRange
  split
  · cases hc
  · rfl

variable {T : Type}

theorem handleRelease_mapsNothing (k : Kind T) (a : ℕ) : MapsNothing (handleRelease k a) :=
  .bind .state fun _ ↦ .bind (.update fun _ ↦ rfl) fun _ ↦ .pure _

theorem intoHandle_mapsNothing (k : Kind T) (x : T) : MapsNothing (intoHandle k x) :=
  .bind (.call rfl) fun _ ↦ .bind .state fun _ ↦ .bind (.update fun _ ↦ rfl) fun _ ↦ .pure _

theorem status_mapsNothing {σ : Type} (s : IreeStatus) :
    MapsNothing (hrxStatusFromIree s : Hrx σ HrxStatus) :=
  hrxStatusFromIree_calls (fun _ ↦ rfl) s

theorem failing_mapsNothing {σ : Type} (code : HrxStatusCode) (message : String) (w : Written) :
    MapsNothing (do return ⟨← hrxError code message, w⟩ : Hrx σ Returned) :=
  .bind (hrxError_calls (fun _ ↦ rfl) _ _) fun _ ↦ .pure _

theorem deviceRelease_mapsNothing (device : ℕ) : MapsNothing (hrxDeviceRelease device) :=
  hrxDeviceRelease_calls (fun _ ↦ rfl) (fun _ ↦ rfl) (fun _ ↦ rfl) (fun _ _ ↦ rfl) device

theorem poolRelease_mapsNothing {σ : Type} (pool : Option PoolPtr) :
    MapsNothing (halPoolRelease pool : Hrx σ Unit) :=
  halPoolRelease_calls (fun _ ↦ rfl) (fun _ ↦ rfl) (fun _ ↦ rfl) (fun _ ↦ rfl) pool

theorem dropMap_mapsNothing (map : Option MappedRange) : MapsNothing (HrxBufferS.dropMap map) := by
  cases map with
  | none => exact .pure _
  | some m => exact .bind (.call rfl) fun _ ↦ .pure _

theorem dropPool_mapsNothing (pool : Option PoolPtr) : MapsNothing (HrxBufferS.dropPool pool) := by
  cases pool with
  | none => exact .pure _
  | some p => exact poolRelease_mapsNothing _

theorem drop_mapsNothing (x : HrxBufferS) : MapsNothing x.drop :=
  .bind (dropMap_mapsNothing _) fun _ ↦ .bind (.call rfl) fun _ ↦
    .bind (dropPool_mapsNothing _) fun _ ↦
    deviceRelease_mapsNothing _

theorem releaseVirtual_mapsNothing (allocator : DevicePtr) (x : HrxBufferS) :
    MapsNothing (releaseVirtual allocator x) :=
  .bind (dropMap_mapsNothing _) fun _ ↦ .bind (dropPool_mapsNothing _) fun _ ↦
    .bind (.call rfl) fun _ ↦
    .bind (deviceRelease_mapsNothing _) fun _ ↦ .bind (status_mapsNothing _) fun _ ↦ .pure _

theorem wrapBuffer_mapsNothing (allocator : DevicePtr) (e : Happened) (memType size : ℕ) :
    MapsNothing (wrapBuffer allocator e memType size) :=
  .ite (.bind (status_mapsNothing _) fun _ ↦ .pure _) (.bind (.update fun _ ↦ rfl) fun _ ↦
    .bind (intoHandle_mapsNothing _ _) fun _ ↦ .pure _)

theorem bufferAllocate_mapsNothing (shared : SharedState) (size memType usage : ℕ) :
    MapsNothing (HrxStreamS.bufferAllocate shared size memType usage) := by
  have habandon :
      ∀ rawBuffer rawPool status, MapsNothing (HrxStreamS.abandonAlloca rawBuffer rawPool status) :=
    fun _ _ _ ↦ .bind (.call rfl) fun _ ↦ .bind (poolRelease_mapsNothing _) fun _ ↦
      .bind (status_mapsNothing _) fun _ ↦ .pure _
  refine .bind .state fun _ ↦ .bind (.call rfl) fun _ ↦ .ite ?_ ?_
  · exact .bind (hrxError_calls (fun _ ↦ rfl) _ _) fun _ ↦ .pure _
  refine .bind (flushInner_leavesMaps.calls fun _ ↦ mapsNothing_of_leaves) fun _ ↦ .ite (.pure _) ?_
  refine .bind .state fun _ ↦
    .bind (hrxIreeExactPoolCreate_calls (fun _ ↦ rfl) (fun _ ↦ rfl) (fun _ ↦ rfl)
    (fun _ ↦ rfl) (fun _ ↦ rfl) (fun _ ↦ rfl) _ _ _) fun p ↦ ?_
  obtain ⟨status, _ | pool⟩ := p
  · exact habandon _ _ _
  · refine .bind (.call rfl) fun _ ↦ .ite (habandon _ _ _)
      (.bind (.call rfl) fun _ ↦ .ite (habandon _ _ _) ?_)
    exact .bind (.update fun _ ↦ rfl) fun _ ↦ .pure _

theorem hrxBufferAllocate_mapsNothing (stream : HrxStream) (size memType usage : ℕ)
    (buffer : Bool) :
    MapsNothing (hrxBufferAllocate stream size memType usage buffer) := by
  unfold hrxBufferAllocate
  split
  · refine .ite (failing_mapsNothing _ _ _) (.bind .state fun mem ↦ .bind ?_ fun r ↦ ?_)
    · refine .bind .state fun _ ↦ ?_
      split
      · exact .pure _
      · exact fun o n s ↦ ⟨rfl, (bufferAllocate_mapsNothing _ _ _ _ o n _).2⟩
    · split
      · exact .bind (.update fun _ ↦ rfl) fun _ ↦ .bind (intoHandle_mapsNothing _ _) fun _ ↦ .pure _
      · exact .pure _
  · exact failing_mapsNothing _ _ _

/-- When the HAL cannot map the buffer, the object stays as it was. -/
theorem mapRange_failed {o : Outside} {n : ℕ} {buf : HrxBufferS} {flags offset size : ℕ}
    {e : Happened} (he : e ∈ ((HrxBufferS.mapRange flags offset size).run o n buf).events)
    (hfail : mapFailed e = true) :
    ((HrxBufferS.mapRange flags offset size).run o n buf).state = buf := by
  have hstatus :=
    fun s n ↦ (hrxStatusFromIree_calls (f := id) (P := fun _ ↦ True) (fun _ ↦ trivial) s o n buf).1
  have herror :=
    fun c x n ↦ (hrxError_calls (f := id) (P := fun _ ↦ True) (fun _ ↦ trivial) c x o n buf).1
  simp only [id] at hstatus herror
  by_cases hmap : buf.map.isSome = true
  · simp [HrxBufferS.mapRange, hmap, herror]
  · cases hok : ok
      (happens o n (.bufferMapRange buf.halBuffer (HrxBufferS.accessOf flags) offset size)) with
    | false => simp [HrxBufferS.mapRange, hmap, hok, hstatus]
    | true =>
      have he' :
          e = happens o n
            (.bufferMapRange buf.halBuffer (HrxBufferS.accessOf flags) offset size) := by
        simpa [HrxBufferS.mapRange, hmap, hok] using he
      simp [he', mapFailed, hok] at hfail

theorem getDevicePtr_failed {o : Outside} {n : ℕ} {buf : HrxBufferS} {e : Happened}
    (he : e ∈ (HrxBufferS.getDevicePtr.run o n buf).events) (hfail : mapFailed e = true) :
    (HrxBufferS.getDevicePtr.run o n buf).state = buf := by
  have herror :=
    fun c x n ↦ (hrxError_calls (f := id) (P := fun _ ↦ True) (fun _ ↦ trivial) c x o n buf).1
  simp only [id] at herror
  cases hmap : buf.map with
  | some m => simp [HrxBufferS.getDevicePtr, hmap]
  | none =>
    cases hok : ok (happens o n (.bufferMapRange buf.halBuffer 7 0 buf.size)) with
    | false => simp [HrxBufferS.getDevicePtr, hmap, hok, herror]
    | true =>
      have he' : e = happens o n (.bufferMapRange buf.halBuffer 7 0 buf.size) := by
        simpa [HrxBufferS.getDevicePtr, hmap, hok] using he
      simp [he', mapFailed, hok] at hfail

theorem onBuffer_failed {o : Outside} {n a : ℕ} {mem : Memory} {m : Hrx HrxBufferS Returned}
    (hm : ∀ buf, ∀ e ∈ (m.run o n buf).events, mapFailed e = true → (m.run o n buf).state = buf)
    {e : Happened} (he : e ∈ ((onBuffer a m).run o n mem).events) (hfail : mapFailed e = true) :
    ((onBuffer a m).run o n mem).state.buffers.cell = mem.buffers.cell := by
  cases ha : mem.buffers.cell a with
  | none => simp [onBuffer, ha]
  | some arc =>
    simp only [onBuffer, run_bind, run_state, ha, run_focus, Outcome.after_events,
      Outcome.after_state, List.nil_append, List.length_nil, Nat.add_zero] at he ⊢
    rw [hm arc.data e he hfail, Heap.modify, ha]
    exact Function.update_eq_self_iff.mpr (by simp [ha])

theorem mapsNothing_failed {o : Outside} {n : ℕ} {mem : Memory} {m : Hrx Memory Returned}
    (hm : MapsNothing m) {e : Happened} (he : e ∈ (m.run o n mem).events) : mapFailed e ≠ true := by
  simp [mapFailed, (hm o n mem).2 e he]

theorem BufferCall.run_failed (k : BufferCall) {o : Outside} {n : ℕ} {mem : Memory} {e : Happened}
    (he : e ∈ (k.run.run o n mem).events) (hfail : mapFailed e = true) :
    (k.run.run o n mem).state.buffers.cell = mem.buffers.cell := by
  have hnot : ¬ MapsNothing k.run := fun hm ↦ mapsNothing_failed hm he hfail
  cases k with
  | allocateBuffer allocator params size buffer =>
    refine absurd ?_ hnot
    simp only [run, hrxAllocatorAllocateBuffer]
    split
    · exact .bind (.call rfl) fun _ ↦ wrapBuffer_mapsNothing _ _ _ _
    · exact failing_mapsNothing _ _ _
  | importBuffer allocator params hostPtr size buffer =>
    refine absurd ?_ hnot
    simp only [run, hrxAllocatorImportBuffer]
    split
    · exact .bind (.call rfl) fun _ ↦ wrapBuffer_mapsNothing _ _ _ _
    · exact failing_mapsNothing _ _ _
  | virtualMemoryReserve allocator affinity size buffer =>
    refine absurd ?_ hnot
    simp only [run, hrxAllocatorVirtualMemoryReserve]
    split
    · exact .bind (.call rfl) fun _ ↦ wrapBuffer_mapsNothing _ _ _ _
    · exact failing_mapsNothing _ _ _
  | allocate stream size memType usage buffer =>
    exact absurd (hrxBufferAllocate_mapsNothing stream size memType usage buffer) hnot
  | map buffer flags offset size mappedPtr =>
    simp only [run, hrxBufferMap] at he hnot ⊢
    split at he
    · exact onBuffer_failed (fun _ _ he hfail ↦ mapRange_failed he hfail) he hfail
    · exact absurd hfail (mapsNothing_failed (failing_mapsNothing _ _ _) he)
  | unmap buffer =>
    refine absurd ?_ hnot
    cases buffer with
    | none => exact failing_mapsNothing _ _ _
    | some b =>
      have hunmap : MapsNothing HrxBufferS.unmap := by
        refine .bind .state fun buf ↦ .bind (.update fun _ ↦ rfl) fun _ ↦ ?_
        split
        · exact .pure _
        · exact .bind (.call rfl) fun _ ↦ .bind (status_mapsNothing _) fun _ ↦ .pure _
      refine .bind .state fun mem ↦ ?_
      split
      · exact .pure _
      · exact fun o n s ↦ ⟨rfl, (hunmap o n _).2⟩
  | getDevicePtr buffer devicePtr =>
    simp only [run, hrxBufferGetDevicePtr] at he hnot ⊢
    split at he
    · exact onBuffer_failed (fun _ _ he hfail ↦ getDevicePtr_failed he hfail) he hfail
    · exact absurd hfail (mapsNothing_failed (failing_mapsNothing _ _ _) he)
  | retain buffer => exact absurd (.bind (.update fun _ ↦ rfl) fun _ ↦ .pure _) hnot
  | release buffer =>
    refine absurd (.bind (.bind (handleRelease_mapsNothing _ _) fun r ↦ ?_) fun _ ↦ .pure _) hnot
    cases r with
    | none => exact .pure _
    | some x => exact drop_mapsNothing x
  | virtualMemoryRelease allocator buffer =>
    refine absurd ?_ hnot
    simp only [run, hrxAllocatorVirtualMemoryRelease]
    split
    · refine .bind (handleRelease_mapsNothing _ _) fun r ↦ ?_
      cases r with
      | none => exact .pure _
      | some x => exact releaseVirtual_mapsNothing _ x
    · exact failing_mapsNothing _ _ _

end MapFailed

abbrev BufferLog := List (Entry Call Answer Memory Returned BufferCall)

abbrev BufferRuns (mem₀ mem : Memory) (l : BufferLog) : Prop :=
  Runs BufferCall.run BufferCall.Live mem₀ mem l

theorem tended_nil : Tended [] (objects none fun _ ↦ none) := by
  have hnone : ∀ i, objects none (fun _ ↦ none) i = none := by
    intro i
    cases i <;> rfl
  exact ⟨.start, .start, by simp [hnone], by simp [hnone], fun _ _ ↦ rfl, fun _ _ ↦ rfl⟩

/-- Whatever the HAL answers, each mapping is in its buffer's map cell until it is unmapped, once,
before the HAL buffer is given back; and when the HAL cannot map a buffer, no buffer changes. -/
theorem maps_balanced {mem₀ mem : Memory} {l : BufferLog} (h₀ : ∀ a, mem₀.buffers.cell a = none)
    (h : BufferRuns mem₀ mem l) :
    MapsBalanced (trace l) mem.buffers.cell ∧ ∀ e ∈ l, ∀ f ∈ e.result.events, mapFailed f = true →
      e.result.state.buffers.cell = e.before.buffers.cell := by
  have hkeeps : MapsKept none (trace l) mem ∧ ∀ e ∈ l, ∀ f ∈ e.result.events, mapFailed f = true →
      e.result.state.buffers.cell = e.before.buffers.cell := by
    refine h.keeps (I := fun mem l ↦ MapsKept none (trace l) mem ∧ ∀ e ∈ l, ∀ f ∈ e.result.events,
      mapFailed f = true →
      e.result.state.buffers.cell = e.before.buffers.cell) ⟨?_, by simp⟩ ?_
    · rw [MapsKept, show mem₀.buffers.cell = fun _ ↦ none from funext h₀]
      exact tended_nil
    · intro mem l k o ⟨hk, hl⟩ _
      refine ⟨?_, ?_⟩
      · rw [trace_append, trace_single]
        exact k.run_kept o (trace l) mem trivial hk
      · intro e he
        obtain he | he := List.mem_append.mp he
        · exact hl e he
        · rw [List.mem_singleton.mp he]
          exact fun f hf hfail ↦ k.run_failed hf hfail
  exact ⟨hkeeps.1.balanced, hkeeps.2⟩

def releasedMapped : List (BufferCall × Outside) :=
  [(.allocateBuffer (some ⟨1, 4, 2, 3⟩) ⟨0x30, 7, 3, 0⟩ 64 true, allSucceed),
    (.map (some ⟨1, 0⟩) 1 0 64 true, allSucceed), (.release 1, allSucceed)]

theorem maps_balanced_released :
    MapsBalanced (trace (play BufferCall.run oneStream [] releasedMapped).2)
        (play BufferCall.run oneStream [] releasedMapped).1.buffers.cell ∧
      unmaps 2 (trace (play BufferCall.run oneStream [] releasedMapped).2) = 1 := by
  refine ⟨(maps_balanced (fun _ ↦ rfl) (Runs.play .start releasedMapped ?_)).1, by decide⟩
  refine ⟨nofun, ?_, ?_, trivial⟩
  · rintro a ⟨⟩
    exact ⟨_, rfl⟩
  · rintro a ⟨⟩
    exact ⟨_, rfl⟩

end HrxSystem.Libhrx
