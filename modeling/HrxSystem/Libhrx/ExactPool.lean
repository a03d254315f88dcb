import HrxSystem.External.Triples
import HrxSystem.Libhrx.Pool
import Mathlib.Algebra.BigOperators.Group.List.Basic

namespace HrxSystem.Libhrx

open External Program

def refChange (b : Obj) (e : Happened) : ℤ :=
  match e.call with
  | .allocatorAllocateBuffer .. => if ok e ∧ e.pos = b then 1 else 0
  | .bufferRetain p => if p = b then 1 else 0
  | .bufferRelease (some p) => if p = b then -1 else 0
  | _ => 0

/-- The reference count of a HAL buffer after a trace; at 0 the buffer is freed. -/
def refCount (b : Obj) (t : Trace) : ℤ := (t.map (refChange b)).sum

@[simp] theorem refCount_nil (b : Obj) : refCount b [] = 0 := rfl

@[simp] theorem refCount_append (b : Obj) (t u : Trace) :
    refCount b (t ++ u) = refCount b t + refCount b u := by
  simp [refCount]

@[simp] theorem refCount_single (b : Obj) (e : Happened) :
    refCount b [e] = refChange b e := by simp [refCount]

/-- IREE as the user of exact pools: the reservations it owns, and the buffers it was handed and
whose owners have not given them back. -/
structure PoolClient where
  reservations : List PoolReservation
  handed : List Obj

/-- The calls of the pools, and the owner of a materialized buffer giving up its reference. -/
inductive PoolCall
  | acquire (pool : PoolPtr) (size : ℕ)
  | materialize (pool : PoolPtr) (params : BufferParams) (reservation : PoolReservation) (flags : ℕ)
  | release (pool : PoolPtr) (reservation : PoolReservation)
  | giveBack (buffer : Obj)

namespace PoolCall

def run : PoolCall → Hrx PoolClient IreeStatus
  | .acquire pool size => do
    let r ← poolAcquireReservation pool size
    if r.status.isSome then return r.status
    update fun c ↦ { c with reservations := r.reservation.toList ++ c.reservations }
    return none
  | .materialize pool params reservation flags => do
    let r ← poolMaterializeReservation pool params reservation flags
    if r.1.isSome then return r.1
    -- with the flag, the reference of the reservation goes to the buffer
    update fun c ↦
      ⟨if flags &&& transferFlag = 0 then c.reservations else c.reservations.erase reservation,
      r.2.toList ++ c.handed⟩
    return none
  | .release pool reservation => do
    poolReleaseReservation pool reservation
    update fun c ↦ { c with reservations := c.reservations.erase reservation }
    return none
  | .giveBack buffer => do
    let _ ← call (.bufferRelease (some buffer))
    update fun c ↦ { c with handed := c.handed.erase buffer }
    return none

/-- IREE's contract: only a reservation that is still owned is materialized or released, and only a
buffer that was handed out is given back. -/
def Respects (c : PoolClient) : PoolCall → Prop
  | .acquire .. => True
  | .materialize _ _ reservation _ => reservation ∈ c.reservations
  | .release _ reservation => reservation ∈ c.reservations
  | .giveBack buffer => buffer ∈ c.handed

end PoolCall

abbrev PoolLog := List (Entry Call Answer PoolClient IreeStatus PoolCall)

abbrev PoolRuns (c₀ c : PoolClient) (l : PoolLog) : Prop :=
  Runs PoolCall.run (fun _ c k _ ↦ k.Respects c) c₀ c l

def PoolClient.reserved (c : PoolClient) (b : Obj) : ℕ :=
  c.reservations.countP fun r ↦ r.blockHandle = some b

/-- Each reference to a buffer belongs to a reservation or to an owner it was handed to. -/
structure Conserved (t : Trace) (c : PoolClient) : Prop where
  distinct : (c.reservations.map PoolReservation.blockHandle).Nodup
  backed : ∀ r ∈ c.reservations, ∃ b, r.blockHandle = some b ∧ b < t.length
  count : ∀ b, refCount b t = c.reserved b + c.handed.count b

section Steps

variable {p : Outside → Prop} {t : Trace} {c : PoolClient}

theorem Conserved.step (h : Conserved t c) {u : Trace} {c' : PoolClient}
    (hsub : c'.reservations.Sublist c.reservations)
    (hcount : ∀ b,
      (c'.reserved b + c'.handed.count b : ℤ) = c.reserved b + c.handed.count b + refCount b u) :
    Conserved (t ++ u) c' := by
  refine ⟨h.distinct.sublist (hsub.map _), fun r hr ↦ ?_, fun b ↦ ?_⟩
  · obtain ⟨b, hb, hlt⟩ := h.backed r (hsub.subset hr)
    exact ⟨b, hb, by rw [List.length_append]; exact Nat.lt_add_right _ hlt⟩
  · rw [refCount_append, h.count, hcount]

theorem Conserved.idle (h : Conserved t c) {u : Trace} (hu : ∀ b, refCount b u = 0) :
    Conserved (t ++ u) c :=
  h.step (List.Sublist.refl _) fun b ↦ by rw [hu, add_zero]

theorem reserved_erase {r : PoolReservation} (hr : r ∈ c.reservations) (b : Obj) :
    c.reserved b = (c.reservations.erase r).countP (fun r ↦ r.blockHandle = some b) +
      if r.blockHandle = some b then 1 else 0 := by
  rw [PoolClient.reserved, (List.perm_cons_erase hr).countP_eq, List.countP_cons]
  simp only [decide_eq_true_eq]

theorem count_erase_add {b : Obj} {l : List Obj} (hb : b ∈ l) (b' : Obj) :
    l.count b' = (l.erase b).count b' + if b = b' then 1 else 0 := by
  rw [(List.perm_cons_erase hb).count_eq, List.count_cons]
  simp only [beq_iff_eq]

theorem Conserved.acquired (h : Conserved t c) {e : Happened} (hpos : e.pos = t.length)
    (he : ok e = true) {allocator : Obj} {params : BufferParams} {size : ℕ}
    (hcall : e.call = .allocatorAllocateBuffer allocator params size) (len : ℕ) :
    Conserved (t ++ [e]) { c with reservations := ⟨0, len, some e.pos, 0⟩ :: c.reservations } := by
  refine ⟨?_, fun r hr ↦ ?_, fun b ↦ ?_⟩
  · rw [List.map_cons, List.nodup_cons]
    refine ⟨fun hmem ↦ ?_, h.distinct⟩
    obtain ⟨r, hr, heq⟩ := List.mem_map.mp hmem
    obtain ⟨b, hb, hlt⟩ := h.backed r hr
    rw [heq, Option.some.injEq] at hb
    exact absurd hlt (by rw [← hb, hpos]; exact lt_irrefl _)
  · rw [List.length_append, List.length_singleton]
    obtain rfl | hr := List.mem_cons.mp hr
    · exact ⟨e.pos, rfl, by rw [hpos]; exact Nat.lt_succ_self _⟩
    · obtain ⟨b, hb, hlt⟩ := h.backed r hr
      exact ⟨b, hb, Nat.lt_succ_of_lt hlt⟩
  · have hcount := h.count b
    simp only [refCount_append, refCount_single, refChange, hcall, he, true_and,
      PoolClient.reserved, List.countP_cons, Option.some.injEq, decide_eq_true_eq] at hcount ⊢
    split <;> omega

theorem Conserved.retained (h : Conserved t c) {e : Happened} {b : Obj}
    (hcall : e.call = .bufferRetain b) :
    Conserved (t ++ [e]) { c with handed := b :: c.handed } := by
  refine h.step (List.Sublist.refl _) fun b' ↦ ?_
  simp only [refCount_single, refChange, hcall, PoolClient.reserved, List.count_cons, beq_iff_eq]
  split <;> omega

theorem Conserved.transferred (h : Conserved t c) {r : PoolReservation} (hr : r ∈ c.reservations)
    {b : Obj} (hb : r.blockHandle = some b) :
    Conserved t ⟨c.reservations.erase r, b :: c.handed⟩ := by
  rw [← List.append_nil t]
  refine h.step (List.erase_sublist ..) fun b' ↦ ?_
  rw [reserved_erase hr]
  simp only [refCount_nil, PoolClient.reserved, List.count_cons, beq_iff_eq, hb, Option.some.injEq]
  split <;> omega

theorem Conserved.released (h : Conserved t c) {r : PoolReservation} (hr : r ∈ c.reservations)
    {b : Obj} (hb : r.blockHandle = some b) {e : Happened}
    (hcall : e.call = .bufferRelease (some b)) :
    Conserved (t ++ [e]) { c with reservations := c.reservations.erase r } := by
  refine h.step (List.erase_sublist ..) fun b' ↦ ?_
  rw [reserved_erase hr]
  simp only [refCount_single, refChange, hcall, PoolClient.reserved, hb, Option.some.injEq]
  split <;> omega

theorem Conserved.givenBack (h : Conserved t c) {b : Obj} (hb : b ∈ c.handed) {e : Happened}
    (hcall : e.call = .bufferRelease (some b)) :
    Conserved (t ++ [e]) { c with handed := c.handed.erase b } := by
  refine h.step (List.Sublist.refl _) fun b' ↦ ?_
  rw [count_erase_add hb]
  simp only [refCount_single, refChange, hcall, PoolClient.reserved]
  split <;> omega

theorem acquire_conserved (pool : PoolPtr) (size : ℕ) :
    Triple p Conserved (PoolCall.run (.acquire pool size)) (fun _ ↦ Conserved) := by
  have hacquire : Triple p Conserved (poolAcquireReservation pool size) (fun r t c ↦
      if r.status.isSome then Conserved t c
      else Conserved t { c with reservations := r.reservation.toList ++ c.reservations }) := by
    refine .ite (fun _ ↦ .pure fun _ _ h ↦ h) fun _ ↦ ?_
    refine .bind (Q := fun e t c ↦ if ok e then ∀ len,
      Conserved t ⟨⟨0, len, some e.pos, 0⟩ :: c.reservations, c.handed⟩
      else Conserved t c) (.call ?_) fun e ↦ ?_
    · intro e t c h hpos hcall
      split
      case isTrue he => exact fun len ↦ h.acquired hpos he hcall len
      case isFalse he => exact h.idle fun b ↦ by simp [refChange, hcall, he]
    cases he : ok e with
    | false =>
      have hs : e.answer.status.isSome = true := by simpa [ok] using he
      refine .pure fun _ _ h ↦ ?_
      simpa only [hs, if_true, Bool.false_eq_true, if_false] using h
    | true =>
      simp only [Bool.not_true, Bool.false_eq_true, if_false, if_true]
      refine .bind
        (Q := fun _ t c ↦ ∀ len, Conserved t ⟨⟨0, len, some e.pos, 0⟩ :: c.reservations, c.handed⟩)
        (.call fun f t c h _ hcall len ↦ (h len).idle fun b ↦ by simp [refChange, hcall])
        fun l ↦ .pure fun _ _ h ↦ ?_
      exact h l.answer.value
  refine hacquire.bind fun r ↦ .ite (fun hr ↦ .pure fun _ _ h ↦ ?_) fun hr ↦ ?_
  · simpa only [hr, if_true] using h
  · exact .bind (.update (Q := fun _ ↦ Conserved) fun _ _ h ↦ by
      simpa only [hr, Bool.false_eq_true, if_false] using h) fun _ ↦ .pure fun _ _ h ↦ h

theorem materialize_conserved (pool : PoolPtr) (params : BufferParams) (r : PoolReservation)
    (flags : ℕ) :
    Triple p (fun t c ↦ r ∈ c.reservations ∧ Conserved t c)
      (PoolCall.run (.materialize pool params r flags))
      (fun _ ↦ Conserved) := by
  rw [PoolCall.run, poolMaterializeReservation]
  split
  · exact .bind
      (.pure (Q := fun x t c ↦ x = (invalidArgument, none) ∧ Conserved t c) fun _ _ h ↦ ⟨rfl, h.2⟩)
      fun _ ↦ .assume fun hx ↦ by rw [hx]; exact .pure fun _ _ h ↦ h
  cases hb : r.blockHandle with
  | none =>
    exact .bind
      (.pure (Q := fun x t c ↦ x = (invalidArgument, none) ∧ Conserved t c) fun _ _ h ↦ ⟨rfl, h.2⟩)
      fun _ ↦ .assume fun hx ↦ by rw [hx]; exact .pure fun _ _ h ↦ h
  | some b =>
    dsimp only
    split
    case isTrue hflag =>
      refine .bind
        (Q := fun x t c ↦ x = (none, some b) ∧ Conserved t { c with handed := b :: c.handed }) ?_
        fun _ ↦ .assume fun hx ↦ ?_
      · refine .bind (.call (Q := fun _ t c ↦ Conserved t { c with handed := b :: c.handed }) ?_)
          fun _ ↦ .pure fun _ _ h ↦ ⟨rfl, h⟩
        exact fun e t c h _ hcall ↦ h.2.retained hcall
      · rw [hx]
        exact .bind (.update (Q := fun _ ↦ Conserved) fun _ _ h ↦ h) fun _ ↦ .pure fun _ _ h ↦ h
    case isFalse hflag =>
      refine .bind (.pure (Q := fun x t c ↦ x = (none, some b) ∧ r ∈ c.reservations ∧ Conserved t c)
        fun _ _ h ↦ ⟨rfl, h⟩) fun _ ↦ .assume fun hx ↦ ?_
      rw [hx]
      exact .bind (.update (Q := fun _ ↦ Conserved) fun _ _ h ↦ h.2.transferred h.1 hb) fun _ ↦
        .pure fun _ _ h ↦ h

theorem release_conserved (pool : PoolPtr) (r : PoolReservation) :
    Triple p (fun t c ↦ r ∈ c.reservations ∧ Conserved t c) (PoolCall.run (.release pool r))
      (fun _ ↦ Conserved) := by
  rw [PoolCall.run, poolReleaseReservation]
  cases hb : r.blockHandle with
  | none =>
    intro o t c _ h
    obtain ⟨b, hb', -⟩ := h.2.backed r h.1
    rw [hb] at hb'
    cases hb'
  | some b =>
    refine .bind (Q := fun _ t c ↦ Conserved t { c with reservations := c.reservations.erase r }) ?_
      fun _ ↦
      .bind (.update (Q := fun _ ↦ Conserved) fun _ _ h ↦ h) fun _ ↦ .pure fun _ _ h ↦ h
    refine .bind
      (.call (Q := fun _ t c ↦ Conserved t { c with reservations := c.reservations.erase r }) ?_)
      fun _ ↦
      .bind (.call (Q := fun _ t c ↦ Conserved t { c with reservations := c.reservations.erase r })
        ?_) fun _ ↦
        .pure fun _ _ h ↦ h
    · exact fun e t c h _ hcall ↦ h.2.released h.1 hb hcall
    · exact fun e t c h _ hcall ↦ h.idle fun b ↦ by simp [refChange, hcall]

theorem giveBack_conserved (b : Obj) :
    Triple p (fun t c ↦ b ∈ c.handed ∧ Conserved t c) (PoolCall.run (.giveBack b))
      (fun _ ↦ Conserved) := by
  refine .bind (.call (Q := fun _ t c ↦ Conserved t { c with handed := c.handed.erase b }) ?_)
    fun _ ↦
    .bind (.update (Q := fun _ ↦ Conserved) fun _ _ h ↦ h) fun _ ↦ .pure fun _ _ h ↦ h
  exact fun e t c h _ hcall ↦ h.2.givenBack h.1 hcall

theorem PoolCall.run_conserved (k : PoolCall) :
    Triple p (fun t c ↦ k.Respects c ∧ Conserved t c) k.run (fun _ ↦ Conserved) := by
  cases k with
  | acquire pool size => exact (acquire_conserved pool size).mono (fun _ _ h ↦ h.2) fun _ _ _ h ↦ h
  | materialize pool params r flags => exact materialize_conserved pool params r flags
  | release pool r => exact release_conserved pool r
  | giveBack b => exact giveBack_conserved b

end Steps

section Failed

variable {o : Outside} {n : ℕ} {c : PoolClient}

theorem poolAcquireReservation_failed {pool : PoolPtr} {size : ℕ}
    (h : ((PoolCall.run (.acquire pool size)).run o n c).val ≠ none) :
    ((PoolCall.run (.acquire pool size)).run o n c).state = c ∧
      ∀ b, refCount b ((PoolCall.run (.acquire pool size)).run o n c).events = 0 := by
  by_cases hsize : size = 0
  · simp [PoolCall.run, poolAcquireReservation, hsize, invalidArgument]
  cases he : ok (happens o n (.allocatorAllocateBuffer pool.allocator pool.params size)) with
  | true => simp [PoolCall.run, poolAcquireReservation, hsize, he] at h
  | false =>
    have hs :
        (happens o n
          (.allocatorAllocateBuffer pool.allocator pool.params size)).answer.status.isSome =
            true := by
      simpa [ok] using he
    simp [PoolCall.run, poolAcquireReservation, hsize, he, hs, refChange]

theorem poolMaterializeReservation_failed {pool : PoolPtr} {params : BufferParams}
    {r : PoolReservation} {flags : ℕ}
    (h : ((PoolCall.run (.materialize pool params r flags)).run o n c).val ≠ none) :
    ((PoolCall.run (.materialize pool params r flags)).run o n c).state = c ∧
      ∀ b, refCount b ((PoolCall.run (.materialize pool params r flags)).run o n c).events = 0 := by
  cases hp : paramsMatch pool.params params with
  | false => simp [PoolCall.run, poolMaterializeReservation, hp, invalidArgument]
  | true =>
    cases hb : r.blockHandle with
    | none => simp [PoolCall.run, poolMaterializeReservation, hp, hb, invalidArgument]
    | some b =>
      by_cases hflag : flags &&& transferFlag = 0 <;>
        simp [PoolCall.run, poolMaterializeReservation, hp, hb, hflag] at h

theorem PoolCall.run_failed {k : PoolCall} (h : (k.run.run o n c).val ≠ none) :
    (k.run.run o n c).state = c ∧ ∀ b, refCount b (k.run.run o n c).events = 0 := by
  cases k with
  | acquire pool size => exact poolAcquireReservation_failed h
  | materialize pool params r flags => exact poolMaterializeReservation_failed h
  | release pool r => simp [PoolCall.run] at h
  | giveBack b => simp [PoolCall.run] at h

end Failed

theorem conserved_nil : Conserved [] ⟨[], []⟩ := ⟨List.nodup_nil, by simp, fun _ ↦ rfl⟩

theorem reserved_eq {t : Trace} {c : PoolClient} (h : Conserved t c) (b : Obj) :
    c.reserved b = if some b ∈ c.reservations.map PoolReservation.blockHandle then 1 else 0 := by
  rw [← h.distinct.count, PoolClient.reserved, List.count, List.countP_map]
  exact List.countP_congr fun r _ ↦ by simp

/-- The count of every buffer is one for its reservation while IREE owns it, and one for each
reference handed out and not given back; the buffer is free when there are none, and a call that
fails changes no count. -/
theorem pool_conserves_references {c : PoolClient} {l : PoolLog} (h : PoolRuns ⟨[], []⟩ c l) :
    (∀ b, refCount b (trace l) =
        (if some b ∈ c.reservations.map PoolReservation.blockHandle then 1 else 0) + c.handed.count
          b) ∧
      (∀ b, refCount b (trace l) = 0 ↔ some b ∉ c.reservations.map PoolReservation.blockHandle ∧
        b ∉ c.handed) ∧
      ∀ e ∈ l, e.result.val ≠ none → e.result.state = e.before ∧
        ∀ b, refCount b e.result.events = 0 := by
  have hkeeps : Conserved (trace l) c ∧
      ∀ e ∈ l, e.result.val ≠ none → e.result.state = e.before ∧
      ∀ b, refCount b e.result.events = 0 := by
    refine h.keeps (I := fun c l ↦ Conserved (trace l) c ∧
      ∀ e ∈ l, e.result.val ≠ none → e.result.state = e.before ∧
      ∀ b, refCount b e.result.events = 0)
      ⟨conserved_nil, by simp⟩ fun c l k o hl hk ↦ ⟨?_, fun e he ↦ ?_⟩
    · rw [trace_append, trace_single]
      exact k.run_conserved (p := fun _ ↦ True) o (trace l) c trivial ⟨hk, hl.1⟩
    · obtain he | he := List.mem_append.mp he
      · exact hl.2 e he
      · rw [List.mem_singleton.mp he]
        exact PoolCall.run_failed
  have hcount : ∀ b, refCount b (trace l) =
      (if some b ∈ c.reservations.map PoolReservation.blockHandle then 1 else 0) + c.handed.count
      b := by
    intro b
    rw [hkeeps.1.count b, reserved_eq hkeeps.1]
    split <;> rfl
  refine ⟨hcount, fun b ↦ ?_, hkeeps.2⟩
  rw [hcount b, ← List.count_eq_zero (l := c.handed)]
  split
  case isTrue hmem => exact ⟨fun hz ↦ by omega, fun hno ↦ absurd hmem hno.1⟩
  case isFalse hmem => exact ⟨fun hz ↦ ⟨hmem, by omega⟩, fun hno ↦ by rw [hno.2]; rfl⟩

def poolA : PoolPtr := ⟨3, 4, ⟨1, 2, 3, 4, 5⟩, 6⟩

def poolB : PoolPtr := ⟨7, 8, ⟨1, 2, 3, 4, 6⟩, 9⟩

def poolTraffic : List (PoolCall × Outside) :=
  let a : PoolReservation := ⟨0, 0, some 0, 0⟩
  let b : PoolReservation := ⟨0, 0, some 2, 0⟩
  [(.acquire poolA 64, fun _ _ ↦ {}), (.acquire poolB 32, fun _ _ ↦ {}),
    (.materialize poolA poolA.params a 0, fun _ _ ↦ {}),
    (.materialize poolA poolA.params a 0, fun _ _ ↦ {}),
    (.materialize poolB poolA.params b 1, fun _ _ ↦ {}),
    (.materialize poolB poolB.params b 1, fun _ _ ↦ {}), (.release poolA a, fun _ _ ↦ {}),
    (.giveBack 0, fun _ _ ↦ {})]

theorem pool_conserves_references_traffic :
    (∀ b, refCount b (trace (play PoolCall.run ⟨[], []⟩ [] poolTraffic).2) =
        (if some b ∈ (play PoolCall.run ⟨[], []⟩ [] poolTraffic).1.reservations.map
          PoolReservation.blockHandle
          then 1 else 0) + (play PoolCall.run ⟨[], []⟩ [] poolTraffic).1.handed.count b) ∧
      (play PoolCall.run ⟨[], []⟩ [] poolTraffic).1.handed = [2, 0] := by
  refine ⟨(pool_conserves_references (Runs.play .start poolTraffic ?_)).1, by decide⟩
  exact ⟨trivial, trivial, .tail _ (.head _), .tail _ (.head _), .head _, .head _, .head _,
    .tail _ (.head _), trivial⟩

end HrxSystem.Libhrx
