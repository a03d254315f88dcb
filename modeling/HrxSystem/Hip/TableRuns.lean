import HrxSystem.Hip.LiveBuffers

namespace HrxSystem.Hip

inductive TableOp
  | add (ptr : Ptr) (size : ℕ) (btype : BufferType)
  | remove (ptr : Ptr)
deriving DecidableEq

def TableOp.apply : TableOp → Tracer → Tracer
  | add ptr size btype => bufferTableAdd ptr size btype
  | remove ptr => bufferTableRemove ptr

def applyOps (st : Tracer) (ops : List TableOp) : Tracer := ops.foldl (fun st op ↦ op.apply st) st

theorem applyOps_snoc (st : Tracer) (ops : List TableOp) (op : TableOp) :
    applyOps st (ops ++ [op]) = op.apply (applyOps st ops) := by
  simp [applyOps]

theorem TableOp.apply_config (op : TableOp) (st : Tracer) : (op.apply st).config = st.config := by
  cases op with
  | add ptr size btype =>
    rw [apply, bufferTableAdd]
    split
    · rfl
    split
    · exact message_config ..
    · rfl
  | remove ptr =>
    rw [apply, bufferTableRemove]
    split
    · rfl
    split <;> rfl

theorem applyOps_config (st : Tracer) (ops : List TableOp) :
    (applyOps st ops).config = st.config := by
  induction ops using List.reverseRecOn with
  | nil => rfl
  | append_singleton ops op ih => rw [applyOps_snoc, op.apply_config, ih]

def BufferTable.used (t : BufferTable) : List TrackedBuffer := t.buffers.filter TrackedBuffer.inUse

theorem used_append (l₁ l₂ : List TrackedBuffer) (b : TrackedBuffer) (count next : ℕ) :
    BufferTable.used ⟨l₁ ++ b :: l₂, count, next⟩ =
      l₁.filter TrackedBuffer.inUse ++
        ((if b.inUse then [b] else []) ++ l₂.filter TrackedBuffer.inUse) := by
  rw [BufferTable.used, List.filter_append, List.filter_cons]
  split <;> rfl

theorem used_eq {t : BufferTable} {l : List TrackedBuffer} (h : t.buffers = l) :
    t.used = BufferTable.used ⟨l, t.count, t.nextAllocId⟩ := by
  rw [BufferTable.used, h, BufferTable.used]

theorem used_swap (l₁ l₂ : List TrackedBuffer) {b c : TrackedBuffer} (hb : b.inUse = false)
    (hc : c.inUse = true) (m n m' n' : ℕ) :
    (BufferTable.used ⟨l₁ ++ c :: l₂, m, n⟩).Perm
      (c :: BufferTable.used ⟨l₁ ++ b :: l₂, m', n'⟩) := by
  rw [used_append, used_append, if_pos hc, if_neg (by simp [hb])]
  exact List.perm_middle

inductive TableStep (t : BufferTable) : TableOp → BufferTable → Prop
  | ignored (op : TableOp) : TableStep t op t
  | added {ptr : Ptr} {size : ℕ} {btype : BufferType} {t' : BufferTable} : ptr ≠ 0 → size ≠ 0 →
      t'.used.Perm (⟨ptr, size, btype, true, t.nextAllocId⟩ :: t.used) →
      t'.buffers.length = t.buffers.length →
      t'.count = t.count + 1 → t'.nextAllocId = (t.nextAllocId + 1) % 2 ^ 64 →
      TableStep t (.add ptr size btype) t'
  | removed {ptr : Ptr} {b : TrackedBuffer} {t' : BufferTable} : b.ptr = ptr →
      t.used.Perm (b :: t'.used) →
      t'.buffers.length = t.buffers.length → t'.count = (t.count + 2 ^ 64 - 1) % 2 ^ 64 →
      t'.nextAllocId = t.nextAllocId → TableStep t (.remove ptr) t'

theorem TableOp.apply_step (op : TableOp) (st : Tracer) :
    TableStep st.buffers op (op.apply st).buffers := by
  cases op with
  | add ptr size btype =>
    by_cases hzero : ptr = 0 ∨ size = 0
    · rw [apply, bufferTableAdd, if_pos hzero]
      exact .ignored _
    rw [not_or] at hzero
    cases hslot : st.buffers.buffers.findIdx? fun b ↦ !b.inUse with
    | none =>
      rw [apply, bufferTableAdd, if_neg (by simp [hzero]), hslot]
      simp only [message_buffers]
      exact .ignored _
    | some slot =>
      obtain ⟨l₁, b, l₂, hl, rfl, hb⟩ := exists_of_findIdx? hslot
      rw [apply, bufferTableAdd, if_neg (by simp [hzero]), hslot]
      refine .added hzero.1 hzero.2 ?_ (by simp) rfl rfl
      simp only [hl, set_append_cons]
      rw [used_eq hl]
      exact used_swap l₁ l₂ (by simpa using hb) rfl _ _ _ _
  | remove ptr =>
    by_cases hzero : ptr = 0
    · rw [apply, bufferTableRemove, if_pos hzero]
      exact .ignored _
    cases hslot : st.buffers.buffers.findIdx? fun b ↦ b.inUse && b.ptr == ptr with
    | none =>
      rw [apply, bufferTableRemove, if_neg hzero, hslot]
      exact .ignored _
    | some slot =>
      obtain ⟨l₁, b, l₂, hl, rfl, hb⟩ := exists_of_findIdx? hslot
      simp only [Bool.and_eq_true, beq_iff_eq] at hb
      rw [apply, bufferTableRemove, if_neg hzero, hslot]
      refine .removed hb.2 ?_ (by simp) rfl rfl
      simp only [hl, modify_append_cons]
      rw [used_eq hl]
      exact used_swap l₁ l₂ rfl hb.1 _ _ _ _

/-- The table after `adds` entries were made and `removes` of them removed. -/
structure RepInv (t : BufferTable) (adds removes : ℕ) : Prop where
  slots : t.buffers.length = maxTrackedBuffers
  count : t.count = t.used.length
  balance : t.used.length + removes = adds
  next : t.nextAllocId = adds + 1
  below : ∀ b ∈ t.used, b.allocId < t.nextAllocId
  distinct : (t.used.map TrackedBuffer.allocId).Nodup
  valid : ∀ b ∈ t.used, b.ptr ≠ 0 ∧ b.size ≠ 0

section Steps

variable {t t' : BufferTable} {op : TableOp} {adds removes : ℕ}

theorem RepInv.used_le (h : RepInv t adds removes) : t.used.length ≤ maxTrackedBuffers := by
  rw [← h.slots]
  exact List.length_filter_le ..

theorem RepInv.fresh (h : RepInv t adds removes) :
    t.nextAllocId ∉ t.used.map TrackedBuffer.allocId := by
  intro hmem
  obtain ⟨b, hb, hid⟩ := List.mem_map.mp hmem
  have hlt := h.below b hb
  omega

/-- One operation keeps the table in order, as long as the ids do not wrap. -/
theorem TableStep.repInv (hstep : TableStep t op t') (h : RepInv t adds removes)
    (hsmall : adds + 2 < 2 ^ 64) :
    ∃ adds' removes', RepInv t' adds' removes' ∧ adds' + removes' ≤ adds + removes + 1 := by
  have hle := h.used_le
  have hfresh := h.fresh
  have hmax : maxTrackedBuffers = 65536 := rfl
  obtain ⟨hslots, hcount, hbalance, hnext, hbelow, hdistinct, hvalid⟩ := h
  cases hstep with
  | ignored =>
    exact ⟨adds, removes, ⟨hslots, hcount, hbalance, hnext, hbelow, hdistinct, hvalid⟩, by omega⟩
  | added hptr hsize hused hlen hcount' hnext' =>
    have hlength := hused.length_eq
    rw [List.length_cons] at hlength
    rw [Nat.mod_eq_of_lt (by omega)] at hnext'
    refine ⟨adds + 1, removes, ⟨by omega, by omega, by omega, by omega, ?_, ?_, ?_⟩, by omega⟩
    · intro b hb
      rw [hused.mem_iff, List.mem_cons] at hb
      rcases hb with rfl | hb
      · simp only
        omega
      · have hlt := hbelow b hb
        omega
    · rw [(hused.map _).nodup_iff, List.map_cons]
      exact List.nodup_cons.mpr ⟨hfresh, hdistinct⟩
    · intro b hb
      rw [hused.mem_iff, List.mem_cons] at hb
      rcases hb with rfl | hb
      · exact ⟨hptr, hsize⟩
      · exact hvalid b hb
  | @removed _ b _ hptr hused hlen hcount' hnext' =>
    have hlength := hused.length_eq
    rw [List.length_cons] at hlength
    have hkept : ∀ c ∈ t'.used, c ∈ t.used := by
      intro c hc
      rw [hused.mem_iff]
      exact List.mem_cons_of_mem b hc
    refine ⟨adds, removes + 1, ⟨by omega, by omega, by omega, by omega, ?_, ?_, ?_⟩, by omega⟩
    · intro c hc
      rw [hnext']
      exact hbelow c (hkept c hc)
    · rw [(hused.map _).nodup_iff, List.map_cons] at hdistinct
      exact (List.nodup_cons.mp hdistinct).2
    · intro c hc
      exact hvalid c (hkept c hc)

theorem TableStep.next_le (hstep : TableStep t op t') (h : RepInv t adds removes)
    (hsmall : adds + 2 < 2 ^ 64) :
    t.nextAllocId ≤ t'.nextAllocId := by
  have hnext := h.next
  cases hstep with
  | ignored => exact le_rfl
  | added _ _ _ _ _ hnext' =>
    rw [hnext', Nat.mod_eq_of_lt (by omega)]
    exact Nat.le_succ _
  | removed _ _ _ _ hnext' => rw [hnext']

theorem RepInv.small (h : RepInv t adds removes) {n : ℕ} (hops : adds + removes ≤ n)
    (hn : n < 2 ^ 64) :
    adds + 2 < 2 ^ 64 := by
  have hle := h.used_le
  have hbalance := h.balance
  have hmax : maxTrackedBuffers = 65536 := rfl
  omega

end Steps

section Runs

variable (st : Tracer) (ops : List TableOp)

def MadeAt (i : ℕ) (b : TrackedBuffer) : Prop :=
  ops[i]? = some (.add b.ptr b.size b.btype) ∧
    b.allocId = (applyOps st (ops.take i)).buffers.nextAllocId ∧
    b ∈ (applyOps st (ops.take (i + 1))).buffers.used

variable {st ops}

theorem MadeAt.lt {i : ℕ} {b : TrackedBuffer} (h : MadeAt st ops i b) : i < ops.length :=
  (List.getElem?_eq_some_iff.mp h.1).1

theorem MadeAt.snoc {i : ℕ} {b : TrackedBuffer} (h : MadeAt st ops i b) (op : TableOp) :
    MadeAt st (ops ++ [op]) i b := by
  have hi := h.lt
  rw [MadeAt, List.getElem?_append_left hi, List.take_append_of_le_length hi.le,
    List.take_append_of_le_length hi]
  exact h

variable (hst : RepInv st.buffers 0 0)

include hst

theorem applyOps_repInv (hops : ops.length < 2 ^ 64) :
    ∃ adds removes, RepInv (applyOps st ops).buffers adds removes ∧
      adds + removes ≤ ops.length := by
  induction ops using List.reverseRecOn with
  | nil => exact ⟨0, 0, hst, le_rfl⟩
  | append_singleton ops op ih =>
    rw [List.length_append, List.length_singleton] at hops ⊢
    obtain ⟨adds, removes, hinv, hle⟩ := ih (by omega)
    obtain ⟨adds', removes', hinv', hle'⟩ :=
      (op.apply_step (applyOps st ops)).repInv hinv (hinv.small hle (by omega))
    rw [applyOps_snoc]
    exact ⟨adds', removes', hinv', by omega⟩

theorem applyOps_next_le (hops : ops.length < 2 ^ 64) {i j : ℕ} (hij : i ≤ j) :
    (applyOps st (ops.take i)).buffers.nextAllocId ≤
      (applyOps st (ops.take j)).buffers.nextAllocId := by
  induction hij with
  | refl => exact le_rfl
  | @step j _ ih =>
    by_cases hj : j < ops.length
    · rw [List.take_succ_eq_append_getElem hj, applyOps_snoc]
      have hlen : (ops.take j).length = j := List.length_take_of_le hj.le
      obtain ⟨adds, removes, hinv, hle⟩ := applyOps_repInv hst (hlen.trans_lt (hj.trans hops))
      exact ih.trans (((ops[j]).apply_step _).next_le hinv (hinv.small hle (by omega)))
    · have hlast : ops.take (j + 1) = ops.take j := by
        rw [List.take_of_length_le (by omega), List.take_of_length_le (by omega)]
      rw [hlast]
      exact ih

theorem exists_madeAt {b : TrackedBuffer} (hb : b ∈ (applyOps st ops).buffers.used) :
    ∃ i, MadeAt st ops i b := by
  induction ops using List.reverseRecOn with
  | nil =>
    have hnil : st.buffers.used = [] :=
      List.length_eq_zero_iff.mp (Nat.eq_zero_of_add_eq_zero_right hst.balance)
    rw [show applyOps st [] = st from rfl, hnil] at hb
    exact absurd hb List.not_mem_nil
  | append_singleton ops op ih =>
    have hold : b ∈ (applyOps st ops).buffers.used → ∃ i, MadeAt st (ops ++ [op]) i b := by
      intro hmem
      obtain ⟨i, hi⟩ := ih hmem
      exact ⟨i, hi.snoc op⟩
    have hlast : (ops ++ [op]).take (ops.length + 1) = ops ++ [op] :=
      List.take_of_length_le (by simp)
    have hstep := op.apply_step (applyOps st ops)
    rw [← applyOps_snoc] at hstep
    generalize htable : (applyOps st (ops ++ [op])).buffers = t' at hstep hb
    cases hstep with
    | ignored => exact hold hb
    | added hptr hsize hused =>
      have hmem := hused.mem_iff.mp hb
      rcases List.mem_cons.mp hmem with rfl | hmem
      · refine ⟨ops.length, by simp, ?_, ?_⟩
        · rw [List.take_left]
        · rw [hlast, htable]
          exact hb
      · exact hold hmem
    | removed _ hused => exact hold (hused.mem_iff.mpr (List.mem_cons_of_mem _ hb))

theorem MadeAt.lt_iff (hops : ops.length < 2 ^ 64) {i j : ℕ} {b c : TrackedBuffer}
    (hb : MadeAt st ops i b) (hc : MadeAt st ops j c) : i < j ↔ b.allocId < c.allocId := by
  have hbelow : ∀ {i j : ℕ} {b c : TrackedBuffer}, MadeAt st ops i b → MadeAt st ops j c → i < j →
      b.allocId < c.allocId := by
    intro i j b c hb hc hij
    have hlen : (ops.take (i + 1)).length = i + 1 := List.length_take_of_le hb.lt
    have hi := hb.lt
    obtain ⟨_, _, hinv, -⟩ := applyOps_repInv hst (hlen.trans_lt (by omega : i + 1 < 2 ^ 64))
    have hlt := hinv.below b hb.2.2
    have hle := applyOps_next_le hst hops (show i + 1 ≤ j from hij)
    rw [← hc.2.1] at hle
    omega
  rcases lt_trichotomy i j with hij | rfl | hij
  · exact ⟨fun _ ↦ hbelow hb hc hij, fun _ ↦ hij⟩
  · rw [hb.2.1, hc.2.1]
    exact iff_of_false (lt_irrefl _) (lt_irrefl _)
  · have hlt := hbelow hc hb hij
    omega

end Runs

theorem used_length (t : BufferTable) : t.entries.length = t.used.length := by
  rw [BufferTable.entries, List.length_map, BufferTable.used]

theorem mem_entries_iff {t : BufferTable} {ptr : Ptr} :
    ptr ∈ t.entries.map Allocation.ptr ↔ ∃ b ∈ t.used, b.ptr = ptr := by
  rw [BufferTable.entries, List.map_map, List.mem_map]
  rfl

theorem RepInv.decrement {st : Tracer} {adds removes : ℕ} {ptr : Ptr}
    (h : RepInv st.buffers adds removes) (hsmall : adds + 2 < 2 ^ 64)
    (htracked : ∃ b ∈ st.buffers.used, b.ptr = ptr) :
    (bufferTableRemove ptr st).buffers.count + 1 = st.buffers.count := by
  have hptr : ptr ≠ 0 := by
    obtain ⟨b, hb, rfl⟩ := htracked
    exact (h.valid b hb).1
  obtain ⟨a, -, hperm, -⟩ := bufferTableRemove_entries hptr (mem_entries_iff.mpr htracked)
  have hlength := hperm.length_eq
  rw [List.length_cons, used_length, used_length] at hlength
  obtain ⟨_, _, hinv, -⟩ := ((TableOp.remove ptr).apply_step st).repInv h hsmall
  have hcount : (bufferTableRemove ptr st).buffers.count = _ := hinv.count
  rw [h.count, hlength, hcount]
  rfl

theorem bufferTableAdd_full {st : Tracer} (h : st.buffers.used.length = st.buffers.buffers.length)
    (ptr : Ptr) (size : ℕ) (btype : BufferType) :
    bufferTableAdd ptr size btype st = if ptr = 0 ∨
    size = 0 then st else st.message 1 (.tableFull ptr) := by
  have hfull : st.buffers.buffers.findIdx? (fun b ↦ !b.inUse) = none := by
    have hall := List.length_filter_eq_length_iff.mp h
    rw [List.findIdx?_eq_none_iff]
    intro b hb
    rw [hall b hb]
    rfl
  rw [bufferTableAdd, hfull]

end HrxSystem.Hip
