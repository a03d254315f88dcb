import HrxSystem.Libhrx.ValueLists

namespace HrxSystem.Libhrx

open External Program Counting

/-- Where the copy of a shape stops: at a negative dimension, or at an index outside the stack
array, which panics. -/
inductive ShapeFault
  | negative (index : ℕ)
  | outOfArray (index : ℕ)
deriving DecidableEq

/-- The loop of the stack path, with `remaining` dimensions to go from index `i`. -/
def copyToStack (shape : ℕ → Int64) : ℕ → ℕ → (Fin 8 → UInt64) → Except ShapeFault (Fin 8 → UInt64)
  | 0, _, stackShape => .ok stackShape
  | remaining + 1, i, stackShape =>
    if shape i < 0 then .error (.negative i)
    else if h : i < 8 then
      copyToStack shape remaining (i + 1) (Function.update stackShape ⟨i, h⟩ (shape i).toUInt64)
    else .error (.outOfArray i)

def copyToHeap (shape : ℕ → Int64) : ℕ → ℕ → List UInt64 → Except ShapeFault (List UInt64)
  | 0, _, heapShape => .ok heapShape
  | remaining + 1, i, heapShape =>
    if shape i < 0 then .error (.negative i)
    else copyToHeap shape remaining (i + 1) (heapShape ++ [(shape i).toUInt64])

/-- The dimensions that IREE reads: `shapeRank` of them, from the stack array or the vector. -/
def ireeShape (shapeRank : ℕ) (shape : ℕ → Int64) : Except ShapeFault (List UInt64) :=
  if shapeRank > 8 then copyToHeap shape shapeRank 0 []
  else (copyToStack shape shapeRank 0 fun _ ↦ 0).map fun stackShape ↦
    (List.ofFn stackShape).take shapeRank

structure HrxBufferViewS where
  hal : Obj
deriving DecidableEq

abbrev BufferViews := Heap HrxBufferViewS

/-- The status of `hrx_buffer_view_create`, and what it leaves in `*buffer_view` if it writes
there. -/
structure ViewCreated where
  status : HrxStatus
  bufferView : Option HrxBufferView
deriving DecidableEq

/-- Nothing is returned where the copy of the shape panics. -/
def hrxBufferViewCreate (buffer : HrxBuffer) (shapeRank : ℕ) (shape : Option (ℕ → Int64))
    (elementType encodingType : ℕ) (bufferView : Bool) : Hrx BufferViews (Option ViewCreated) :=
  match buffer, bufferView with
  | some buf, true =>
    if shapeRank > 0 ∧ shape.isNone then
      return some ⟨← hrxError .invalidArgument "shape is NULL for non-zero rank", some none⟩
    else
      match ireeShape shapeRank (shape.getD fun _ ↦ 0) with
      | .error (.outOfArray _) => return none
      | .error (.negative _) =>
        return some ⟨← hrxError .invalidArgument "shape dimensions must be non-negative", some none⟩
      | .ok dims => do
        let s ← call (.bufferViewCreate buf.hal (dims.map UInt64.toNat) elementType encodingType)
        if !ok s then return some ⟨← hrxStatusFromIree s.answer.status, some none⟩
        let e ← call .arcNew
        let views ← state
        let a := views.fresh e.answer.value
        update fun views ↦ views.put a (some ⟨1, ⟨s.pos⟩⟩)
        return some ⟨hrxOkStatus, some (some ⟨a, s.pos⟩)⟩
  | _, _ => return some ⟨← hrxError .invalidArgument "buffer or buffer_view is NULL", none⟩

/-- `handle_ref`. A handle that is not live is outside the contract, and nothing happens. -/
def onView {α : Type} (a : ℕ) (dead : α) (m : Obj → Hrx BufferViews α) : Hrx BufferViews α := do
  let views ← state
  match views.cell a with
  | none => return dead
  | some arc => m arc.data.hal

def hrxBufferViewRank (bufferView : HrxBufferView) (rank : Bool) :
    Hrx BufferViews (HrxStatus × Option ℕ) :=
  match bufferView, rank with
  | some view, true => onView view.addr (none, none) fun hal ↦ do
    let r ← call (.bufferViewShapeRank hal)
    return (hrxOkStatus, some r.answer.value)
  | _, _ => return (← hrxError .invalidArgument "buffer_view or rank is NULL", none)

def hrxBufferViewDim (bufferView : HrxBufferView) (dim : ℕ) (value : Bool) :
    Hrx BufferViews (HrxStatus × Option Int64) :=
  match bufferView, value with
  | some view, true => onView view.addr (none, none) fun hal ↦ do
    let r ← call (.bufferViewShapeRank hal)
    if dim ≥ r.answer.value
      then return (← hrxError .outOfRange "buffer_view dim out of range", none)
    let d ← call (.bufferViewShapeDim hal dim)
    return (hrxOkStatus, some (UInt64.ofNat d.answer.value).toInt64)
  | _, _ => return (← hrxError .invalidArgument "buffer_view or value is NULL", none)

section Copies

variable {shape : ℕ → Int64}

theorem copyToHeap_ok (remaining i : ℕ) (heapShape : List UInt64)
    (h : ∀ j, i ≤ j → j < i + remaining → ¬ shape j < 0) :
    copyToHeap shape remaining i heapShape =
      .ok (heapShape ++ (List.range' i remaining).map fun j ↦ (shape j).toUInt64) := by
  induction remaining generalizing i heapShape with
  | zero => simp [copyToHeap]
  | succ remaining ih =>
    rw [copyToHeap, if_neg (h i le_rfl (by omega)), ih (i + 1) _ fun j hij hj ↦
      h j (by omega) (by omega)]
    simp [List.range'_succ]

theorem copyToHeap_negative (remaining i : ℕ) (heapShape : List UInt64)
    (h : ∃ j, i ≤ j ∧ j < i + remaining ∧ shape j < 0) :
    ∃ k, copyToHeap shape remaining i heapShape = .error (.negative k) := by
  induction remaining generalizing i heapShape with
  | zero =>
    obtain ⟨j, hij, hj, -⟩ := h
    omega
  | succ remaining ih =>
    rw [copyToHeap]
    by_cases hneg : shape i < 0
    · exact ⟨i, if_pos hneg⟩
    · rw [if_neg hneg]
      obtain ⟨j, hij, hj, hshape⟩ := h
      have hne : j ≠ i := by
        rintro rfl
        exact hneg hshape
      exact ih (i + 1) _ ⟨j, by omega, by omega, hshape⟩

/-- Within the stack array the loop writes its entries and leaves the others. -/
theorem copyToStack_ok (remaining i : ℕ) (stackShape : Fin 8 → UInt64) (hfit : i + remaining ≤ 8)
    (h : ∀ j, i ≤ j → j < i + remaining → ¬ shape j < 0) : ∃ copied,
      copyToStack shape remaining i stackShape = .ok copied ∧
      (∀ k : Fin 8, k < i → copied k = stackShape k) ∧
      ∀ k : Fin 8, i ≤ k → k < i + remaining → copied k = (shape k).toUInt64 := by
  induction remaining generalizing i stackShape with
  | zero => exact ⟨stackShape, rfl, fun _ _ ↦ rfl, fun k hik hk ↦ by omega⟩
  | succ remaining ih =>
    have hi : i < 8 := by omega
    obtain ⟨copied, hcopied, hbelow, hin⟩ :=
      ih (i + 1) (Function.update stackShape ⟨i, hi⟩ (shape i).toUInt64)
      (by omega) fun j hij hj ↦ h j (by omega) (by omega)
    refine ⟨copied, ?_, fun k hk ↦ ?_, fun k hik hk ↦ ?_⟩
    · rw [copyToStack, if_neg (h i le_rfl (by omega)), dif_pos hi, hcopied]
    · have hne : k ≠ ⟨i, hi⟩ := by
        rintro rfl
        exact lt_irrefl _ hk
      rw [hbelow k (by omega), Function.update_of_ne hne]
    · by_cases heq : (k : ℕ) = i
      · have hk' : k = ⟨i, hi⟩ := Fin.ext heq
        rw [hbelow k (by omega), hk', Function.update_self]
      · exact hin k (by omega) (by omega)

theorem copyToStack_negative (remaining i : ℕ) (stackShape : Fin 8 → UInt64)
    (hfit : i + remaining ≤ 8) (h : ∃ j, i ≤ j ∧ j < i + remaining ∧ shape j < 0) :
    ∃ k, copyToStack shape remaining i stackShape = .error (.negative k) := by
  induction remaining generalizing i stackShape with
  | zero =>
    obtain ⟨j, hij, hj, -⟩ := h
    omega
  | succ remaining ih =>
    rw [copyToStack]
    by_cases hneg : shape i < 0
    · exact ⟨i, if_pos hneg⟩
    · rw [if_neg hneg, dif_pos (by omega)]
      obtain ⟨j, hij, hj, hshape⟩ := h
      have hne : j ≠ i := by
        rintro rfl
        exact hneg hshape
      exact ih (i + 1) _ (by omega) ⟨j, by omega, by omega, hshape⟩

theorem ireeShape_ok {shapeRank : ℕ} (h : ∀ i < shapeRank, ¬ shape i < 0) :
    ireeShape shapeRank shape = .ok ((List.range shapeRank).map fun i ↦ (shape i).toUInt64) := by
  rw [ireeShape]
  split
  case isTrue =>
    rw [copyToHeap_ok shapeRank 0 [] fun j _ hj ↦ h j (by omega), List.nil_append,
      List.range_eq_range']
  case isFalse hrank =>
    obtain ⟨copied, hcopied, -, hin⟩ :=
      copyToStack_ok shapeRank 0 (fun _ ↦ 0) (by omega) fun j _ hj ↦ h j (by omega)
    rw [hcopied, Except.map]
    congr 1
    refine List.ext_getElem (by simp; omega) fun i hi hi' ↦ ?_
    have hlt : i < shapeRank := by simpa using hi'
    rw [List.getElem_take, List.getElem_ofFn, hin _ (Nat.zero_le i) (by simpa using hlt),
      List.getElem_map, List.getElem_range]

theorem ireeShape_negative {shapeRank : ℕ} (h : ∃ i < shapeRank, shape i < 0) :
    ∃ k, ireeShape shapeRank shape = .error (.negative k) := by
  obtain ⟨i, hi, hneg⟩ := h
  rw [ireeShape]
  split
  case isTrue => exact copyToHeap_negative shapeRank 0 [] ⟨i, by omega, by omega, hneg⟩
  case isFalse hrank =>
    obtain ⟨k, hk⟩ :=
      copyToStack_negative shapeRank 0 (fun _ ↦ 0) (by omega) ⟨i, by omega, by omega, hneg⟩
    exact ⟨k, by rw [hk]; rfl⟩

end Copies

def callerDims (shapeRank : ℕ) (shape : ℕ → Int64) : List ℕ :=
  (List.range shapeRank).map fun i ↦ (shape i).toInt.toNat

/-- IREE keeps the shape of `view` as it was given. -/
structure StoresShape (o : Outside) (view : Obj) (dims : List ℕ) : Prop where
  rank : ∀ n, (o n (.bufferViewShapeRank view)).value = dims.length
  dim : ∀ n i v, dims[i]? = some v → (o n (.bufferViewShapeDim view i)).value = v

section RoundTrip

variable {shape : ℕ → Int64} {shapeRank : ℕ}

theorem ireeShape_toNat (h : ∀ i < shapeRank, ¬ shape i < 0) :
    ((List.range shapeRank).map fun i ↦ (shape i).toUInt64).map UInt64.toNat =
      callerDims shapeRank shape := by
  rw [List.map_map]
  refine List.map_congr_left fun i hi ↦ ?_
  exact Int64.toNat_toUInt64_of_le (Int64.not_lt.mp (h i (List.mem_range.mp hi)))

variable {o : Outside} {hal : Obj} {view : BufferViewPtr} {views : BufferViews} {k : ℕ}

theorem run_hrxBufferViewRank (ho : StoresShape o hal (callerDims shapeRank shape))
    (hview : views.cell view.addr = some ⟨k, ⟨hal⟩⟩) (n : ℕ) :
    ((hrxBufferViewRank (some view) true).run o n views).val = (hrxOkStatus, some shapeRank) := by
  simp [hrxBufferViewRank, onView, hview, happens, ho.rank, callerDims]

theorem run_hrxBufferViewDim (ho : StoresShape o hal (callerDims shapeRank shape))
    (hview : views.cell view.addr = some ⟨k, ⟨hal⟩⟩) (hshape : ∀ i < shapeRank, ¬ shape i < 0)
    (n : ℕ) {i : ℕ} (hi : i < shapeRank) :
    ((hrxBufferViewDim (some view) i true).run o n views).val = (hrxOkStatus, some (shape i)) := by
  have hget : (callerDims shapeRank shape)[i]? = some (shape i).toInt.toNat := by
    simp [callerDims, hi]
  have hlen : (callerDims shapeRank shape).length = shapeRank := by
    simp [callerDims]
  simp [hrxBufferViewDim, onView, hview, happens, ho.rank, hlen, Nat.not_le.mpr hi,
    ho.dim _ _ _ hget, Int64.ofNat_toNatClampNeg (shape i) (Int64.not_lt.mp (hshape i hi))]

theorem run_hrxBufferViewDim_outOfRange (ho : StoresShape o hal (callerDims shapeRank shape))
    (hview : views.cell view.addr = some ⟨k, ⟨hal⟩⟩) (n : ℕ) {i : ℕ} (hi : shapeRank ≤ i) :
    ((hrxBufferViewDim (some view) i true).run o n views).val =
      (made o (n + 1) ⟨HrxStatusCode.outOfRange.toInt, some "buffer_view dim out of range"⟩,
        none) := by
  have hlen : (callerDims shapeRank shape).length = shapeRank := by
    simp [callerDims]
  simp [hrxBufferViewDim, onView, hview, happens, ho.rank, hlen, hi,
    run_hrxError_made (show HrxStatusCode.outOfRange ≠ .ok by decide)]

structure ReadsBack (shapeRank : ℕ) (shape : ℕ → Int64) (view : BufferViewPtr) (hal : Obj) :
    Prop where
  rank : ∀ o n views k, StoresShape o hal (callerDims shapeRank shape) →
    views.cell view.addr = some ⟨k, ⟨hal⟩⟩ →
    ((hrxBufferViewRank (some view) true).run o n views).val = (hrxOkStatus, some shapeRank)
  dim : ∀ o n views k, StoresShape o hal (callerDims shapeRank shape) →
    views.cell view.addr = some ⟨k, ⟨hal⟩⟩ →
    ∀ i < shapeRank, ((hrxBufferViewDim (some view) i true).run o n views).val =
      (hrxOkStatus, some (shape i))
  outOfRange : ∀ o n views k, StoresShape o hal (callerDims shapeRank shape) →
    views.cell view.addr = some ⟨k, ⟨hal⟩⟩ → ∀ i ≥ shapeRank,
      ((hrxBufferViewDim (some view) i true).run o n views).val =
        (made o (n + 1) ⟨HrxStatusCode.outOfRange.toInt, some "buffer_view dim out of range"⟩, none)

theorem readsBack (hshape : ∀ i < shapeRank, ¬ shape i < 0) (view : BufferViewPtr) (hal : Obj) :
    ReadsBack shapeRank shape view hal :=
  ⟨fun _ n _ _ ho hview ↦ run_hrxBufferViewRank ho hview n,
    fun _ n _ _ ho hview _ hi ↦ run_hrxBufferViewDim ho hview hshape n hi,
    fun _ n _ _ ho hview _ hi ↦ run_hrxBufferViewDim_outOfRange ho hview n hi⟩

end RoundTrip

/-- A shape with a negative dimension is refused before IREE is asked, and any other reaches IREE as
it is and can be read back. -/
theorem buffer_view_shape_roundtrip (buf : BufferPtr) {shapeRank : ℕ} {shape : Option (ℕ → Int64)}
    (hshape : shapeRank > 0 → shape.isSome = true) (elementType encodingType : ℕ) (o : Outside)
    (n : ℕ) (views : BufferViews) :
    ((∃ i < shapeRank, shape.getD (fun _ ↦ 0) i < 0) →
      (hrxBufferViewCreate (some buf) shapeRank shape elementType encodingType true).run o n views =
        ⟨some ⟨made o n ⟨HrxStatusCode.invalidArgument.toInt,
          some "shape dimensions must be non-negative"⟩, some none⟩, views, [payload o n]⟩) ∧
    ((∀ i < shapeRank, ¬ shape.getD (fun _ ↦ 0) i < 0) → ∃ create,
      create = happens o n
        (.bufferViewCreate buf.hal (callerDims shapeRank (shape.getD fun _ ↦ 0)) elementType
        encodingType) ∧
      (ok create = false →
        (hrxBufferViewCreate (some buf) shapeRank shape elementType encodingType true).run o n
          views =
            ⟨some ⟨converted o (n + 1) create, some none⟩, views,
            create :: payloads o (n + 1) create⟩) ∧
      (ok create = true → ∃ view views',
        (hrxBufferViewCreate (some buf) shapeRank shape elementType encodingType true).run o n
          views =
          ⟨some ⟨hrxOkStatus, some (some view)⟩, views', [create, happens o (n + 1) .arcNew]⟩ ∧
        views'.cell view.addr = some ⟨1, ⟨create.pos⟩⟩ ∧
        ReadsBack shapeRank (shape.getD fun _ ↦ 0) view create.pos)) := by
  have hnull : ¬ (0 < shapeRank ∧ shape = none) := by
    rintro ⟨hrank, rfl⟩
    exact absurd (hshape hrank) (by decide)
  refine ⟨fun hneg ↦ ?_, fun hdims ↦ ⟨_, rfl, fun hfail ↦ ?_, fun hok ↦ ?_⟩⟩
  · obtain ⟨k, hk⟩ := ireeShape_negative hneg
    simp [hrxBufferViewCreate, hnull, hk,
      run_hrxError_made (show HrxStatusCode.invalidArgument ≠ .ok by decide)]
  · have hcreate := ireeShape_ok hdims
    have htoNat := ireeShape_toNat hdims
    simp [hrxBufferViewCreate, hnull, hcreate, htoNat, hfail, run_hrxStatusFromIree_made]
  · have hcreate := ireeShape_ok hdims
    have htoNat := ireeShape_toNat hdims
    refine ⟨⟨views.fresh (happens o (n + 1) .arcNew).answer.value, n⟩,
      views.put (views.fresh (happens o (n + 1) .arcNew).answer.value) (some ⟨1, ⟨n⟩⟩), ?_,
      Heap.put_cell_self .., readsBack hdims ..⟩
    simp [hrxBufferViewCreate, hnull, hcreate, htoNat, hok]

def nineDims : Outside := fun _ c ↦
  match c with
  | .bufferViewShapeRank _ => { value := 9 }
  | .bufferViewShapeDim .. => { value := 16 }
  | _ => {}

theorem nineDims_stores (view : Obj) : StoresShape nineDims view (callerDims 9 fun _ ↦ 16) := by
  refine ⟨fun _ ↦ rfl, fun _ i v hv ↦ ?_⟩
  obtain ⟨_, -, rfl⟩ := List.mem_map.mp (List.mem_of_getElem? hv)
  rfl

theorem buffer_view_shape_roundtrip_nineDims : ∃ view views,
    (hrxBufferViewCreate (some ⟨1, 5⟩) 9 (some fun _ ↦ 16) 0 0 true).run nineDims 0 .empty =
      ⟨some ⟨hrxOkStatus, some (some view)⟩, views, [happens nineDims 0 (.bufferViewCreate 5
        [16, 16, 16, 16, 16, 16, 16, 16, 16] 0 0), happens nineDims 1 .arcNew]⟩ ∧
    ((hrxBufferViewDim (some view) 8 true).run nineDims 2 views).val = (hrxOkStatus, some 16) := by
  obtain ⟨-, hcreated⟩ :=
    @buffer_view_shape_roundtrip ⟨1, 5⟩ 9 (some fun _ ↦ 16) (fun _ ↦ rfl) 0 0 nineDims 0 .empty
  have hsixteen : ¬ (16 : Int64) < 0 := by decide
  obtain ⟨create, rfl, -, hview⟩ := hcreated fun _ _ ↦ hsixteen
  obtain ⟨view, views, hrun, hcell, hreads⟩ := hview rfl
  exact ⟨view, views, hrun, hreads.dim _ 2 _ _ (nineDims_stores _) hcell 8 (by decide)⟩

end HrxSystem.Libhrx
