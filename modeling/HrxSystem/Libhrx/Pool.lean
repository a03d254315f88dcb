import HrxSystem.Libhrx.Objects

namespace HrxSystem.Libhrx

open External Program

variable {σ : Type}

/-- `hrx_iree_exact_pool_create`. The block holding the pool has 80 bytes. -/
def hrxIreeExactPoolCreate (shared : SharedState) (allocator : Obj) (params : BufferParams) :
    Hrx σ (IreeStatus × Option PoolPtr) :=
  match shared.proactorPool with
  | none => return (some ⟨9, some "FAILED_PRECONDITION"⟩, none)
  | some proactorPool => do
    let g ← call (.proactorPoolGet proactorPool)
    if !ok g then return (g.answer.status, none)
    let m ← call (.allocatorMalloc 80)
    if !ok m then return (m.answer.status, none)
    let _ ← call (.allocatorRetain allocator)
    let c ← call (.notificationCreate g.answer.value)
    if !ok c then
      let _ ← call (.allocatorRelease allocator)
      let _ ← call (.allocatorFree (some m.pos))
      return (c.answer.status, none)
    return (none, some ⟨m.pos, allocator, params, c.pos⟩)

def poolDestroy (pool : PoolPtr) : Hrx σ Unit := do
  let _ ← call (.notificationRelease pool.notification)
  let _ ← call (.allocatorRelease pool.allocator)
  let _ ← call (.allocatorFree (some pool.addr))

/-- `iree_hal_pool_reservation_t`. The block handle is the address of the buffer, and 0 is
`none`. -/
structure PoolReservation where
  offset : ℕ
  length : ℕ
  blockHandle : Option Obj
  slabIndex : ℕ
deriving DecidableEq

structure PoolAcquired where
  status : IreeStatus
  reservation : Option PoolReservation
  result : Option ℕ
deriving DecidableEq

def invalidArgument : IreeStatus := some ⟨3, some "INVALID_ARGUMENT"⟩

def paramsMatch (lhs rhs : BufferParams) : Bool :=
  lhs.type == rhs.type && lhs.access == rhs.access && lhs.usage == rhs.usage &&
    lhs.queueAffinity == rhs.queueAffinity && lhs.minAlignment == rhs.minAlignment

/-- `IREE_HAL_POOL_ACQUIRE_OK_FRESH` is 1. -/
def poolAcquireReservation (pool : PoolPtr) (size : ℕ) : Hrx σ PoolAcquired := do
  if size = 0 then return ⟨invalidArgument, none, none⟩
  let b ← call (.allocatorAllocateBuffer pool.allocator pool.params size)
  if !ok b then return ⟨b.answer.status, some ⟨0, 0, none, 0⟩, none⟩
  let l ← call (.bufferByteLength b.pos)
  return ⟨none, some ⟨0, l.answer.value, some b.pos, 0⟩, some 1⟩

def poolReleaseReservation (pool : PoolPtr) (reservation : PoolReservation) : Hrx σ Unit :=
  match reservation.blockHandle with
  | none => return ()
  | some b => do
    let _ ← call (.bufferRelease (some b))
    let _ ← call (.notificationSignal pool.notification 1)

/-- The flag `TRANSFER_RESERVATION_OWNERSHIP`. -/
def transferFlag : ℕ := 1

def poolMaterializeReservation (pool : PoolPtr) (params : BufferParams)
    (reservation : PoolReservation) (flags : ℕ) :
    Hrx σ (IreeStatus × Option Obj) :=
  if !paramsMatch pool.params params then return (invalidArgument, none)
  else match reservation.blockHandle with
  | none => return (invalidArgument, none)
  | some b => do
    if flags &&& transferFlag = 0 then
      let _ ← call (.bufferRetain b)
      return (none, some b)
    return (none, some b)

/-- `iree_hal_pool_release`, which calls back `pool_destroy` when the library's
reference was the last one. -/
def halPoolRelease (pool : Option PoolPtr) : Hrx σ Unit := do
  let _ ← call (.poolRelease (pool.map PoolPtr.addr))
  match pool with
  | none => return ()
  | some p => poolDestroy p

theorem hrxIreeExactPoolCreate_calls {τ : Type} {f : σ → τ} {P : Call → Prop}
    (hget : ∀ x, P (.proactorPoolGet x)) (hmalloc : ∀ x, P (.allocatorMalloc x))
    (hretain : ∀ x, P (.allocatorRetain x)) (hnotification : ∀ x, P (.notificationCreate x))
    (hallocator : ∀ x, P (.allocatorRelease x)) (hfree : ∀ x, P (.allocatorFree x))
    (shared : SharedState) (allocator : Obj) (params : BufferParams) :
    Confined f P
      (hrxIreeExactPoolCreate shared allocator params : Hrx σ (IreeStatus × Option PoolPtr)) := by
  unfold hrxIreeExactPoolCreate
  split
  · exact .pure _
  · refine .bind (.call (hget _)) fun _ ↦ .ite (.pure _)
      (.bind (.call (hmalloc _)) fun _ ↦ .ite (.pure _) ?_)
    refine .bind (.call (hretain _)) fun _ ↦ .bind (.call (hnotification _)) fun _ ↦
      .ite ?_ (.pure _)
    exact .bind (.call (hallocator _)) fun _ ↦ .bind (.call (hfree _)) fun _ ↦ .pure _

theorem halPoolRelease_calls {τ : Type} {f : σ → τ} {P : Call → Prop}
    (hpool : ∀ x, P (.poolRelease x)) (hnotification : ∀ x, P (.notificationRelease x))
    (hallocator : ∀ x, P (.allocatorRelease x)) (hfree : ∀ x, P (.allocatorFree x))
    (pool : Option PoolPtr) :
    Confined f P (halPoolRelease pool : Hrx σ Unit) := by
  refine .bind (.call (hpool _)) fun _ ↦ ?_
  cases pool with
  | none => exact .pure _
  | some p =>
    exact .bind (.call (hnotification _)) fun _ ↦ .bind (.call (hallocator _)) fun _ ↦
      .bind (.call (hfree _)) fun _ ↦ .pure _

end HrxSystem.Libhrx
