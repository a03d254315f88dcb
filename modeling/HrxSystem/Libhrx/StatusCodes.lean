import HrxSystem.Libhrx.Common

namespace HrxSystem.Libhrx

open External Program

variable {σ : Type}

def hrxStatusCode : HrxStatus → ℤ
  | none => HrxStatusCode.ok.toInt
  | some s => s.code

def hrxStatusToIree : HrxStatus → Hrx σ IreeStatus
  | none => return none
  | some s => do
    let code := if s.code = HrxStatusCode.outOfMemory.toInt then 8 else s.code
    let e ← call (.statusAllocateF code (s.message.getD "(no message)"))
    return e.answer.status

/-- `host_call_trampoline` of a thunk, where `callback` is what calling the thunk's callback
does. -/
def hostCallTrampoline (thunk : Obj) (callback : Hrx σ HrxStatus) : Hrx σ IreeStatus := do
  let status ← callback
  let _ ← call (.freeHostCallThunk thunk)
  hrxStatusToIree status

def roundTrip (code : ℤ) (message : Option String) : Hrx σ HrxStatus := do
  let status ← hrxMakeStatus code message
  let s ← hrxStatusToIree status
  hrxStatusFromIree s

/-- The status of an IREE status made with `code`: its low five bits, and OK when they are zero. -/
def wireCode (code : ℤ) : Option ℤ := if code % 32 = 0 then none else some (code % 32)

/-- What `iree_status_allocate_f` does when it can allocate. -/
def AllocatesStatuses (o : Outside) : Prop :=
  ∀ n code message, (o n (.statusAllocateF code message)).status.map IreeError.code = wireCode code

def relayed (code : ℤ) : ℤ := (wireCode code).elim 0 hrxCodeFromIree

def relayedCodes : List ℤ := [0, 3, 4, 5, 6, 8, 11, 12, 13, 14]

theorem hrxCodeFromIree_mem (code : ℤ) : hrxCodeFromIree code ∈ relayedCodes := by
  unfold hrxCodeFromIree
  split_ifs <;> decide

theorem relayed_mem (code : ℤ) : relayed code ∈ relayedCodes := by
  unfold relayed
  cases wireCode code with
  | none => decide
  | some c => exact hrxCodeFromIree_mem c

theorem relayed_of_mem : ∀ code ∈ relayedCodes, relayed code = code := by decide

theorem relayed_eq_iff {code : ℤ} : relayed code = code ↔ code ∈ relayedCodes := by
  constructor
  · intro h
    rw [← h]
    exact relayed_mem code
  · exact relayed_of_mem code

/-- A status that carries `code`, and says OK for no error. -/
structure Conveyed (code : ℤ) (status : HrxStatus) : Prop where
  kept : hrxStatusCode status = code
  ok : hrxStatusIsOk status = true → code = 0

theorem conveyed_iff {code : ℤ} {status : HrxStatus} :
    Conveyed code status ↔ hrxStatusCode status = code := by
  refine ⟨fun h ↦ h.kept, fun h ↦ ⟨h, fun hok ↦ ?_⟩⟩
  cases status with
  | none => exact h.symm
  | some s => cases hok

variable {o : Outside}

theorem hrxStatusFromIree_code (ho : Roomy o) (status : IreeStatus) (n : ℕ) (s : σ) :
    hrxStatusCode ((hrxStatusFromIree status).run o n s).val =
      (status.map IreeError.code).elim 0 hrxCodeFromIree := by
  cases status with
  | none => rfl
  | some e =>
    have hcode : hrxCodeFromIree e.code ≠ 0 := hrxCodeFromIree_ne_zero e.code
    cases htext : e.text with
    | none => simp [hrxStatusFromIree, htext, run_hrxMakeStatus ho hcode, hrxStatusCode]
    | some text => simp [hrxStatusFromIree, htext, run_hrxMakeStatus ho hcode, hrxStatusCode]

theorem hrxStatusToIree_code (ha : AllocatesStatuses o) (status : HrxStatus) (n : ℕ) (s : σ) :
    ((hrxStatusToIree status).run o n s).val.map IreeError.code = wireCode
      (hrxStatusCode status) := by
  cases status with
  | none => rfl
  | some e =>
    have hcode : (if e.code = HrxStatusCode.outOfMemory.toInt then 8 else e.code) = e.code := by
      split
      · next h => exact h.symm
      · rfl
    simp only [hrxStatusToIree, run_bind, run_call, run_pure, Outcome.after_val, hcode]
    exact ha n e.code _

theorem hostCallTrampoline_code (ha : AllocatesStatuses o) (thunk : Obj)
    (callback : Hrx σ HrxStatus) (n : ℕ) (s : σ) :
    ((hostCallTrampoline thunk callback).run o n s).val.map IreeError.code =
      wireCode (hrxStatusCode (callback.run o n s).val) := by
  simp only [hostCallTrampoline, run_bind, run_call, Outcome.after_val]
  exact hrxStatusToIree_code ha _ _ _

theorem hrxMakeStatus_code (ho : Roomy o) (code : ℤ) (message : Option String) (n : ℕ) (s : σ) :
    hrxStatusCode ((hrxMakeStatus code message).run o n s).val = code := by
  by_cases hcode : code = 0
  · simp [hrxMakeStatus, hcode, hrxOkStatus, hrxStatusCode, HrxStatusCode.toInt]
  · rw [run_hrxMakeStatus ho hcode]
    rfl

theorem roundTrip_code (ho : Roomy o) (ha : AllocatesStatuses o) (code : ℤ)
    (message : Option String) (n : ℕ) (s : σ) :
    hrxStatusCode ((roundTrip code message).run o n s).val = relayed code := by
  simp only [roundTrip, run_bind, Outcome.after_val]
  rw [hrxStatusFromIree_code ho, hrxStatusToIree_code ha, hrxMakeStatus_code ho]
  rfl

/-- A code survives the trip exactly when it is one that `hrx_status_from_iree` can produce, and so
does the code that a host call's callback returns, however IREE words the status it hands on. -/
theorem status_round_trip_iff (ho : Roomy o) (ha : AllocatesStatuses o) (n : ℕ) (s : σ) :
    (∀ code message, Conveyed code ((roundTrip code message).run o n s).val ↔ code ∈ relayedCodes) ∧
      ∀ (thunk : Obj) (callback : Hrx σ HrxStatus) (handed : IreeStatus),
        handed.map IreeError.code = ((hostCallTrampoline thunk callback).run o n s).val.map
          IreeError.code →
        ∀ (m : ℕ) (s' : σ), Conveyed (hrxStatusCode (callback.run o n s).val)
          ((hrxStatusFromIree handed).run o m s').val ↔
          hrxStatusCode (callback.run o n s).val ∈ relayedCodes := by
  constructor
  · intro code message
    rw [conveyed_iff, roundTrip_code ho ha]
    exact relayed_eq_iff
  · intro thunk callback handed hhanded m s'
    have hcode : hrxStatusCode ((hrxStatusFromIree handed).run o m s').val =
        relayed (hrxStatusCode (callback.run o n s).val) := by
      rw [hrxStatusFromIree_code ho, hhanded, hostCallTrampoline_code ha]
      rfl
    rw [conveyed_iff, hcode]
    exact relayed_eq_iff

def wiring : Outside := fun _ c ↦
  match c with
  | .statusAllocateF code message => { status := (wireCode code).map (⟨·, some message⟩) }
  | _ => {}

theorem wiring_allocates : AllocatesStatuses wiring := by
  intro n code message
  change ((wireCode code).map fun c ↦ (⟨c, some message⟩ : IreeError)).map IreeError.code =
    wireCode code
  cases wireCode code <;> rfl

theorem status_round_trip_notFound :
    Conveyed 5 ((roundTrip 5 (some "thing missing")).run wiring 0 ()).val :=
  ((status_round_trip_iff (fun _ ↦ rfl) wiring_allocates 0 ()).1 5 (some "thing missing")).mpr
    (by decide)

/-- An error whose code is 32 comes back as OK, and CANCELLED as INTERNAL. -/
theorem status_round_trip_lost :
    (Roomy wiring ∧ AllocatesStatuses wiring) ∧
      ((roundTrip 32 none).run wiring 0 ()).val = hrxOkStatus ∧
      ¬ Conveyed 32 ((roundTrip 32 none).run wiring 0 ()).val ∧
      hrxStatusCode ((roundTrip 1 none).run wiring 0 ()).val = HrxStatusCode.internal.toInt ∧
      ¬ Conveyed 1 ((roundTrip 1 none).run wiring 0 ()).val := by
  refine ⟨⟨fun _ ↦ rfl, wiring_allocates⟩, by decide, fun h ↦ ?_, by decide, fun h ↦ ?_⟩
  · exact absurd h.kept (by decide)
  · exact absurd h.kept (by decide)

end HrxSystem.Libhrx
