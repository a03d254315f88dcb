import HrxSystem.Libhrx.Iree

namespace HrxSystem.Libhrx

open External Program

inductive HrxStatusCode
  | ok | cancelled | unknown | invalidArgument | deadlineExceeded | notFound | alreadyExists
  | permissionDenied | outOfMemory | failedPrecondition | aborted | outOfRange | unimplemented
  | internal | unavailable | dataLoss
deriving DecidableEq

def HrxStatusCode.toInt : HrxStatusCode → ℤ
  | .ok => 0 | .cancelled => 1 | .unknown => 2 | .invalidArgument => 3 | .deadlineExceeded => 4
  | .notFound => 5 | .alreadyExists => 6 | .permissionDenied => 7 | .outOfMemory => 8
  | .failedPrecondition => 9 | .aborted => 10 | .outOfRange => 11 | .unimplemented => 12
  | .internal => 13 | .unavailable => 14 | .dataLoss => 15

/-- `struct hrx_status_s`, the heap payload of an error. -/
structure HrxStatusS where
  code : ℤ
  message : Option String
deriving DecidableEq

/-- `hrx_status_t`; the NULL pointer `none` is OK. -/
abbrev HrxStatus := Option HrxStatusS

def hrxOkStatus : HrxStatus := none

def hrxStatusIsOk (s : HrxStatus) : Bool := s.isNone

variable {σ : Type}

/-- `hrx_make_status`. When the payload cannot be allocated the result is the
NULL pointer, which every caller reads as OK. -/
def hrxMakeStatus (code : ℤ) (message : Option String) : Hrx σ HrxStatus := do
  if code = 0 then return hrxOkStatus
  let e ← call (.malloc 16)
  if !ok e then return none
  return some ⟨code, message⟩

/-- `hrx_make_status` with a code of the enumeration and a literal message. -/
def hrxError (code : HrxStatusCode) (message : String) : Hrx σ HrxStatus :=
  hrxMakeStatus code.toInt (some message)

def hrxCodeFromIree (code : ℤ) : ℤ :=
  if code = 3 then HrxStatusCode.invalidArgument.toInt
  else if code = 5 then HrxStatusCode.notFound.toInt
  else if code = 6 then HrxStatusCode.alreadyExists.toInt
  else if code = 11 then HrxStatusCode.outOfRange.toInt
  else if code = 12 then HrxStatusCode.unimplemented.toInt
  else if code = 14 then HrxStatusCode.unavailable.toInt
  else if code = 8 then HrxStatusCode.outOfMemory.toInt
  else if code = 4 then HrxStatusCode.deadlineExceeded.toInt
  else HrxStatusCode.internal.toInt

theorem hrxCodeFromIree_ne_zero (code : ℤ) : hrxCodeFromIree code ≠ 0 := by
  unfold hrxCodeFromIree
  split_ifs <;> decide

def hrxStatusFromIree : IreeStatus → Hrx σ HrxStatus
  | none => pure hrxOkStatus
  | some e =>
    match e.text with
    | none => hrxMakeStatus (hrxCodeFromIree e.code) (some "IREE error (could not format message)")
    | some text => hrxMakeStatus (hrxCodeFromIree e.code) (some text)

section Calls

variable {τ : Type} {f : σ → τ} {P : Call → Prop}

theorem hrxMakeStatus_calls (hmalloc : ∀ n, P (.malloc n)) (code : ℤ) (message : Option String) :
    Confined f P (hrxMakeStatus code message) :=
  .ite (.pure _) (.bind (.call (hmalloc _)) fun _ ↦ .ite (.pure _) (.pure _))

theorem hrxError_calls (hmalloc : ∀ n, P (.malloc n)) (code : HrxStatusCode) (message : String) :
    Confined f P (hrxError code message) := hrxMakeStatus_calls hmalloc _ _

theorem hrxStatusFromIree_calls (hmalloc : ∀ n, P (.malloc n)) (s : IreeStatus) :
    Confined f P (hrxStatusFromIree s) := by
  unfold hrxStatusFromIree
  split
  · exact .pure _
  · split
    · exact hrxMakeStatus_calls hmalloc _ _
    · exact hrxMakeStatus_calls hmalloc _ _

end Calls

def payload (o : Outside) (n : ℕ) : Happened := happens o n (.malloc 16)

theorem run_hrxMakeStatus {o : Outside} (ho : Roomy o) {code : ℤ} (hc : code ≠ 0)
    (message : Option String) (n : ℕ) (s : σ) :
    (hrxMakeStatus code message).run o n s =
      ⟨some ⟨code, message⟩, s, [payload o n]⟩ := by
  simp [hrxMakeStatus, hc, ok, payload, happens, ho n]

theorem HrxStatusCode.toInt_ne_zero {code : HrxStatusCode} (h : code ≠ .ok) : code.toInt ≠ 0 := by
  cases code <;> first | contradiction | decide

theorem run_hrxError {o : Outside} (ho : Roomy o) {code : HrxStatusCode} (hc : code ≠ .ok)
    (message : String) (n : ℕ) (s : σ) :
    (hrxError code message).run o n s =
      ⟨some ⟨code.toInt, some message⟩, s, [payload o n]⟩ :=
  run_hrxMakeStatus ho (HrxStatusCode.toInt_ne_zero hc) _ n s

def errorOf (e : Happened) : HrxStatusS :=
  ⟨hrxCodeFromIree (e.answer.status.elim 0 IreeError.code),
    some ((e.answer.status.bind IreeError.text).getD "IREE error (could not format message)")⟩

theorem run_hrxStatusFromIree {o : Outside} (ho : Roomy o) {e : Happened} (he : ok e = false)
    (n : ℕ) (s : σ) :
    (hrxStatusFromIree e.answer.status).run o n s =
      ⟨some (errorOf e), s, [payload o n]⟩ := by
  cases hs : e.answer.status with
  | none => simp [ok, hs] at he
  | some err =>
    cases ht : err.text <;>
      simp [hrxStatusFromIree, errorOf, hs, ht, run_hrxMakeStatus ho (hrxCodeFromIree_ne_zero _)]

theorem run_hrxStatusFromIree_ok {e : Happened} (he : ok e = true) (o : Outside) (n : ℕ) (s : σ) :
    (hrxStatusFromIree e.answer.status).run o n s = ⟨hrxOkStatus, s, []⟩ := by
  have hs : e.answer.status = none := by simpa [ok] using he
  simp [hrxStatusFromIree, hs]

/-- What becomes of an error status made at place `n`. -/
def made (o : Outside) (n : ℕ) (s : HrxStatusS) : HrxStatus :=
  if ok (payload o n) then some s else none

theorem made_eq_some_iff {o : Outside} {n : ℕ} {s t : HrxStatusS} :
    made o n s = some t ↔ ok (payload o n) = true ∧ s = t := by
  unfold made
  split <;> simp_all

theorem run_hrxMakeStatus_made {code : ℤ} (hc : code ≠ 0) (message : Option String) (o : Outside)
    (n : ℕ) (s : σ) :
    (hrxMakeStatus code message).run o n s = ⟨made o n ⟨code, message⟩, s, [payload o n]⟩ := by
  cases hp : ok (happens o n (.malloc 16)) with
  | false => simp [hrxMakeStatus, hc, made, payload, hp]
  | true => simp [hrxMakeStatus, hc, made, payload, hp]

theorem run_hrxError_made {code : HrxStatusCode} (hc : code ≠ .ok) (message : String) (o : Outside)
    (n : ℕ) (s : σ) :
    (hrxError code message).run o n s = ⟨made o n ⟨code.toInt, some message⟩, s, [payload o n]⟩ :=
  run_hrxMakeStatus_made (HrxStatusCode.toInt_ne_zero hc) _ o n s

/-- What `hrx_status_from_iree` makes at place `n` of the status of a call. -/
def converted (o : Outside) (n : ℕ) (e : Happened) : HrxStatus :=
  if ok e then hrxOkStatus else made o n (errorOf e)

def payloads (o : Outside) (n : ℕ) (e : Happened) : Trace := if ok e then [] else [payload o n]

theorem payloads_calls (o : Outside) (n : ℕ) (e : Happened) :
    ∀ f ∈ payloads o n e, f.call = .malloc 16 := by
  intro f hf
  unfold payloads at hf
  split at hf
  · contradiction
  · rw [List.mem_singleton.mp hf]
    rfl

theorem run_hrxStatusFromIree_made (e : Happened) (o : Outside) (n : ℕ) (s : σ) :
    (hrxStatusFromIree e.answer.status).run o n s = ⟨converted o n e, s, payloads o n e⟩ := by
  cases he : ok e
  · obtain ⟨err, hs⟩ : ∃ err, e.answer.status = some err := by
      simpa [ok, Option.isSome_iff_exists] using he
    cases ht : err.text <;>
      simp [hrxStatusFromIree, converted, payloads, he, errorOf, hs, ht,
        run_hrxMakeStatus_made (hrxCodeFromIree_ne_zero _)]
  · rw [run_hrxStatusFromIree_ok he]
    simp [converted, payloads, he]

end HrxSystem.Libhrx
