import HrxSystem.Libhrx.Semaphore
import HrxSystem.Libhrx.ValueLists
import Mathlib.Algebra.Order.Monoid.WithTop
import Mathlib.Order.ConditionallyCompleteLattice.Basic
import Mathlib.Data.Int.ConditionallyCompleteOrder
import Mathlib.Tactic.Tauto

namespace HrxSystem.Libhrx

open External Program

variable {σ : Type}

def fenceTimeout (timeoutNs : ℕ) : Timeout :=
  if timeoutNs = 2 ^ 64 - 1 then .infinite
  else if timeoutNs = 0 then .immediate
  else .relative (asI64 timeoutNs)

def hrxFenceWait (fence : HrxFence) (timeoutNs : ℕ) : Hrx σ HrxStatus :=
  match fence with
  | none => hrxError .invalidArgument "fence is NULL"
  | some f => do
    let e ← call (.fenceWait f.hal (fenceTimeout timeoutNs))
    hrxStatusFromIree e.answer.status

/-- When a wait that starts at `now` gives up. The two ends of the absolute range are `now` and
never. -/
def Timeout.deadline (now : ℤ) : Timeout → WithTop ℤ
  | .absolute nanos => if nanos = 2 ^ 63 - 1 then ⊤ else if nanos = -2 ^ 63 then now else nanos
  | .relative nanos => ((now + nanos : ℤ) : WithTop ℤ)

theorem deadline_infinite (now : ℤ) : Timeout.infinite.deadline now = ⊤ := rfl

theorem deadline_immediate (now : ℤ) : Timeout.immediate.deadline now = now := rfl

def waitTimeout : Call → Option Timeout
  | .semaphoreWait _ timeout | .fenceWait _ timeout => some timeout
  | _ => none

def deadlines (now : ℤ) (events : Trace) : List (WithTop ℤ) :=
  (events.filterMap fun e ↦ waitTimeout e.call).map (Timeout.deadline now)

/-- The deadline that a wait with a timeout of `timeoutNs` nanoseconds gets. -/
def waitDeadline (now : ℤ) (timeoutNs : ℕ) : WithTop ℤ := (semaphoreTimeout timeoutNs).deadline now

def Wraps (timeoutNs : ℕ) : Prop := 2 ^ 63 ≤ timeoutNs ∧ timeoutNs < 2 ^ 64 - 1

instance (timeoutNs : ℕ) : Decidable (Wraps timeoutNs) := inferInstanceAs (Decidable (_ ∧ _))

theorem fenceTimeout_eq (timeoutNs : ℕ) : fenceTimeout timeoutNs = semaphoreTimeout timeoutNs := rfl

theorem deadlines_status (now : ℤ) (e : Happened) (o : Outside) (n : ℕ) :
    deadlines now (e :: payloads o n e) =
      ((waitTimeout e.call).map (Timeout.deadline now)).toList := by
  have hnone : (payloads o n e).filterMap (fun f ↦ waitTimeout f.call) = [] := by
    rw [List.filterMap_eq_nil_iff]
    intro f hf
    rw [payloads_calls o n e f hf]
    rfl
  rw [deadlines, List.filterMap_cons, hnone]
  cases waitTimeout e.call <;> rfl

theorem hrxSemaphoreWait_deadlines (now : ℤ) (sem : SemaphorePtr) (value timeoutNs : ℕ)
    (o : Outside) (n : ℕ) (s : σ) :
    deadlines now ((hrxSemaphoreWait (some sem) value timeoutNs).run o n s).events =
      [waitDeadline now timeoutNs] := by
  simp only [hrxSemaphoreWait, run_bind, run_call, run_hrxStatusFromIree_made, Outcome.after_mk,
    List.singleton_append]
  exact deadlines_status now _ o _

theorem hrxFenceWait_deadlines (now : ℤ) (fence : FencePtr) (timeoutNs : ℕ) (o : Outside) (n : ℕ)
    (s : σ) :
    deadlines now ((hrxFenceWait (some fence) timeoutNs).run o n s).events =
      [waitDeadline now timeoutNs] := by
  simp only [hrxFenceWait, fenceTimeout_eq, run_bind, run_call, run_hrxStatusFromIree_made,
    Outcome.after_mk, List.singleton_append]
  exact deadlines_status now _ o _

section Deadlines

variable {now : ℤ} {t t₁ t₂ : ℕ}

theorem waitDeadline_max (now : ℤ) : waitDeadline now (2 ^ 64 - 1) = ⊤ := deadline_infinite now

theorem waitDeadline_zero (now : ℤ) : waitDeadline now 0 = now := deadline_immediate now

theorem waitDeadline_small (now : ℤ) (ht : t < 2 ^ 63) :
    waitDeadline now t = ((now + t : ℤ) : WithTop ℤ) := by
  rcases Nat.eq_zero_or_pos t with rfl | hpos
  · rw [waitDeadline_zero]
    simp
  · have hmax : t ≠ 2 ^ 64 - 1 := by omega
    rw [waitDeadline, semaphoreTimeout, if_neg hmax, if_neg hpos.ne', asI64, if_pos ht]
    rfl

theorem waitDeadline_wraps (now : ℤ) (ht : Wraps t) :
    waitDeadline now t = ((now + (t - 2 ^ 64) : ℤ) : WithTop ℤ) := by
  obtain ⟨hlow, hhigh⟩ := ht
  have hzero : t ≠ 0 := by omega
  rw [waitDeadline, semaphoreTimeout, if_neg hhigh.ne, if_neg hzero, asI64, if_neg (by omega)]
  rfl

theorem wraps_or (ht : t < 2 ^ 64) : t < 2 ^ 63 ∨ Wraps t ∨ t = 2 ^ 64 - 1 := by
  unfold Wraps
  omega

/-- The deadlines are in the order of the timeouts unless only the later timeout wraps. -/
theorem waitDeadline_le_iff (h : t₁ ≤ t₂) (ht : t₂ < 2 ^ 64) :
    waitDeadline now t₁ ≤ waitDeadline now t₂ ↔ ¬ (t₁ < 2 ^ 63 ∧ Wraps t₂) := by
  rcases wraps_or ht with hsmall₂ | hwraps₂ | rfl
  · have hsmall₁ : t₁ < 2 ^ 63 := by omega
    rw [waitDeadline_small now hsmall₁, waitDeadline_small now hsmall₂, WithTop.coe_le_coe]
    have hnot : ¬ Wraps t₂ := by
      unfold Wraps
      omega
    simp only [hnot, and_false, not_false_eq_true, iff_true]
    omega
  · rw [waitDeadline_wraps now hwraps₂]
    rcases Nat.lt_or_ge t₁ (2 ^ 63) with hsmall₁ | hlarge₁
    · rw [waitDeadline_small now hsmall₁, WithTop.coe_le_coe]
      have hlow := hwraps₂.2
      simp only [hsmall₁, hwraps₂, and_true, not_true_eq_false, iff_false, not_le]
      omega
    · have hwraps₁ : Wraps t₁ := ⟨hlarge₁, h.trans_lt hwraps₂.2⟩
      rw [waitDeadline_wraps now hwraps₁, WithTop.coe_le_coe]
      have hnot : ¬ t₁ < 2 ^ 63 := not_lt.mpr hlarge₁
      simp only [hnot, false_and, not_false_eq_true, iff_true]
      omega
  · rw [waitDeadline_max]
    simp [Wraps]

theorem lt_waitDeadline_iff (hpos : 0 < t) (ht : t < 2 ^ 64) :
    (now : WithTop ℤ) < waitDeadline now t ↔ ¬ Wraps t := by
  rcases wraps_or ht with hsmall | hwraps | rfl
  · rw [waitDeadline_small now hsmall, WithTop.coe_lt_coe]
    unfold Wraps
    omega
  · rw [waitDeadline_wraps now hwraps, WithTop.coe_lt_coe]
    have hhigh := hwraps.2
    simp only [hwraps, not_true_eq_false, iff_false, not_lt]
    omega
  · rw [waitDeadline_max]
    simp [Wraps]

theorem lt_waitDeadline_imp_iff (ht : t < 2 ^ 64) :
    (0 < t → (now : WithTop ℤ) < waitDeadline now t) ↔ ¬ Wraps t := by
  rcases Nat.eq_zero_or_pos t with rfl | hpos
  · simp [Wraps]
  · rw [← lt_waitDeadline_iff hpos ht]
    exact ⟨fun h ↦ h hpos, fun h _ ↦ h⟩

end Deadlines

/-- Both waits turn a timeout into one deadline, the same for both. The deadlines keep the order of
the timeouts, and a positive timeout ends after it starts, exactly where the cast does not wrap. -/
theorem timeouts_monotone_iff (now : ℤ) (sem : SemaphorePtr) (value : ℕ) (fence : FencePtr)
    (o : Outside) (n : ℕ) (s : σ) {t₁ t₂ : ℕ} (h : t₁ ≤ t₂) (ht : t₂ < 2 ^ 64) :
    ∃ d₁ d₂ : WithTop ℤ,
      deadlines now ((hrxSemaphoreWait (some sem) value t₁).run o n s).events = [d₁] ∧
      deadlines now ((hrxFenceWait (some fence) t₁).run o n s).events = [d₁] ∧
      deadlines now ((hrxSemaphoreWait (some sem) value t₂).run o n s).events = [d₂] ∧
      deadlines now ((hrxFenceWait (some fence) t₂).run o n s).events = [d₂] ∧
      (d₁ ≤ d₂ ↔ ¬ (t₁ < 2 ^ 63 ∧ Wraps t₂)) ∧
      (d₁ ≤ d₂ ∧ (0 < t₁ → now < d₁) ∧ (0 < t₂ → now < d₂) ↔ ¬ Wraps t₁ ∧ ¬ Wraps t₂) := by
  refine ⟨waitDeadline now t₁, waitDeadline now t₂,
    hrxSemaphoreWait_deadlines now sem value t₁ o n s,
    hrxFenceWait_deadlines now fence t₁ o n s, hrxSemaphoreWait_deadlines now sem value t₂ o n s,
    hrxFenceWait_deadlines now fence t₂ o n s, waitDeadline_le_iff h ht, ?_⟩
  rw [waitDeadline_le_iff h ht, lt_waitDeadline_imp_iff (h.trans_lt ht), lt_waitDeadline_imp_iff ht]
  tauto

theorem timeouts_monotone_seven : ∃ d₁ d₂ : WithTop ℤ,
    deadlines 100 ((hrxSemaphoreWait (some ⟨1, 1⟩) 4 5).run (fun _ _ ↦ {}) 0 ()).events = [d₁] ∧
      deadlines 100 ((hrxSemaphoreWait (some ⟨1, 1⟩) 4 7).run (fun _ _ ↦ {}) 0 ()).events = [d₂] ∧
      d₁ ≤ d₂ := by
  obtain ⟨d₁, d₂, hd₁, -, hd₂, -, hle, -⟩ :=
    timeouts_monotone_iff 100 ⟨1, 1⟩ 4 ⟨2, 2⟩ (fun _ _ ↦ {}) 0 () (show 5 ≤ 7 by decide) (by decide)
  exact ⟨d₁, d₂, hd₁, hd₂, hle.mpr (by decide)⟩

/-- A wait of 2 ^ 63 nanoseconds ends before it starts, and before a wait of one nanosecond. -/
theorem timeouts_not_monotone :
    deadlines 0 ((hrxSemaphoreWait (some ⟨1, 1⟩) 4 1).run (fun _ _ ↦ {}) 0 ()).events =
      [((1 : ℤ) : WithTop ℤ)] ∧
      deadlines 0 ((hrxSemaphoreWait (some ⟨1, 1⟩) 4 (2 ^ 63)).run (fun _ _ ↦ {}) 0 ()).events =
        [((-2 ^ 63 : ℤ) : WithTop ℤ)] ∧
      deadlines 0 ((hrxFenceWait (some ⟨2, 2⟩) (2 ^ 63)).run (fun _ _ ↦ {}) 0 ()).events =
        [((-2 ^ 63 : ℤ) : WithTop ℤ)] ∧
      ¬ ((1 : ℤ) : WithTop ℤ) ≤ ((-2 ^ 63 : ℤ) : WithTop ℤ) ∧
      ¬ ((0 : ℤ) : WithTop ℤ) < ((-2 ^ 63 : ℤ) : WithTop ℤ) := by
  refine ⟨by decide, by decide, by decide, ?_, ?_⟩
  · rw [WithTop.coe_le_coe]
    decide
  · rw [WithTop.coe_lt_coe]
    decide

end HrxSystem.Libhrx
