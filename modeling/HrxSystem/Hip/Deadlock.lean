import HrxSystem.Hip.Histories
import HrxSystem.Threads.Blocking

namespace HrxSystem.Hip

open External Relation Threads

/-- The calls around which the tracer holds `STATE`. -/
def Exported.locks : Exported → Bool
  | .routed c => Interceptor.tracer.wraps c.symbol
  | .direct .. => false

def Exported.available (present : Present) (direct : PresentDirect) : Exported → Bool
  | .routed c => present c.symbol
  | .direct name _ => direct name

variable {present : Present} {direct : PresentDirect}

/-- With `HIP_TRACE_SYNC` off a wrapper makes exactly the call that it wraps. -/
theorem tracerCut_ends {c : HipCall} (hpresent : present c.symbol = true) {st : Tracer}
    (hst : Interceptor.tracer.Ready st) :
    Ends (AfterOne Interceptor.tracer.Ready) [] (tracerCut present c).flow st := by
  refine (tracerCut present c).fits.ends .refl fun o ↦ ?_
  rw [(tracerCut present c).program]
  obtain ⟨hready, hserves, -⟩ :=
    Interceptor.tracer.through_spec present (fun _ ↦ true) (.routed c) o 0 hst
  obtain ⟨-, hevents⟩ :=
    hserves fun c' hc' ↦ ⟨fun _ ↦ by cases hc'; exact hpresent, fun _ _ _ _ ↦ rfl⟩
  refine ⟨?_, hready⟩
  rw [Exported.through, Interceptor.activeTable] at hevents
  rw [hevents, Interceptor.plain_routed]
  simp [Interceptor.bare, export_, realTable, hpresent, exchanged]

theorem tracerFlow_single {x : Exported} (hx : x.available present direct = true) :
    Single Interceptor.tracer.Ready x.locks (tracerFlow present direct x) := by
  cases x with
  | routed c =>
    have hpresent : present c.symbol = true := hx
    rw [tracerFlow, Exported.locks]
    cases hw : Interceptor.tracer.wraps c.symbol with
    | true => exact .guarded (tracerCut present c).fits fun _ ↦ tracerCut_ends hpresent
    | false =>
      rw [if_neg Bool.false_ne_true, realCut]
      dsimp only
      rw [if_pos hpresent]
      exact .aside
  | direct name args =>
    have hdirect : direct name = true := hx
    rw [tracerFlow, Exported.locks, directCut, Cut.ite]
    dsimp only
    rw [if_pos hdirect]
    exact .aside

variable {T : Type} [DecidableEq T] [Fintype T] {programs : T → List (Option Exported)}
  {returns : Returns T}
variable {st₀ : Tracer}

/-- With `HIP_TRACE_SYNC` off the tracer's lock brings no deadlock if and only if no wrapped call
ever waits for another one: whenever, in a run against the bare backend, a thread is about to make a
wrapped call, steps that take no lock are enough for it to return. -/
theorem tracer_deadlock_free_iff (hst : Interceptor.tracer.Ready st₀)
    (havailable : ∀ i x, some x ∈ programs i → x.available present direct = true)
    (hfree : (bareSystem Exported.locks programs returns).DeadlockFree fun _ ↦ 0) :
    (flowSystem (tracerFlow present direct) programs returns).DeadlockFree (.initial st₀) ↔
      ∀ s, (bareSystem Exported.locks programs returns).Reaches (fun _ ↦ 0) s →
        ∀ i, (bareSystem Exported.locks programs returns).place s i = .inside →
          ∃ s', ReflTransGen (bareSystem Exported.locks programs returns).OutsideStep s s' ∧
            ∃ s'', (bareSystem Exported.locks programs returns).next i s' s'' :=
  (flowSystem_deadlockFree_iff (fun i x hx ↦ tracerFlow_single (havailable i x hx)) hst).trans
    (System.locked_deadlockFree_iff bareSystem_wellFounded hfree)

section Waiting

/-- One thread makes its `first` step, another waits for it in `hipStreamSynchronize`. -/
def waiting (first : Option Exported) : Bool → List (Option Exported)
  | true => [first]
  | false => [some (.routed (.hipStreamSynchronize 1))]

def afterFirst : Returns Bool := fun s i ↦ i = true ∨ 1 ≤ s true

variable (first : Option Exported)

theorem waiting_next {s : Bool → ℕ} {i : Bool} (hs : s i = 0) (hr : afterFirst s i) :
    (bareSystem Exported.locks (waiting first) afterFirst).next i s
      (Function.update s i (s i + 1)) := by
  refine ⟨?_, hr, rfl⟩
  cases i <;> simp [waiting, hs]

theorem waiting_unfinished {s : Bool → ℕ} {i : Bool}
    (hi : (bareSystem Exported.locks (waiting first) afterFirst).place s i ≠ .finished) :
    s i = 0 := by
  by_contra hs
  refine hi ?_
  have hle : (waiting first i).length ≤ s i := by
    cases i <;> simpa [waiting] using Nat.one_le_iff_ne_zero.mpr hs
  simp [bareSystem, List.getElem?_eq_none hle]

theorem waiting_deadlockFree :
    (bareSystem Exported.locks (waiting first) afterFirst).DeadlockFree fun _ ↦ 0 := by
  rintro s - ⟨⟨i, hi⟩, hstuck⟩
  have hzero := waiting_unfinished first hi
  by_cases hfirst : s true = 0
  · exact hstuck _ ⟨true, waiting_next first hfirst (.inl rfl)⟩
  · exact hstuck _ ⟨i, waiting_next first hzero (.inr (Nat.one_le_iff_ne_zero.mpr hfirst))⟩

theorem tracer_deadlock_free_hostStep :
    (flowSystem (tracerFlow (fun _ ↦ true) fun _ ↦ true) (waiting none) afterFirst).DeadlockFree
      (.initial (.initial {} true false)) := by
  have havailable :
      ∀ i x, some x ∈ waiting none i → x.available (fun _ ↦ true) (fun _ ↦ true) = true := by
    intro i x _
    cases x <;> rfl
  have hready : Interceptor.tracer.Ready (Tracer.initial {} true false) := rfl
  refine (tracer_deadlock_free_iff hready havailable (waiting_deadlockFree none)).mpr
    fun s _ i hi ↦ ?_
  have hzero := waiting_unfinished none (by rw [hi]; simp)
  by_cases hfirst : s true = 0
  · have hplace : (bareSystem Exported.locks (waiting none) afterFirst).place s true =
        .outside := by
      simp [bareSystem, waiting, hfirst]
    cases i with
    | true => exact absurd (hplace.symm.trans hi) (by simp)
    | false =>
      refine ⟨_, .single ⟨true, hplace, waiting_next none hfirst (.inl rfl)⟩, _,
        waiting_next none ?_ (.inr ?_)⟩
      · rw [Function.update_of_ne (by simp), hzero]
      · rw [Function.update_self]
        exact Nat.le_add_left 1 _
  · exact ⟨s, .refl, _, waiting_next none hzero (.inr (Nat.one_le_iff_ne_zero.mpr hfirst))⟩

/-- A thread that waits in `hipStreamSynchronize` for another thread's copy holds the lock that the
copy needs. -/
theorem synchronize_deadlocks :
    (bareSystem Exported.locks (waiting (some (.routed (.hipMemcpy 1 2 64 1))))
      afterFirst).DeadlockFree (fun _ ↦ 0) ∧
      ¬ (flowSystem (tracerFlow (fun _ ↦ true) fun _ ↦ true)
        (waiting (some (.routed (.hipMemcpy 1 2 64 1))))
        afterFirst).DeadlockFree (.initial (.initial {} true false)) := by
  have hready : Interceptor.tracer.Ready (Tracer.initial {} true false) := rfl
  refine ⟨waiting_deadlockFree _, fun hfree ↦ ?_⟩
  have hplace :
      ∀ i, (bareSystem Exported.locks (waiting (some (.routed (.hipMemcpy 1 2 64 1))))
        afterFirst).place
      (fun _ ↦ 0) i = .inside := by
    intro i
    cases i <;> rfl
  have havailable : ∀ i x, some x ∈ waiting (some (.routed (.hipMemcpy 1 2 64 1))) i →
      x.available (fun _ ↦ true) (fun _ ↦ true) = true := by
    intro i x _
    cases x <;> rfl
  have hlocked :=
    (flowSystem_deadlockFree_iff (fun i x hx ↦ tracerFlow_single (havailable i x hx)) hready).mp
      hfree
  refine hlocked (fun _ ↦ 0, some false) (.single ⟨false, .acquire (hplace false)⟩)
    ⟨⟨false, by rw [System.locked, hplace]; simp⟩, ?_⟩
  rintro x ⟨i, hi⟩
  cases hi with
  | call _ hnext =>
    obtain ⟨-, hreturns | hreturns, -⟩ := hnext
    · cases hreturns
    · simp at hreturns
  | outside hout _ =>
    rw [hplace] at hout
    cases hout

end Waiting

end HrxSystem.Hip
