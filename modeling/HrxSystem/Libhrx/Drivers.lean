import HrxSystem.Libhrx.Accounts
import HrxSystem.Libhrx.Runtime

namespace HrxSystem.Libhrx

open External Program Counting

variable {σ : Type} {W : σ → Multiset Res} {a b h : Multiset Res} {R : Standing σ}
  {p : Outside → Prop}

/-- What a helper that makes a driver and a device leaves with each result. -/
def bookedDevice (p : Outside → Prop) (W : σ → Multiset Res) (a b h : Multiset Res)
    (R : Standing σ) :
    Except HrxStatus (Obj × Obj) → Trace → σ → Prop
  | .error s => fun t x ↦ Erring p s ∧ Booked W a b h R t x
  | .ok (driver, device) => Booked W a b ({.halDevice device} + ({.driver driver} + h)) R

theorem booked_noDevice {e : Happened} (he : ok e = false) :
    Triple p (Booked W a b h R)
      (do return .error (← hrxStatusFromIree e.answer.status) : Hrx σ
        (Except HrxStatus (Obj × Obj)))
      (bookedDevice p W a b h R) :=
  (booked_failed he).bind fun _ ↦ .pure fun _ _ hA ↦ hA

theorem createSingleDeviceGroup_booked (device : Obj) :
    Triple p (Booked W a b h R) (createSingleDeviceGroup device)
      (fun r ↦ Booked W a b ((if r.1.isSome then 0 else {.group r.2}) + h) R) := by
  refine booked_try (r := fun e ↦ {Res.tracker e.pos}) (fun e he ↦ by simp only [acquired, he])
    (fun e he ↦ by simp only [released, he]) (fun e he ↦ ?_) fun tracker _ ↦ ?_
  · refine .pure fun t mem hA ↦ ?_
    have hs : e.answer.status.isSome = true := by simpa [Libhrx.ok] using he
    simpa only [hs, if_true, zero_add] using hA
  · have hgroup : ∀ e : Happened, e.call = .deviceGroupCreateFromDevice device tracker.pos →
        acquired e = if e.answer.status.isSome then 0 else {.group e.pos} := by
      intro e he
      cases hs : e.answer.status <;> simp [acquired, he, Libhrx.ok, hs]
    have hrel :
        ∀ e : Happened, e.call = .deviceGroupCreateFromDevice device tracker.pos → released e = 0 :=
      fun e he ↦ by simp only [released, he]
    refine .bind
      (booked_take (r := fun e : Happened ↦ if e.answer.status.isSome then 0 else {Res.group e.pos})
      hgroup hrel) fun s ↦ ?_
    refine .bind (Q :=
      fun _ ↦ Booked W a b ((if s.answer.status.isSome then 0 else {Res.group s.pos}) + h) R) ?_
      fun _ ↦ .pure fun _ _ hA ↦ hA
    exact booked_mono
      (booked_give (r := .tracker tracker.pos) fun e he ↦ by simp only [released, he]) (by abel)
      fun _ _ h ↦ h

theorem releaseLoaders_booked (loaders : Obj) (n : ℕ) :
    Triple p (Booked W a b ((Multiset.range n).map (.loader loaders) + h) R)
      (releaseLoaders loaders n)
      (fun _ ↦ Booked W a b h R) := by
  induction n generalizing h with
  | zero => exact .pure fun _ _ hA ↦ by simpa using hA
  | succ n ih =>
    refine .bind (booked_mono (h := _) (ih (h := {.loader loaders n} + h)) ?_ fun _ _ h ↦ h)
      fun _ ↦ ?_
    · rw [Multiset.range_succ, Multiset.map_cons, ← Multiset.singleton_add]
      abel
    · exact .bind (booked_give fun e he ↦ by simp only [released, he]) fun _ ↦
        .pure fun _ _ hA ↦ hA

theorem createDefaultDevice_booked (driver : Obj) (pool : Option Obj) :
    Triple p (Booked W a b ({.driver driver} + h) R) (createDefaultDevice driver pool)
      (bookedDevice p W a b h R) :=
  booked_try (r := fun e ↦ {Res.halDevice e.pos}) (fun e he ↦ by simp only [acquired, he])
    (fun e he ↦ by simp only [released, he])
    (fun _ he ↦ (booked_give (r := .driver driver) fun e he ↦ by simp only [released, he]).bind
      fun _ ↦ booked_noDevice he)
    fun e _ ↦ .pure (Q := bookedDevice p W a b h R) (a := .ok (driver, e.pos)) fun _ _ hA ↦ hA

theorem taskExecutorRelease_booked (executor : Obj) :
    Triple p (Booked W a b ({.executor executor} + h) R) (call (.taskExecutorRelease executor))
      (fun _ ↦ Booked W a b h R) :=
  booked_give fun e he ↦ by simp only [released, he]

theorem createTaskDriver_booked (executor : Obj) (pool : Option Obj) :
    Triple p (Booked W a b ({.executor executor} + h) R) (createTaskDriver executor pool)
      (bookedDevice p W a b h R) := by
  refine booked_try (r := fun e ↦ (Multiset.range e.answer.value).map (Res.loader e.pos))
    (fun e he ↦ by simp only [acquired, he]) (fun e he ↦ by simp only [released, he])
    (fun e he ↦ (taskExecutorRelease_booked executor).bind fun _ ↦ booked_noDevice he)
    fun loaders _ ↦ ?_
  refine booked_try (r := fun e ↦ {Res.allocator e.pos}) (fun e he ↦ by simp only [acquired, he])
    (fun e he ↦ by simp only [released, he]) (fun e he ↦ ?_) fun allocator _ ↦ ?_
  · exact (releaseLoaders_booked _ _).bind fun _ ↦
      (taskExecutorRelease_booked executor).bind fun _ ↦
      booked_noDevice he
  have hclean : ∀ (rest : Multiset Res) (m : Hrx σ (Except HrxStatus (Obj × Obj))),
      Triple p (Booked W a b (rest + h) R) m (bookedDevice p W a b h R) →
      Triple p (Booked W a b (rest + ({.allocator allocator.pos} +
          ((Multiset.range loaders.answer.value).map
            (.loader loaders.pos) + ({.executor executor} + h)))) R)
        (do
          let _ ← call (.taskExecutorRelease executor)
          releaseLoaders loaders.pos loaders.answer.value
          let _ ← call (.allocatorRelease allocator.pos)
          m) (bookedDevice p W a b h R) := by
    intro rest m hm
    refine .bind (booked_mono (taskExecutorRelease_booked (h := rest + ({.allocator allocator.pos} +
      ((Multiset.range loaders.answer.value).map (.loader loaders.pos) + h))) executor)
      (by abel) fun _ _ h ↦ h) fun _ ↦ ?_
    refine .bind
      (booked_mono (releaseLoaders_booked (h := rest + ({.allocator allocator.pos} + h)) _ _)
        (by abel)
      fun _ _ h ↦ h) fun _ ↦ ?_
    refine .bind (booked_mono (booked_give (r := .allocator allocator.pos) (h := rest + h)
      fun e he ↦ by simp only [released, he]) (by abel) fun _ _ h ↦ h) fun _ ↦ hm
  refine .bind (booked_take (r := fun e : Happened ↦ if ok e then {Res.driver e.pos} else 0)
    (fun e he ↦ by simp only [acquired, he]) fun e he ↦ by simp only [released, he]) fun driver ↦ ?_
  refine hclean _ _ ?_
  cases hd : ok driver with
  | false =>
    simp only [Bool.not_false, Bool.false_eq_true, if_true, if_false, zero_add]
    exact booked_noDevice hd
  | true =>
    simp only [Bool.not_true, Bool.false_eq_true, if_true, if_false]
    exact createDefaultDevice_booked driver.pos pool

theorem halDeviceRelease_booked (device : Obj) :
    Triple p (Booked W a b ({.halDevice device} + h) R) (call (.halDeviceRelease device))
      (fun _ ↦ Booked W a b h R) :=
  booked_give fun e he ↦ by simp only [released, he]

theorem driverRelease_booked (driver : Obj) :
    Triple p (Booked W a b ({.driver driver} + h) R) (call (.driverRelease driver))
      (fun _ ↦ Booked W a b h R) :=
  booked_give fun e he ↦ by simp only [released, he]

theorem createLocalTaskDevice_booked {W : Memory → Multiset Res} {R : Standing Memory}
    (groupCount : ℕ) :
    Triple p (Booked W a b h R) (createLocalTaskDevice groupCount) (bookedDevice p W a b h R) := by
  refine .bind
    (booked_take (r := fun e : Happened ↦ {Res.topology e.pos})
      (fun e he ↦ by simp only [acquired, he])
    fun e he ↦ by simp only [released, he]) fun topology ↦ ?_
  refine .bind (booked_take (r := fun e : Happened ↦ if ok e then {Res.executor e.pos} else 0)
    (fun e he ↦ by simp only [acquired, he]) fun e he ↦ by
      simp only [released, he]) fun executor ↦ ?_
  refine .bind (booked_mono (booked_give (r := .topology topology.pos)
    (h := (if ok executor then {Res.executor executor.pos} else 0) + h)
    fun e he ↦ by simp only [released, he]) (by abel) fun _ _ h ↦ h) fun _ ↦ ?_
  cases hx : ok executor with
  | false =>
    simp only [Bool.not_false, Bool.false_eq_true, if_true, if_false, zero_add]
    exact booked_noDevice hx
  | true =>
    simp only [Bool.not_true, Bool.false_eq_true, if_true, if_false]
    exact booked_state.bind fun mem ↦ booked_known fun _ ↦ createTaskDriver_booked executor.pos _

end HrxSystem.Libhrx
