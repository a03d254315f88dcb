import HrxSystem.Libhrx.Ledger
import Mathlib.Tactic.Abel

namespace HrxSystem.Libhrx

open External Program Counting

variable {σ α : Type}

/-- A condition on the trace and the state that further events do not disturb. -/
structure Standing (σ : Type) where
  holds : Trace → σ → Prop
  snoc : ∀ t e s, holds t s → holds (t ++ [e]) s

namespace Standing

def of (P : σ → Prop) : Standing σ := ⟨fun _ ↦ P, fun _ _ _ h ↦ h⟩

def at_ (R : Standing σ) (s : σ) : Standing σ where
  holds t x := x = s ∧ R.holds t x
  snoc _ _ _ h := ⟨h.1, R.snoc _ _ _ h.2⟩

end Standing

/-- What was acquired is released, in hand, or held by the state, which holds `W`. The account is
opened with `a` acquired and `b` released before. -/
def Entries (W : σ → Multiset Res) (a b inHand : Multiset Res) (t : Trace) (s : σ) : Prop :=
  allAcquired t + a = allReleased t + (inHand + W s) + b

def Booked (W : σ → Multiset Res) (a b inHand : Multiset Res) (R : Standing σ) (t : Trace) (s : σ) :
    Prop :=
  Entries W a b inHand t s ∧ R.holds t s

/-- Where the outside has room for a status, the status is an error. -/
def Erring (p : Outside → Prop) (s : HrxStatus) : Prop := (∀ o, p o → Roomy o) → s.isSome

section Booked

variable {W : σ → Multiset Res} {a b h h' : Multiset Res} {R S : Standing σ} {p : Outside → Prop}
  {c : Call}
variable {t : Trace} {s : σ} {e : Happened}

theorem Entries.idle (hb : Entries W a b h t s) (he : idle e.call = true) :
    Entries W a b h (t ++ [e]) s := by
  simp only [Entries, allAcquired_append, allReleased_append, allAcquired_single,
    allReleased_single, acquired_idle he, released_idle he, add_zero]
  exact hb

theorem Entries.acquire (hb : Entries W a b h t s) (he : released e = 0) :
    Entries W a b (acquired e + h) (t ++ [e]) s := by
  simp only [Entries, allAcquired_append, allReleased_append, allAcquired_single,
    allReleased_single, he, add_zero] at hb ⊢
  calc allAcquired t + acquired e + a = acquired e + (allAcquired t + a) := by abel
    _ = acquired e + (allReleased t + (h + W s) + b) := by rw [hb]
    _ = allReleased t + (acquired e + h + W s) + b := by abel

theorem Entries.release (hb : Entries W a b (released e + h) t s) (he : acquired e = 0) :
    Entries W a b h (t ++ [e]) s := by
  simp only [Entries, allAcquired_append, allReleased_append, allAcquired_single,
    allReleased_single, he, add_zero] at hb ⊢
  rw [hb]
  abel

theorem booked_confined {m : Hrx σ α} (hm : Aside (fun c ↦ Libhrx.idle c = true) m) :
    Triple p (Booked W a b h R) m (fun _ ↦ Booked W a b h R) :=
  Triple.of_confined (I := Booked W a b h R) hm fun t e s hA _ he ↦
    ⟨hA.1.idle he, R.snoc t e s hA.2⟩

theorem booked_idle (hc : Libhrx.idle c = true) :
    Triple p (Booked W a b h R) (call c) (fun _ ↦ Booked W a b h R) :=
  booked_confined (.call hc)

theorem booked_status (s : IreeStatus) :
    Triple p (Booked W a b h R) (hrxStatusFromIree s) (fun _ ↦ Booked W a b h R) :=
  booked_confined (hrxStatusFromIree_calls (fun _ ↦ rfl) s)

theorem booked_fromError {s : IreeStatus} (hs : s.isSome) :
    Triple p (Booked W a b h R) (hrxStatusFromIree s)
      (fun s t x ↦ Erring p s ∧ Booked W a b h R t x) := by
  intro o t x ho hA
  refine ⟨fun hroomy ↦ ?_, booked_status s o t x ho hA⟩
  obtain ⟨e, he⟩ : ∃ e : Happened, e.answer.status = s :=
    ⟨⟨0, .vmInstanceCreate, { status := s }⟩, rfl⟩
  rw [← he, run_hrxStatusFromIree (hroomy o ho) (by simp [Libhrx.ok, he, hs])]
  rfl

theorem booked_failed {e : Happened} (he : Libhrx.ok e = false) :
    Triple p (Booked W a b h R) (hrxStatusFromIree e.answer.status)
      (fun s t x ↦ Erring p s ∧ Booked W a b h R t x) :=
  booked_fromError (by simpa [Libhrx.ok] using he)

theorem booked_error {code : HrxStatusCode} (hc : code ≠ .ok) (message : String) :
    Triple p (Booked W a b h R) (hrxError code message)
      (fun s t x ↦ Erring p s ∧ Booked W a b h R t x) := by
  intro o t x ho hA
  refine ⟨fun hroomy ↦ ?_, booked_confined (hrxError_calls (fun _ ↦ rfl) code message) o t x ho hA⟩
  rw [run_hrxError (hroomy o ho) hc]
  rfl

/-- A call that hands over `r` whatever it answers. -/
theorem booked_take {r : Happened → Multiset Res}
    (hacq : ∀ e : Happened, e.call = c → acquired e = r e)
    (hrel : ∀ e : Happened, e.call = c → released e = 0) :
    Triple p (Booked W a b h R) (call c) (fun e ↦ Booked W a b (r e + h) R) := by
  refine .call fun e t s hA _ hcall ↦ ?_
  rw [← hacq e hcall]
  exact ⟨hA.1.acquire (hrel e hcall), R.snoc t e s hA.2⟩

theorem booked_try {r : Happened → Multiset Res} {m m' : Happened → Hrx σ α}
    {Q : α → Trace → σ → Prop}
    (hacq : ∀ e : Happened, e.call = c → acquired e = if Libhrx.ok e then r e else 0)
    (hrel : ∀ e : Happened, e.call = c → released e = 0)
    (hfail : ∀ e, Libhrx.ok e = false → Triple p (Booked W a b h R) (m e) Q)
    (hok : ∀ e, Libhrx.ok e = true → Triple p (Booked W a b (r e + h) R) (m' e) Q) :
    Triple p (Booked W a b h R)
      (call c >>= fun e ↦ if (!Libhrx.ok e) = true then m e else m' e) Q := by
  refine .bind (booked_take (r := fun e ↦ if Libhrx.ok e then r e else 0) hacq hrel) fun e ↦ ?_
  cases he : Libhrx.ok e with
  | false =>
    simpa only [Bool.not_false, Bool.false_eq_true, if_true, if_false, zero_add] using hfail e he
  | true => simpa only [Bool.not_true, Bool.false_eq_true, if_true, if_false] using hok e he

theorem booked_release {r : Multiset Res} (hrel : ∀ e : Happened, e.call = c → released e = r)
    (hacq : ∀ e : Happened, e.call = c → acquired e = 0) :
    Triple p (Booked W a b (r + h) R) (call c) (fun _ ↦ Booked W a b h R) := by
  refine .call fun e t s hA _ hcall ↦ ⟨?_, R.snoc t e s hA.2⟩
  have hb := hA.1
  rw [← hrel e hcall] at hb
  exact hb.release (hacq e hcall)

theorem booked_give {r : Res} (hrel : ∀ e : Happened, e.call = c → released e = {r}) :
    Triple p (Booked W a b ({r} + h) R) (call c) (fun _ ↦ Booked W a b h R) :=
  booked_release hrel fun e he ↦ acquired_releasing (hrel e he)

theorem booked_ahead {r : Multiset Res} (hrel : ∀ e : Happened, e.call = c → released e = r)
    (hacq : ∀ e : Happened, e.call = c → acquired e = 0) :
    Triple p (Booked W a b h R) (call c) (fun _ ↦ Booked W (r + a) b h R) := by
  refine .call fun e t s hA _ hcall ↦ ⟨?_, R.snoc t e s hA.2⟩
  have hb := hA.1
  simp only [Entries, allAcquired_append, allReleased_append, allAcquired_single,
    allReleased_single, hrel e hcall, hacq e hcall, add_zero] at hb ⊢
  calc allAcquired t + (r + a) = r + (allAcquired t + a) := by abel
    _ = r + (allReleased t + (h + W s) + b) := by rw [hb]
    _ = allReleased t + r + (h + W s) + b := by abel

/-- The state drops the name of a reference released before. -/
theorem booked_settle {r : Multiset Res} {f : σ → σ}
    (hf : ∀ t s, R.holds t s → S.holds t (f s) ∧ h + W s = r + (h' + W (f s))) :
    Triple p (Booked W (r + a) b h R) (update f) (fun _ ↦ Booked W a b h' S) := by
  refine .update fun t s hA ↦ ?_
  obtain ⟨hR, hh⟩ := hf t s hA.2
  refine ⟨?_, hR⟩
  have hb := hA.1
  rw [Entries, hh] at hb
  refine add_left_cancel (a := r) ?_
  calc r + (allAcquired t + a) = allAcquired t + (r + a) := by abel
    _ = allReleased t + (r + (h' + W (f s))) + b := hb
    _ = r + (allReleased t + (h' + W (f s)) + b) := by abel

theorem booked_update {f : σ → σ}
    (hf : ∀ t s, R.holds t s → S.holds t (f s) ∧ h + W s = h' + W (f s)) :
    Triple p (Booked W a b h R) (update f) (fun _ ↦ Booked W a b h' S) := by
  refine .update fun t s hA ↦ ?_
  obtain ⟨hR, hh⟩ := hf t s hA.2
  have hb := hA.1
  rw [Entries, hh] at hb
  exact ⟨hb, hR⟩

theorem booked_state : Triple p (Booked W a b h R) state (fun s ↦ Booked W a b h (R.at_ s)) :=
  .state fun _ _ hA ↦ ⟨hA.1, rfl, hA.2⟩

theorem booked_mono {m : Hrx σ α} {Q : α → Trace → σ → Prop} (hm : Triple p (Booked W a b h' S) m Q)
    (hh : h = h') (hR : ∀ t s, R.holds t s → S.holds t s) : Triple p (Booked W a b h R) m Q :=
  hm.mono (fun _ _ hA ↦ ⟨hh ▸ hA.1, hR _ _ hA.2⟩) fun _ _ _ hQ ↦ hQ

theorem booked_read {s : σ} {m : Hrx σ α} {Q : α → Trace → σ → Prop}
    (hm : (∃ t, R.holds t s) → Triple p (Booked W a b h (R.at_ s)) m Q) :
    Triple p (Booked W a b h (R.at_ s)) m Q := by
  rintro o t x ho ⟨hb, rfl, hR⟩
  exact hm ⟨t, hR⟩ o t x ho ⟨hb, rfl, hR⟩

theorem booked_known {s : σ} {m : Hrx σ α} {Q : α → Trace → σ → Prop}
    (hm : (∃ t, R.holds t s) → Triple p (Booked W a b h R) m Q) :
    Triple p (Booked W a b h (R.at_ s)) m Q :=
  booked_read fun hR ↦ booked_mono (hm hR) rfl fun _ _ h ↦ h.2

end Booked

end HrxSystem.Libhrx
