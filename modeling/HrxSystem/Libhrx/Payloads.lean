import HrxSystem.Libhrx.Api

namespace HrxSystem.Libhrx

open External Program Counting

def Granted (es : Trace) : Prop := ∀ e ∈ es, e.call = .malloc 16 → ok e = true

instance (es : Trace) : Decidable (Granted es) := inferInstanceAs (Decidable (∀ e ∈ es, _))

section Honest

variable {σ α β : Type} {P : α → Prop} {Q : β → Prop}

abbrev Quiet (m : Hrx σ α) : Prop := Confined (fun _ ↦ ()) (fun c ↦ c ≠ .malloc 16) m

/-- A program whose result satisfies `P` exactly where it got every status payload it asked for. -/
def Honest (P : α → Prop) (m : Hrx σ α) : Prop :=
  ∀ o n s, Granted (m.run o n s).events ↔ P (m.run o n s).val

theorem granted_append {es fs : Trace} : Granted (es ++ fs) ↔ Granted es ∧ Granted fs := by
  simp only [Granted, List.mem_append, or_imp, forall_and]

theorem Quiet.granted {m : Hrx σ α} (hm : Quiet m) (o : Outside) (n : ℕ) (s : σ) :
    Granted (m.run o n s).events :=
  fun e he hcall ↦ absurd hcall ((hm o n s).2 e he)

theorem Honest.quiet {m : Hrx σ α} (hm : Quiet m) (hP : Yields P m) : Honest P m :=
  fun o n s ↦ iff_of_true (hm.granted o n s) (hP o n s)

theorem Honest.after {m : Hrx σ β} {k : β → Hrx σ α} (hm : Quiet m) (hk : ∀ b, Honest P (k b)) :
    Honest P (m >>= k) := by
  intro o n s
  rw [run_bind, Outcome.after_events, granted_append, and_iff_right (hm.granted o n s)]
  exact hk _ o _ _

theorem Honest.after_val {m : Hrx σ β} {k : β → Hrx σ α} (hm : Quiet m) (hval : Yields Q m)
    (hk : ∀ b, Q b → Honest P (k b)) : Honest P (m >>= k) := by
  intro o n s
  rw [run_bind, Outcome.after_events, granted_append, and_iff_right (hm.granted o n s)]
  exact hk _ (hval o n s) o _ _

theorem Honest.bind {m : Hrx σ β} {k : β → Hrx σ α} (hm : Honest Q m) (hk : ∀ b, Quiet (k b))
    (hP : ∀ b, Yields (fun a ↦ P a ↔ Q b) (k b)) : Honest P (m >>= k) := by
  intro o n s
  rw [run_bind, Outcome.after_events, granted_append, and_iff_left ((hk _).granted o _ _), hm o n s]
  exact (hP _ o _ _).symm

theorem Honest.ite {c : Prop} [Decidable c] {m m' : Hrx σ α} (hm : c → Honest P m)
    (hm' : ¬ c → Honest P m') :
    Honest P (if c then m else m') := by
  split
  · exact hm ‹_›
  · exact hm' ‹_›

theorem granted_payload {o : Outside} {n : ℕ} {s : HrxStatusS} :
    Granted [payload o n] ↔ (made o n s).isSome = true := by
  have hone : Granted [payload o n] ↔ ok (payload o n) = true :=
    ⟨fun h ↦ h _ (List.mem_singleton_self _) rfl, fun h e he _ ↦ List.mem_singleton.mp he ▸ h⟩
  rw [hone, made]
  cases ok (payload o n) <;> simp

theorem honest_error {code : HrxStatusCode} (hcode : code ≠ .ok) (message : String) :
    Honest (fun s ↦ s.isSome = true) (hrxError code message : Hrx σ HrxStatus) := by
  intro o n s
  rw [run_hrxError_made hcode]
  exact granted_payload

theorem honest_status {s : IreeStatus} (hs : s.isSome = true) :
    Honest (fun s ↦ s.isSome = true) (hrxStatusFromIree s : Hrx σ HrxStatus) := by
  intro o n x
  obtain ⟨e, rfl⟩ : ∃ e : Happened, e.answer.status = s :=
    ⟨⟨0, .vmInstanceCreate, { status := s }⟩, rfl⟩
  have hfailed : ok e = false := by simpa [ok] using hs
  rw [run_hrxStatusFromIree_made, converted, payloads, hfailed]
  exact granted_payload

theorem isSome_of_failed {e : Happened} (he : (!ok e) = true) : e.answer.status.isSome = true := by
  simpa [ok] using he

end Honest

/-- A call told an error, or wrote a handle. -/
def Returned.Told (r : Returned) : Prop := r.status.isSome = true ∨ r.written.refs ≠ 0

theorem told_nothing (s : HrxStatus) : (Returned.mk s .nothing).Told ↔ s.isSome = true :=
  or_iff_left fun hrefs ↦ hrefs rfl

section Calls

theorem Honest.failed {m : Hrx Memory HrxStatus} (hm : Honest (fun s ↦ s.isSome = true) m) :
    Honest Returned.Told (do return ⟨← m, .nothing⟩) :=
  hm.bind (fun _ ↦ .pure _) fun s _ _ _ ↦ told_nothing s

theorem quiet_retain {T : Type} (k : Kind T) (a : ℕ) : Quiet (handleRetain k a) :=
  .update fun _ ↦ rfl

theorem quiet_intoHandle {T : Type} (k : Kind T) (obj : T) : Quiet (intoHandle k obj) :=
  .bind (.call (by simp)) fun _ ↦ .bind .state fun _ ↦ .bind (.update fun _ ↦ rfl) fun _ ↦ .pure _

theorem honest_made {T : Type} {k : Kind T} {obj : T} {out : ℕ → Written}
    (hout : ∀ a, (⟨hrxOkStatus, out a⟩ : Returned).Told) :
    Honest Returned.Told (do let a ← intoHandle k obj; return ⟨hrxOkStatus, out a⟩) :=
  .quiet ((quiet_intoHandle k obj).bind fun _ ↦ .pure _) fun _ _ _ ↦ hout _

theorem wrapBuffer_honest (d : DevicePtr) (s : Happened) (memType size : ℕ) :
    Honest Returned.Told (wrapBuffer d s memType size) := by
  refine .ite (fun hs ↦ (honest_status (isSome_of_failed hs)).failed) fun _ ↦
    .after (quiet_retain _ _) fun _ ↦ ?_
  exact honest_made fun a ↦ .inr (Multiset.singleton_ne_zero _)

theorem semaphoreCreate_honest (d : DevicePtr) (initialValue : ℕ) :
    Honest (fun r ↦ r.1.isSome = true ∨ r.2.isSome = true)
      (hrxSemaphoreCreate (some d) initialValue true) := by
  refine .after (.call (by simp)) fun e ↦ .ite (fun he ↦ ?_) fun _ ↦ ?_
  · exact (honest_status (isSome_of_failed he)).bind (fun _ ↦ .pure _) fun s _ _ _ ↦
      or_iff_left (by simp)
  · refine .quiet ((quiet_retain _ _).bind fun _ ↦ (quiet_intoHandle _ _).bind fun _ ↦ .pure _)
      fun _ _ _ ↦ .inr ?_
    rfl

theorem executableLoadData_honest (d : DevicePtr) (data size : ℕ) (format : Option FormatText) :
    Honest Returned.Told (hrxExecutableLoadData (some d) (some data) size format true) := by
  refine .ite (fun _ ↦ (honest_error (by simp) _).failed) fun _ ↦ .after (.call (by simp))
    fun cache ↦ ?_
  refine .ite (fun hs ↦ (honest_status (isSome_of_failed hs)).failed) fun _ ↦ ?_
  cases format.filter fun format ↦ !format.empty with
  | none => exact .after (.call (by simp)) fun _ ↦ (honest_error (by simp) _).failed
  | some format =>
    refine .after (.call (by simp)) fun exe ↦ .ite (fun hs ↦ ?_) fun _ ↦
      .after (quiet_retain _ _) fun _ ↦ ?_
    · exact .after (.call (by simp)) fun _ ↦ (honest_status (isSome_of_failed hs)).failed
    · exact honest_made fun a ↦ .inr (Multiset.singleton_ne_zero _)

theorem executableLoadFile_honest (d : DevicePtr) (path : ℕ) (format : Option FormatText) :
    Honest Returned.Told (hrxExecutableLoadFile (some d) (some path) format true) := by
  have hclose : ∀ file code message, code ≠ HrxStatusCode.ok →
      Honest Returned.Told (closeAndFail file code message) :=
    fun _ _ _ hcode ↦ .after (.call (by simp)) fun _ ↦ (honest_error hcode _).failed
  refine .after (.call (by simp)) fun file ↦
    .ite (fun _ ↦ (honest_error (by simp) _).failed) fun _ ↦ ?_
  refine .after (.call (by simp)) fun _ ↦ .ite (fun _ ↦ hclose _ _ _ (by simp)) fun _ ↦ ?_
  refine .after (.call (by simp)) fun _ ↦ .ite (fun _ ↦ hclose _ _ _ (by simp)) fun _ ↦ ?_
  refine .after (.call (by simp)) fun _ ↦ .ite (fun _ ↦ hclose _ _ _ (by simp)) fun _ ↦ ?_
  refine .after (.call (by simp)) fun data ↦ .ite (fun hs ↦ ?_) fun _ ↦ ?_
  · refine (honest_status (isSome_of_failed hs)).bind
      (fun _ ↦ .ite (.pure _) (.bind (.call (by simp)) fun _ ↦ .pure _)) ?_
    intro s o n mem
    cases s with
    | none => exact iff_of_false (fun h ↦ h.elim (by simp [hrxStatusIsOk]) fun h ↦ h rfl) (by simp)
    | some s => exact told_nothing (some s)
  · refine .after (.call (by simp)) fun r ↦ .after (.call (by simp)) fun _ ↦
      .ite (fun _ ↦ ?_) fun _ ↦ ?_
    · exact .after (.call (by simp)) fun _ ↦ (honest_error (by simp) _).failed
    · exact (executableLoadData_honest d _ _ format).bind
        (fun _ ↦ .bind (.call (by simp)) fun _ ↦ .pure _) fun _ _ _ _ ↦ .rfl

theorem moduleLoadVmfb_honest (d : DevicePtr) (data size : ℕ) :
    Honest Returned.Told (hrxModuleLoadVmfb (some d) (some data) size true) := by
  refine .ite (fun _ ↦ (honest_error (by simp) _).failed) fun _ ↦ .after .state fun mem ↦ ?_
  cases mem.globals.shared.usableInstance with
  | none => exact (honest_error (by simp) _).failed
  | some vmInstance =>
    refine .after (.call (by simp)) fun bytecode ↦
      .ite (fun hs ↦ (honest_status (isSome_of_failed hs)).failed) fun _ ↦ ?_
    refine .after (.call (by simp)) fun _ ↦ .after (.call (by simp)) fun hal ↦
      .after (.call (by simp)) fun _ ↦ ?_
    refine .ite (fun hs ↦ ?_) fun _ ↦ .after (.call (by simp)) fun context ↦
      .ite (fun hs ↦ ?_) fun _ ↦ ?_
    · exact (honest_status (isSome_of_failed hs)).bind
        (fun _ ↦ .bind (.call (by simp)) fun _ ↦ .pure _)
        fun s _ _ _ ↦ told_nothing s
    · exact (honest_status (isSome_of_failed hs)).bind
        (fun _ ↦ .bind (.call (by simp)) fun _ ↦ .bind (.call (by simp)) fun _ ↦ .pure _)
        fun s _ _ _ ↦ told_nothing s
    · refine .after (quiet_retain _ _) fun _ ↦ ?_
      exact honest_made fun a ↦ .inr (Multiset.singleton_ne_zero _)

theorem lookupFunction_honest (m : ModulePtr) (name : ℕ) :
    Honest Returned.Told (hrxModuleLookupFunction (some m) (some name) true) := by
  refine .after (.call (by simp)) fun f ↦
    .ite (fun hs ↦ (honest_status (isSome_of_failed hs)).failed) fun _ ↦ ?_
  refine .after (quiet_retain _ _) fun _ ↦ ?_
  exact honest_made fun a ↦ .inr (Multiset.singleton_ne_zero _)

section Allocate

open HrxStreamS

def ToldBuffer (r : HrxStatus × Option (Obj × PoolPtr)) : Prop :=
  r.1.isSome = true ∨ r.2.isSome = true

theorem exactPoolCreate_yields (shared : SharedState) (allocator : Obj) (params : BufferParams) :
    Yields (fun r ↦ r.2 = none → r.1.isSome = true)
      (hrxIreeExactPoolCreate shared allocator params : Hrx HrxStreamS _) := by
  unfold hrxIreeExactPoolCreate
  split
  · exact .pure fun _ ↦ rfl
  · refine .bind fun g ↦ .ite (fun hg ↦ .pure fun _ ↦ isSome_of_failed hg) fun _ ↦ .bind fun m ↦ ?_
    refine .ite (fun hm ↦ .pure fun _ ↦ isSome_of_failed hm) fun _ ↦ .bind fun _ ↦ .bind fun c ↦ ?_
    refine .ite (fun hc ↦ .bind fun _ ↦ .bind fun _ ↦ .pure fun _ ↦ isSome_of_failed hc) fun _ ↦
      .pure fun h ↦ ?_
    cases h

theorem queueAlloca_honest (shared : SharedState) (params : BufferParams) (size : ℕ) :
    Honest ToldBuffer (queueAlloca shared params size) := by
  have habandon : ∀ {b q s}, s.isSome = true → Honest ToldBuffer (abandonAlloca b q s) := by
    refine fun hs ↦ .after (.call (by simp)) fun _ ↦
      .after (halPoolRelease_calls ?_ ?_ ?_ ?_ _) fun _ ↦
      (honest_status hs).bind (fun _ ↦ .pure _) fun s _ _ _ ↦ or_iff_left (by simp)
    all_goals exact fun _ ↦ by simp
  refine .after .state fun st ↦ .after_val (Q := fun pool ↦ pool.2 = none → pool.1.isSome = true)
    (hrxIreeExactPoolCreate_calls ?_ ?_ ?_ ?_ ?_ ?_ shared _ _) (exactPoolCreate_yields shared _ _)
    fun pool hpool ↦ ?_
  on_goal 7 =>
    cases hq : pool.2 with
    | none => exact habandon (hpool hq)
    | some q =>
      refine .after (.call (by simp)) fun a ↦ .ite (fun hs ↦ habandon (isSome_of_failed hs))
        fun _ ↦ ?_
      refine .after (.call (by simp)) fun w ↦ .ite (fun hs ↦ habandon (isSome_of_failed hs))
        fun _ ↦ ?_
      exact .quiet (.bind (.update fun _ ↦ rfl) fun _ ↦ .pure _) fun _ _ _ ↦ .inr rfl
  all_goals exact fun _ ↦ by simp

end Allocate

end Calls

end HrxSystem.Libhrx
