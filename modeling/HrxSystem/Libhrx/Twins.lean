import HrxSystem.Libhrx.Tally

namespace HrxSystem.Libhrx

open External Program Counting HrxStreamS

/-- A call without the names of command buffers and pools, which depend on when they were
created. -/
def anonymous : Call → Call
  | .commandBufferBegin _ => .commandBufferBegin none
  | .commandBufferRecord _ c => .commandBufferRecord none c
  | .commandBufferEnd _ => .commandBufferEnd none
  | .commandBufferRelease _ => .commandBufferRelease none
  | .queueExecute d f w g _ => .queueExecute d f w g none
  | .queueAlloca d w g _ params size => .queueAlloca d w g 0 params size
  | c => c

/-- How the outside answers during one call of the library. -/
abbrev Behaviour := Call → Answer

def behave (b : Behaviour) : Outside := fun _ c ↦ b (anonymous c)

/-- The status payload can be allocated and, if `loose`, command buffers can be opened. -/
def Fair (loose : Prop) (b : Behaviour) : Prop :=
  (b (.malloc 16)).status = none ∧
    (loose → (∀ d k f, (b (.commandBufferCreate d k f)).status = none) ∧
    (b (.commandBufferBegin none)).status = none)

def Behaves (loose : Prop) (o : Outside) : Prop := ∃ b, o = behave b ∧ Fair loose b

variable {loose : Prop} {o : Outside} {n n' : ℕ} {p : Tally} {t t' es es' : Trace}
variable {st st' : HrxStreamS}

theorem Behaves.roomy (h : Behaves loose o) : Roomy o := by
  obtain ⟨b, rfl, hb, -⟩ := h
  exact fun n ↦ hb

theorem Behaves.answer (h : Behaves loose o) {c c' : Call} (hc : anonymous c' = anonymous c)
    (n n' : ℕ) :
    (happens o n' c').answer = (happens o n c).answer := by
  obtain ⟨b, rfl, -⟩ := h
  exact congrArg b hc

theorem Behaves.ok_eq (h : Behaves loose o) {c c' : Call} {x : Bool} (hx : ok (happens o n c) = x)
    (hc : anonymous c' = anonymous c) : ok (happens o n' c') = x := by
  rw [ok, h.answer hc n n']
  exact hx

def renamed (st : HrxStreamS) (cb : Option Obj) : HrxStreamS := { st with pendingCb := cb }

@[simp] theorem renamed_pendingCb (st : HrxStreamS) (cb : Option Obj) :
    (renamed st cb).pendingCb = cb := rfl

/-- Two runs of one stream that agree on all but the name of the command buffer.
If `loose`, the second may not have opened the empty one that the first has. -/
structure Twin (loose : Prop) (p : Tally) (t : Trace) (st : HrxStreamS) (t' : Trace)
    (st' : HrxStreamS) :
    Prop where
  same : tally p t' = tally p t
  rest : ∃ cb', st' = renamed st cb'
  opened : st'.pendingCb.isSome = st.pendingCb.isSome ∨
    loose ∧ st'.pendingCb = none ∧ (tally p t).2 = [] ∧ st.hasPendingWork = false

theorem Twin.step (h : Twin loose p t st t' st') (st₁ : HrxStreamS) (cb' : Option Obj)
    (hes : ∀ q, tally q es' = tally q es)
    (hopened : cb'.isSome = st₁.pendingCb.isSome ∨
      loose ∧ cb' = none ∧ (tally p (t ++ es)).2 = [] ∧ st₁.hasPendingWork = false) :
    Twin loose p (t ++ es) st₁ (t' ++ es') (renamed st₁ cb') := by
  refine ⟨?_, ⟨cb', rfl⟩, hopened⟩
  rw [tally_append, tally_append, h.same, hes]

theorem Twin.aside (h : Twin loose p t st t' st') (hes : ∀ q, tally q es = q)
    (hes' : ∀ q, tally q es' = q) : Twin loose p (t ++ es) st (t' ++ es') st' := by
  obtain ⟨cb', rfl⟩ := h.rest
  refine h.step st cb' (fun q ↦ by rw [hes, hes']) ?_
  rw [tally_append, hes]
  exact h.opened

theorem twin_of_aside {α β : Type} {m : Hrx HrxStreamS α} {m' : Hrx HrxStreamS β}
    (hm : Aside (fun c ↦ quiet c = true) m) (hm' : Aside (fun c ↦ quiet c = true) m') :
    Couples (Behaves loose) (Twin loose p) (fun _ _ ↦ True) m m' := by
  intro o n n' t st t' st' _ h
  obtain ⟨hs, he⟩ := hm o n st
  obtain ⟨hs', he'⟩ := hm' o n' st'
  rw [show (m.run o n st).state = st from hs, show (m'.run o n' st').state = st' from hs']
  exact ⟨trivial, h.aside (tally_of_quiet he) (tally_of_quiet he')⟩

def BothOk (s s' : HrxStatus) : Prop := s' = none ↔ s = none

/-- While there is work, both runs have a command buffer. -/
theorem Twin.both {cb : Obj} {cb' : Option Obj} (h : Twin loose p t st t' (renamed st cb'))
    (hcb : st.pendingCb = some cb) (hw : st.hasPendingWork = true) : ∃ c, cb' = some c := by
  obtain hopened | ⟨-, -, -, hidle⟩ := h.opened
  · exact Option.isSome_iff_exists.mp (by simpa [hcb] using hopened)
  · rw [hw] at hidle
    cases hidle

theorem Twin.neither {cb' : Option Obj} (h : Twin loose p t st t' (renamed st cb'))
    (hcb : st.pendingCb = none) : cb' = none := by
  obtain hopened | ⟨-, hnone, -⟩ := h.opened
  · simpa [hcb] using hopened
  · exact hnone

theorem flushInner_twin :
    Couples (Behaves loose) (Twin loose p) BothOk flushInner flushInner := by
  intro o n n' t st t' st' ho h
  obtain ⟨cb', rfl⟩ := h.rest
  by_cases hi : st.hasPendingWork = false ∨ st.pendingCb = none
  · have hi' : (renamed st cb').hasPendingWork = false ∨ (renamed st cb').pendingCb = none :=
      hi.imp id h.neither
    rw [flushInner_idle hi, flushInner_idle hi']
    exact ⟨Iff.rfl, h.aside (fun _ ↦ rfl) (fun _ ↦ rfl)⟩
  obtain ⟨hw, hne⟩ := not_or.mp hi
  obtain ⟨cb, hcb⟩ := Option.ne_none_iff_exists'.mp hne
  rw [Bool.not_eq_false] at hw
  obtain ⟨cb', rfl⟩ := h.both hcb hw
  have hw' : (renamed st (some cb')).hasPendingWork = true := hw
  cases hx : ok (happens o n (.commandBufferEnd (some cb))) with
  | false =>
    rw [flushInner_notEnded ho.roomy hw hcb hx, flushInner_notEnded ho.roomy hw' rfl
      (ho.ok_eq hx rfl)]
    exact ⟨by simp [BothOk], h.aside (fun q ↦ by simp [tally, tallyStep, payload])
      fun q ↦ by simp [tally, tallyStep, payload]⟩
  | true =>
    cases hy : ok (happens o (n + 1) (executeCall st cb)) with
    | false =>
      have hy' : ok (happens o (n' + 1) (executeCall (renamed st (some cb')) cb')) = false :=
        ho.ok_eq hy rfl
      rw [flushInner_rejected ho.roomy hw hcb hx hy,
        flushInner_rejected ho.roomy hw' rfl (ho.ok_eq hx rfl) hy']
      simp only [executeCall] at hy hy' ⊢
      exact ⟨by simp [BothOk], h.aside (fun q ↦ by simp [tally, tallyStep, payload, hy])
        fun q ↦ by simp [tally, tallyStep, payload, hy']⟩
    | true =>
      have hy' : ok (happens o (n' + 1) (executeCall (renamed st (some cb')) cb')) = true :=
        ho.ok_eq hy rfl
      rw [flushInner_executed hw hcb hx hy, flushInner_executed hw' rfl (ho.ok_eq hx rfl) hy']
      simp only [executeCall] at hy hy' ⊢
      refine ⟨Iff.rfl, h.step (flushed st) none (fun q ↦ ?_) (.inl rfl)⟩
      simp [tally, tallyStep, hy, hy']

def BothOpen (st st' : HrxStreamS) : Prop :=
  ∃ cb cb', st.pendingCb = some cb ∧ st' = renamed st (some cb')

/-- `begin_cb` closes the gap between the runs, for the second can open a command buffer too. -/
theorem beginCb_twin (ho : Behaves loose o) (h : Twin loose p t st t' st') (n n' : ℕ) :
    BothOk (beginCb.run o n st).val (beginCb.run o n' st').val ∧
      Twin loose p (t ++ (beginCb.run o n st).events) (beginCb.run o n st).state
        (t' ++ (beginCb.run o n' st').events) (beginCb.run o n' st').state ∧
      ((beginCb.run o n st).val = none →
        BothOpen (beginCb.run o n st).state (beginCb.run o n' st').state) := by
  obtain ⟨cb', rfl⟩ := h.rest
  have hopen : ∀ q n, tally q [happens o n (createCall st),
      happens o (n + 1) (.commandBufferBegin (some n))] = q := fun q n ↦ by
    simp [tally, tallyStep, createCall]
  cases hcb : st.pendingCb with
  | some cb =>
    rw [beginCb_installed hcb]
    obtain hopened | ⟨hloose, hnone, hempty, hidle⟩ := h.opened
    · obtain ⟨cb', rfl⟩ : ∃ c, cb' = some c :=
        Option.isSome_iff_exists.mp (by simpa [hcb] using hopened)
      have hcb' : (renamed st (some cb')).pendingCb = some cb' := rfl
      rw [beginCb_installed hcb']
      exact ⟨Iff.rfl, h.aside (fun _ ↦ rfl) (fun _ ↦ rfl), fun _ ↦ ⟨cb, cb', hcb, rfl⟩⟩
    · have hx : ok (happens o n' (createCall (renamed st cb'))) = true := by
        obtain ⟨b, rfl, -, hb⟩ := ho
        simp [ok, happens, behave, createCall, anonymous, (hb hloose).1]
      have hy : ok (happens o (n' + 1) (.commandBufferBegin (some n'))) = true := by
        obtain ⟨b, rfl, -, hb⟩ := ho
        simp [ok, happens, behave, anonymous, (hb hloose).2]
      rw [beginCb_opened hnone hx hy]
      refine ⟨Iff.rfl, ?_, fun _ ↦ ⟨cb, n', hcb, rfl⟩⟩
      exact h.step st (some n') (fun q ↦ hopen q n') (.inl (by simp [hcb]))
  | none =>
    obtain rfl := h.neither hcb
    have hcb' : (renamed st none).pendingCb = none := rfl
    cases hx : ok (happens o n (createCall st)) with
    | false =>
      have hx' : ok (happens o n' (createCall (renamed st none))) = false := ho.ok_eq hx rfl
      rw [beginCb_notCreated ho.roomy hcb hx, beginCb_notCreated ho.roomy hcb' hx']
      exact ⟨by simp [BothOk], h.aside (fun q ↦ by simp [tally, tallyStep, payload, createCall])
        (fun q ↦ by simp [tally, tallyStep, payload, createCall]), fun h ↦ by cases h⟩
    | true =>
      have hx' : ok (happens o n' (createCall (renamed st none))) = true := ho.ok_eq hx rfl
      cases hy : ok (happens o (n + 1) (.commandBufferBegin (some n))) with
      | false =>
        rw [beginCb_notBegun ho.roomy hcb hx hy, beginCb_notBegun ho.roomy hcb' hx'
          (ho.ok_eq hy rfl)]
        exact ⟨by simp [BothOk], h.aside (fun q ↦ by simp [tally, tallyStep, payload, createCall])
          (fun q ↦ by simp [tally, tallyStep, payload, createCall]), fun h ↦ by cases h⟩
      | true =>
        rw [beginCb_opened hcb hx hy, beginCb_opened hcb' hx' (ho.ok_eq hy rfl)]
        refine ⟨Iff.rfl, ?_, fun _ ↦ ⟨n, n', rfl, rfl⟩⟩
        exact h.step (renamed st (some n)) (some n') (fun q ↦ (hopen q n').trans (hopen q n).symm)
          (.inl rfl)

theorem twin_afterBegin {m : Hrx HrxStreamS HrxStatus}
    (hm : ∀ o n n' t st t' st', Behaves loose o → Twin loose p t st t' st' → BothOpen st st' →
      Twin loose p (t ++ (m.run o n st).events) (m.run o n st).state (t' ++ (m.run o n' st').events)
        (m.run o n' st').state) :
    Couples (Behaves loose) (Twin loose p) (fun _ _ ↦ True)
      (beginCb >>= fun s ↦ if (!hrxStatusIsOk s) = true then Pure.pure s else m)
      (beginCb >>= fun s ↦ if (!hrxStatusIsOk s) = true then Pure.pure s else m) := by
  intro o n n' t st t' st' ho h
  obtain ⟨hboth, htwin, hopen⟩ := beginCb_twin ho h n n'
  refine ⟨trivial, ?_⟩
  cases hr : beginCb.run o n st with
  | mk s st₁ es =>
    cases hr' : beginCb.run o n' st' with
    | mk s' st₁' es' =>
      rw [hr, hr'] at hboth htwin hopen
      cases s with
      | some s =>
        obtain ⟨s', rfl⟩ : ∃ x, s' = some x := Option.ne_none_iff_exists'.mp (hboth.not.mpr nofun)
        rw [orReturn_failed hr, orReturn_failed hr']
        exact htwin
      | none =>
        obtain rfl : s' = none := hboth.mpr rfl
        rw [orReturn_ok hr, orReturn_ok hr']
        simpa only [Outcome.after_events, Outcome.after_state, List.append_assoc] using
          hm o _ _ _ st₁ _ st₁' ho htwin (hopen rfl)

theorem recordCommand_twin (command : Option Command) (ho : Behaves loose o)
    (h : Twin loose p t st t' st') (hopen : BothOpen st st') (n n' : ℕ) :
    Twin loose p (t ++ ((recordCommand command).run o n st).events)
      ((recordCommand command).run o n st).state
        (t' ++ ((recordCommand command).run o n' st').events)
      ((recordCommand command).run o n' st').state := by
  obtain ⟨cb, cb', hcb, rfl⟩ := hopen
  have hcb' : (renamed st (some cb')).pendingCb = some cb' := rfl
  cases command with
  | none =>
    rw [recordCommand_null ho.roomy, recordCommand_null ho.roomy]
    exact h.aside (fun q ↦ by simp [tally, tallyStep, payload]) fun q ↦ by
      simp [tally, tallyStep, payload]
  | some c =>
    cases hx : ok (happens o n (.commandBufferRecord (some cb) c)) with
    | false =>
      have hx' : ok (happens o n' (.commandBufferRecord (some cb') c)) = false := ho.ok_eq hx rfl
      rw [recordCommand_notRecorded ho.roomy hcb hx, recordCommand_notRecorded ho.roomy hcb' hx']
      exact h.aside (fun q ↦ by simp [tally, tallyStep, payload, hx])
        fun q ↦ by simp [tally, tallyStep, payload, hx']
    | true =>
      have hx' : ok (happens o n' (.commandBufferRecord (some cb') c)) = true := ho.ok_eq hx rfl
      cases hy : ok (happens o (n + 1) (.commandBufferRecord (some cb) .executionBarrier)) with
      | false =>
        have hy' :
            ok (happens o (n' + 1) (.commandBufferRecord (some cb') .executionBarrier)) = false :=
          ho.ok_eq hy rfl
        rw [recordCommand_half ho.roomy hcb hx hy, recordCommand_half ho.roomy hcb' hx' hy']
        exact h.step st (some cb') (fun q ↦ by simp [tally, tallyStep, payload, hx, hx', hy, hy'])
          (.inl (by simp [hcb]))
      | true =>
        have hy' :
            ok (happens o (n' + 1) (.commandBufferRecord (some cb') .executionBarrier)) = true :=
          ho.ok_eq hy rfl
        rw [recordCommand_recorded hcb hx hy, recordCommand_recorded hcb' hx' hy']
        exact h.step { st with hasPendingWork := true } (some cb')
          (fun q ↦ by simp [tally, tallyStep, hx, hx', hy, hy']) (.inl (by simp [hcb]))

theorem recordBarrier_twin (ho : Behaves loose o) (h : Twin loose p t st t' st')
    (hopen : BothOpen st st') (n n' : ℕ) :
    Twin loose p (t ++ (recordBarrier.run o n st).events) (recordBarrier.run o n st).state
      (t' ++ (recordBarrier.run o n' st').events) (recordBarrier.run o n' st').state := by
  obtain ⟨cb, cb', hcb, rfl⟩ := hopen
  have hcb' : (renamed st (some cb')).pendingCb = some cb' := rfl
  cases hx : ok (happens o n (.commandBufferRecord (some cb) .executionBarrier)) with
  | false =>
    have hx' : ok (happens o n' (.commandBufferRecord (some cb') .executionBarrier)) = false :=
      ho.ok_eq hx rfl
    rw [recordBarrier_notRecorded ho.roomy hcb hx, recordBarrier_notRecorded ho.roomy hcb' hx']
    exact h.aside (fun q ↦ by simp [tally, tallyStep, payload, hx])
      fun q ↦ by simp [tally, tallyStep, payload, hx']
  | true =>
    have hx' : ok (happens o n' (.commandBufferRecord (some cb') .executionBarrier)) = true :=
      ho.ok_eq hx rfl
    rw [recordBarrier_recorded hcb hx, recordBarrier_recorded hcb' hx']
    exact h.step { st with hasPendingWork := true } (some cb')
      (fun q ↦ by simp [tally, tallyStep, hx, hx']) (.inl (by simp [hcb]))

theorem queueBarrier_twin (sem : SemaphorePtr) (value : ℕ) :
    Couples (Behaves loose) (Twin loose p) (fun _ _ ↦ True) (queueBarrier sem value)
      (queueBarrier sem value) := by
  intro o n n' t st t' st' ho h
  obtain ⟨cb', rfl⟩ := h.rest
  refine ⟨trivial, ?_⟩
  have hnone : ∀ q n st, tally q [happens o n (barrierCall st ⟨sem.hal, value⟩)] = q :=
    fun q n st ↦ by
    simp [tally, tallyStep, barrierCall]
  cases hx : ok (happens o n (barrierCall st ⟨sem.hal, value⟩)) with
  | false =>
    have hx' : ok (happens o n' (barrierCall (renamed st cb') ⟨sem.hal, value⟩)) = false :=
      ho.ok_eq hx rfl
    rw [queueBarrier_rejected ho.roomy hx, queueBarrier_rejected ho.roomy hx']
    exact h.aside (fun q ↦ by simp [tally, tallyStep, payload, barrierCall])
      fun q ↦ by simp [tally, tallyStep, payload, barrierCall]
  | true =>
    have hx' : ok (happens o n' (barrierCall (renamed st cb') ⟨sem.hal, value⟩)) = true :=
      ho.ok_eq hx rfl
    rw [queueBarrier_accepted hx, queueBarrier_accepted hx']
    refine h.step (advanced st) cb' (fun q ↦ by rw [hnone, hnone]) ?_
    rw [tally_append, hnone]
    exact h.opened

theorem poolCreate_isSome {σ : Type} (ho : Behaves loose o) (shared : SharedState) (allocator : Obj)
    (params : BufferParams) (n n' : ℕ) (s s' : σ) :
    ((hrxIreeExactPoolCreate shared allocator params).run o n' s').val.2.isSome =
      ((hrxIreeExactPoolCreate shared allocator params).run o n s).val.2.isSome := by
  obtain ⟨b, rfl, -⟩ := ho
  unfold hrxIreeExactPoolCreate
  cases shared.proactorPool with
  | none => rfl
  | some pool =>
    cases hg : (b (.proactorPoolGet pool)).status with
    | some err => simp [ok, happens, behave, anonymous, hg]
    | none =>
      cases hm : (b (.allocatorMalloc 80)).status with
      | some err => simp [ok, happens, behave, anonymous, hg, hm]
      | none =>
        cases hc : (b (.notificationCreate (b (.proactorPoolGet pool)).value)).status with
        | some err => simp [ok, happens, behave, anonymous, hg, hm, hc]
        | none => simp [ok, happens, behave, anonymous, hg, hm, hc]

theorem queueAlloca_twin (shared : SharedState) (params : BufferParams) (size : ℕ) :
    Couples (Behaves loose) (Twin loose p) (fun _ _ ↦ True) (queueAlloca shared params size)
      (queueAlloca shared params size) := by
  intro o n n' t st t' st' ho h
  obtain ⟨cb', rfl⟩ := h.rest
  refine ⟨trivial, ?_⟩
  have hsome := poolCreate_isSome ho shared st.device.halAllocator params n n' st (renamed st cb')
  obtain ⟨hs, he⟩ := hrxIreeExactPoolCreate_aside shared st.device.halAllocator params o n st
  obtain ⟨hs', he'⟩ := hrxIreeExactPoolCreate_aside shared st.device.halAllocator params o n'
    (renamed st cb')
  have habandon : ∀ b q s n st, (∀ p, tally p ((abandonAlloca b q s).run o n st).events = p) ∧
      ((abandonAlloca b q s).run o n st).state = st := fun b q s n st ↦
    ⟨tally_of_quiet (abandonAlloca_aside b q s o n st).2, (abandonAlloca_aside b q s o n st).1⟩
  cases hp : (hrxIreeExactPoolCreate shared st.device.halAllocator params).run o n st with
  | mk r st₁ es =>
    cases hp' : (hrxIreeExactPoolCreate shared st.device.halAllocator params).run o n'
      (renamed st cb') with
    | mk r' st₁' es' =>
      rw [hp] at hs he hsome
      rw [hp'] at hs' he' hsome
      obtain ⟨status, pool⟩ := r
      obtain ⟨status', pool'⟩ := r'
      obtain rfl : st₁ = st := hs
      obtain rfl : st₁' = renamed st₁ cb' := hs'
      have hquiet := tally_of_quiet he
      have hquiet' := tally_of_quiet he'
      cases pool with
      | none =>
        obtain rfl : pool' = none := by simpa using hsome
        rw [queueAlloca_noPool hp, queueAlloca_noPool hp']
        simp only [Outcome.after_events, Outcome.after_state, (habandon _ _ _ _ _).2]
        refine h.aside (fun q ↦ ?_) fun q ↦ ?_
        · rw [tally_append, hquiet, (habandon _ _ _ _ _).1]
        · rw [tally_append, hquiet', (habandon _ _ _ _ _).1]
      | some pool =>
        obtain ⟨pool', rfl⟩ : ∃ x, pool' = some x :=
          Option.isSome_iff_exists.mp (by simpa using hsome)
        have halloca : ∀ q n st a, tally q [happens o n (allocaCall st a params size)] = q :=
          fun q n st a ↦ by simp [tally, tallyStep, allocaCall]
        have hwait : ∀ q n st, tally q [happens o n (allocaWait st)] = q := fun q n st ↦ by
          simp [tally, tallyStep, allocaWait]
        have hboth : ∀ q n m st a, tally q [happens o n (allocaCall st a params size),
            happens o m (allocaWait st)] = q := fun q n m st a ↦ by
          simp [tally, tallyStep, allocaCall, allocaWait]
        cases hx : ok (happens o (n + es.length) (allocaCall st₁ pool.addr params size)) with
        | false =>
          have hx' : ok (happens o (n' + es'.length)
              (allocaCall (renamed st₁ cb') pool'.addr params size)) = false := ho.ok_eq hx rfl
          rw [queueAlloca_notAllocated hp hx, queueAlloca_notAllocated hp' hx']
          simp only [Outcome.after_events, Outcome.after_state, (habandon _ _ _ _ _).2]
          refine h.aside (fun q ↦ ?_) fun q ↦ ?_
          · rw [tally_append, tally_append, hquiet, halloca, (habandon _ _ _ _ _).1]
          · rw [tally_append, tally_append, hquiet', halloca, (habandon _ _ _ _ _).1]
        | true =>
          have hx' : ok (happens o (n' + es'.length)
              (allocaCall (renamed st₁ cb') pool'.addr params size)) = true := ho.ok_eq hx rfl
          cases hy : ok (happens o (n + es.length + 1) (allocaWait st₁)) with
          | false =>
            have hy' :
                ok (happens o (n' + es'.length + 1) (allocaWait (renamed st₁ cb'))) = false :=
              ho.ok_eq hy rfl
            rw [queueAlloca_lost hp hx hy, queueAlloca_lost hp' hx' hy']
            simp only [Outcome.after_events, Outcome.after_state, (habandon _ _ _ _ _).2]
            refine h.aside (fun q ↦ ?_) fun q ↦ ?_
            · rw [tally_append, tally_append, hquiet, hboth, (habandon _ _ _ _ _).1]
            · rw [tally_append, tally_append, hquiet', hboth, (habandon _ _ _ _ _).1]
          | true =>
            have hy' : ok (happens o (n' + es'.length + 1) (allocaWait (renamed st₁ cb'))) = true :=
              ho.ok_eq hy rfl
            rw [queueAlloca_allocated hp hx hy, queueAlloca_allocated hp' hx' hy']
            refine h.step (advanced st₁) cb' (fun q ↦ ?_) ?_
            · rw [tally_append, tally_append, hquiet, hquiet', hboth, hboth]
            · rw [tally_append, tally_append, hquiet, hboth]
              exact h.opened

theorem orReturn_twin {m : Hrx HrxStreamS HrxStatus}
    (hm : Couples (Behaves loose) (Twin loose p) (fun _ _ ↦ True) m m) :
    Couples (Behaves loose) (Twin loose p) (fun _ _ ↦ True)
      (flushInner >>= fun s ↦ if (!hrxStatusIsOk s) = true then pure s else m)
      (flushInner >>= fun s ↦ if (!hrxStatusIsOk s) = true then pure s else m) := by
  refine flushInner_twin.bind fun s s' hs ↦ .ite ?_ (.pure trivial) hm
  unfold BothOk at hs
  cases s <;> cases s' <;> simp_all [hrxStatusIsOk]

theorem StreamOp.run_twin (shared : SharedState) (op : StreamOp) :
    Couples (Behaves loose) (Twin loose p) (fun _ _ ↦ True) (op.run shared) (op.run shared) := by
  have hreturn : ∀ {m : Hrx HrxStreamS HrxStatus}, Couples (Behaves loose) (Twin loose p)
      (fun _ _ ↦ True) m m →
      Couples (Behaves loose) (Twin loose p) (fun _ _ ↦ True) (returning m) (returning m) :=
      fun hm ↦
    hm.bind fun _ _ _ ↦ .pure trivial
  cases op with
  | record c =>
    exact hreturn
      (twin_afterBegin fun _ n n' _ _ _ _ ho h hopen ↦ recordCommand_twin c ho h hopen n n')
  | executionBarrier =>
    exact hreturn
      (twin_afterBegin fun _ n n' _ _ _ _ ho h hopen ↦ recordBarrier_twin ho h hopen n n')
  | flush => exact hreturn (flushInner_twin.mono fun _ _ _ ↦ trivial)
  | synchronize => exact hreturn (orReturn_twin (twin_of_aside wait_aside wait_aside))
  | wait => exact hreturn (twin_of_aside wait_aside wait_aside)
  | query => exact twin_of_aside query_aside query_aside
  | getSemaphore | getDevice | getTimelinePosition =>
    exact twin_of_aside (.bind .state fun _ ↦ .pure _) (.bind .state fun _ ↦ .pure _)
  | advanceTimeline =>
    intro o n n' t st t' st' _ h
    obtain ⟨cb', rfl⟩ := h.rest
    refine ⟨trivial, h.step (advanced st) cb' (fun _ ↦ rfl) ?_⟩
    rw [tally_append]
    exact h.opened
  | waitOn sem value => exact hreturn (orReturn_twin (queueBarrier_twin sem value))
  | bufferAllocate size memType usage =>
    refine Couples.bind (V := fun _ _ ↦ True) ?_ fun _ _ _ ↦ .pure trivial
    refine Couples.bind (V := fun st st' ↦ st'.device = st.device) ?_ fun st st' hdev ↦ ?_
    · refine .state fun t st t' st' h ↦ ?_
      obtain ⟨cb', rfl⟩ := h.rest
      rfl
    rw [hdev]
    refine Couples.bind (V := fun e e' ↦ e'.answer = e.answer) ?_ fun e e' he ↦ ?_
    · intro o n n' t st t' st' ho h
      exact ⟨ho.answer rfl n n', h.aside (tally_of_quiet (by simp [quiet]))
        (tally_of_quiet (by simp [quiet]))⟩
    rw [he]
    refine .ite Iff.rfl ?_ ?_
    · exact twin_of_aside ((hrxError_aside _ _).bind fun _ ↦ .pure _)
        ((hrxError_aside _ _).bind fun _ ↦ .pure _)
    · refine flushInner_twin.bind fun s s' hs ↦ .ite ?_ (.pure trivial)
        (queueAlloca_twin shared _ size)
      unfold BothOk at hs
      cases s <;> cases s' <;> simp_all [hrxStatusIsOk]

end HrxSystem.Libhrx
