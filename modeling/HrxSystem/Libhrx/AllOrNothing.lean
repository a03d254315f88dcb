import HrxSystem.Libhrx.DeviceLives
import HrxSystem.Libhrx.Payloads
import HrxSystem.Libhrx.Worth

namespace HrxSystem.Libhrx

open External Program Counting

/-- What the events `es` of a call took is what the objects `x :: rest` hold. They are new, the
caller has the only reference to `x`, whose parts the others are, and dropping them releases what
they hold. -/
structure HandedOver (es : Trace) (mem mem' : Memory) (x : MadeObject) (rest : List MadeObject) :
    Prop where
  balance : allAcquired es = allReleased es + (worthOf (x :: rest)).2
  new : ∀ y ∈ x :: rest, cellOf mem y.ref = none ∧ cellOf mem' y.ref = some 1 ∧
    contentsOf mem' y.ref = some y.contents
  part : ∀ y ∈ rest, y.ref ∈ x.contents.refs
  counts : ∀ q, cellOf mem' q = counted ((cellOf mem q).getD 0 +
    ({x.ref} + (worthOf (x :: rest)).1).count q)
  drops : ∀ y ∈ x :: rest, DropsOnce y.ref y.contents

namespace CreateCall

/-- After an error everything the call took is released and every strong count is as before, after
OK the new handle owns everything the call took. -/
def AllOrNothing (k : CreateCall) (o : Outside) (n : ℕ) (mem : Memory) : Prop :=
  if (k.run.run o n mem).val.status.isSome then
    (k.run.run o n mem).val.written = .nothing ∧
      allAcquired (k.run.run o n mem).events = allReleased (k.run.run o n mem).events ∧
      ∀ q, cellOf (k.run.run o n mem).state q = cellOf mem q
  else ∃ x rest, (k.run.run o n mem).val.written.refs = {x.ref} ∧
    HandedOver (k.run.run o n mem).events mem (k.run.run o n mem).state x rest

end CreateCall

def Hollow (mem : Memory) (w : Written) : Prop :=
  ∃ a d, w = .stream a ∧ contentsOf mem (.stream a) = some ⟨0, [.semaphore .null, .device d]⟩

section Books

variable {e : Multiset Ref} {mem mem' : Memory} {es : Trace}

/-- What the books say of a call: before it the references `e` were out, after it those in `refs`
are too. -/
structure Settlement (e refs : Multiset Ref) (es : Trace) (mem mem' : Memory) : Prop where
  before : Balanced e mem
  after : Balanced (e + refs) mem'
  ledger : allAcquired es + estate mem = allReleased es + estate mem'
  null : mem'.semaphores.cell 0 = none

theorem Settlement.nothing (h : Settlement e 0 es mem mem') (hworth : worth mem' = worth mem) :
    allAcquired es = allReleased es ∧ ∀ q, cellOf mem' q = cellOf mem q := by
  have hrefs : refsIn mem' = refsIn mem := congrArg Prod.fst hworth
  have hestate : estate mem' = estate mem := congrArg Prod.snd hworth
  have hledger := h.ledger
  rw [hestate] at hledger
  refine ⟨add_right_cancel hledger, fun q ↦ ?_⟩
  rw [h.after q, h.before q, hrefs, add_zero]

theorem getD_counted (n : ℕ) : (counted n).getD 0 = n := by
  cases n <;> rfl

theorem Settlement.owned {x : MadeObject} {rest : List MadeObject}
    (h : Settlement e {x.ref} es mem mem')
    (hlive : ∀ y ∈ x :: rest, cellOf mem' y.ref = some 1 ∧ contentsOf mem' y.ref = some y.contents)
    (hpart : ∀ y ∈ rest, y.ref ∈ x.contents.refs)
    (hworth : worth mem' = worth mem + worthOf (x :: rest)) : HandedOver es mem mem' x rest := by
  have hrefs := congrArg Prod.fst hworth
  have hestate := congrArg Prod.snd hworth
  change refsIn mem' = refsIn mem + (worthOf (x :: rest)).1 at hrefs
  change estate mem' = estate mem + (worthOf (x :: rest)).2 at hestate
  have hcounts : ∀ q, cellOf mem' q = counted ((refsIn mem + e).count q +
      ({x.ref} + (worthOf (x :: rest)).1).count q) := by
    intro q
    rw [h.after q, hrefs, ← Multiset.count_add]
    congr 2
    abel
  refine ⟨?_, fun y hy ↦ ⟨?_, hlive y hy⟩, hpart, fun q ↦ ?_, fun y _ ↦ dropsOnce y.ref y.contents⟩
  · have hledger := h.ledger
    rw [hestate, add_comm (estate mem), ← add_assoc] at hledger
    exact add_right_cancel hledger
  · have hmem : y.ref ∈ {x.ref} + (worthOf (x :: rest)).1 := by
      rcases List.mem_cons.mp hy with rfl | hy
      · exact Multiset.mem_add.mpr (.inl (Multiset.mem_singleton_self _))
      · rw [worthOf_cons]
        exact Multiset.mem_add.mpr (.inr (Multiset.mem_add.mpr (.inl (hpart y hy))))
    have hone := (hlive y hy).1
    have hpos := Multiset.count_pos.mpr hmem
    rw [hcounts] at hone
    rw [h.before]
    generalize (refsIn mem + e).count y.ref = m at hone ⊢
    obtain ⟨k, hk⟩ := Nat.exists_eq_add_one.mpr hpos
    rw [hk, ← Nat.add_assoc, counted_succ, Option.some.injEq] at hone
    obtain rfl : m = 0 := by omega
    rfl
  · rw [hcounts, h.before q, getD_counted]

theorem HandedOver.not_hollow {x : MadeObject} {rest : List MadeObject} {w : Written}
    (h : HandedOver es mem mem' x rest) (hw : w.refs = {x.ref})
    (hnull : mem'.semaphores.cell 0 = none) : ¬ Hollow mem' w := by
  rintro ⟨a, d, rfl, hcontents⟩
  have hx : Ref.stream a = x.ref := Multiset.singleton_inj.mp hw
  obtain ⟨-, -, hself⟩ := h.new x (List.mem_cons_self ..)
  rw [← hx, hcontents] at hself
  have hmem : Ref.semaphore .null ∈ {x.ref} + (worthOf (x :: rest)).1 := by
    rw [worthOf_cons, ← Option.some.inj hself]
    exact Multiset.mem_add.mpr (.inr (Multiset.mem_add.mpr (.inl (List.mem_cons_self ..))))
  have hdead : cellOf mem' (.semaphore .null) = none := by
    have hfree : (Owner.semaphores.kind.heap mem').cell 0 = none := hnull
    refine (Owner.semaphores.cellOf_name mem' 0 ⟨0, ⟨0, 0, 0, 0⟩⟩).trans ?_
    rw [hfree, strongOf_none]
  obtain ⟨k, hk⟩ := Nat.exists_eq_add_one.mpr (Multiset.count_pos.mpr hmem)
  rw [h.counts, hk, ← Nat.add_assoc, counted_succ] at hdead
  cases hdead

/-- A call tells the truth with an error, and with an object that has all its parts. -/
def CreateCall.Truthful (k : CreateCall) (r : Returned) (mem : Memory) : Prop :=
  r.status.isSome = true ∨ r.written.refs ≠ 0 ∧ (k.MakesStream → ¬ Hollow mem r.written)

theorem CreateCall.allOrNothing_iff {k : CreateCall} {o : Outside} {n : ℕ}
    (hmem' : (k.run.run o n mem).state = mem')
    (hended : Ended k.MakesStream (worth mem) (k.run.run o n mem).val mem')
    (hbooks : (k.run.run o n mem).val.written ≠ .panicked →
      Settlement e (k.run.run o n mem).val.written.refs (k.run.run o n mem).events mem mem') :
    k.AllOrNothing o n mem ↔ k.Truthful (k.run.run o n mem).val mem' := by
  rw [AllOrNothing, hmem']
  generalize (k.run.run o n mem).val = r at *
  generalize (k.run.run o n mem).events = es at *
  have hunmade : ∀ {w : Written}, w.refs = 0 →
      ((∃ x rest, w.refs = {x.ref} ∧ HandedOver es mem mem' x rest) ↔
        k.Truthful ⟨none, w⟩ mem') := by
    intro w hw
    refine iff_of_false ?_ ?_
    · rintro ⟨x, rest, hx, -⟩
      exact Multiset.singleton_ne_zero _ (hx.symm.trans hw)
    · rintro (hstatus | ⟨hrefs, -⟩)
      · cases hstatus
      · exact hrefs hw
  cases hended with
  | @nothing s _ hworth =>
    have hsettled : Settlement e 0 es mem mem' := hbooks (by simp)
    cases s with
    | some s => exact iff_of_true ⟨rfl, hsettled.nothing hworth⟩ (.inl rfl)
    | none => exact hunmade rfl
  | @made out _ x rest hout hlive hpart hworth =>
    have hrefs : out.refs ≠ 0 := hout ▸ Multiset.singleton_ne_zero x.ref
    have hsettled : Settlement e out.refs es mem mem' := by
      refine hbooks fun hpanicked ↦ hrefs ?_
      obtain rfl : out = .panicked := hpanicked
      rfl
    rw [hout] at hsettled
    have howned := hsettled.owned hlive hpart hworth
    exact iff_of_true ⟨x, rest, hout, howned⟩
      (.inr ⟨hrefs, fun _ ↦ howned.not_hollow hout hsettled.null⟩)
  | crashed => exact hunmade rfl
  | hollow hstream a d hcontents =>
    have hhollow : Hollow mem' (.stream a) := ⟨a, d, rfl, hcontents⟩
    refine iff_of_false ?_ ?_
    · rintro ⟨x, rest, hx, howned⟩
      exact howned.not_hollow hx (hbooks (by simp)).null hhollow
    · rintro (hstatus | ⟨-, hwhole⟩)
      · cases hstatus
      · exact hwhole hstream hhollow

theorem CreateCall.settlement {F : Globals → Prop} {v : Watch} {t : Trace} (k : CreateCall)
    (hO : Owning e F v t mem) (hlive : ∀ r ∈ k.parent, (cellOf mem r).isSome = true)
    (hknown : ∀ m name out, k = .lookupFunction (some m) name out → ∀ f vmFunction,
      v.known f ⟨m, vmFunction⟩)
    (o : Outside) (hsurvives : (k.run.run o t.length mem).val.written ≠ .panicked) :
    Settlement e (k.run.run o t.length mem).val.written.refs (k.run.run o t.length mem).events mem
      (k.run.run o t.length mem).state := by
  have hparent : (aliveIf k.parent (owning e F v)).holds t mem := by
    cases hk : k.parent with
    | none => exact hO
    | some r => exact ⟨hlive r hk, hO⟩
  have hopen : Entries estate (allReleased t + (0 + estate mem)) (allAcquired t) 0 t mem :=
    add_comm _ _
  obtain ⟨hentries, hO'⟩ :=
    k.run_accounted (p := Always) hknown o t mem trivial ⟨hopen, hparent⟩ hsurvives
  have hledger := hentries.since
  rw [zero_add, zero_add] at hledger
  exact ⟨hO.balanced, hO'.balanced, hledger, hO'.known.null⟩

end Books

section Informed

open HrxStreamS

def allocatable (st : HrxStreamS) (size memType usage : ℕ) (o : Outside) (n : ℕ) : Bool :=
  (o n (.allocatorQueryBufferCompatibility st.device.halAllocator
    ⟨usage, 7, memType, 0, 0⟩ size)).value % 2 ≠ 0

/-- How many events `hrx_buffer_allocate` has before it takes anything: its compatibility query and
those of its flush, whose own error it may lose. -/
def flushEvents (st : HrxStreamS) (size memType usage : ℕ) (o : Outside) (n : ℕ) : ℕ :=
  if allocatable st size memType usage o n then 1 + (flushInner.run o (n + 1) st).events.length
    else 0

namespace CreateCall

def flushed (k : CreateCall) (o : Outside) (n : ℕ) (mem : Memory) : ℕ :=
  match k with
  | .bufferAllocate (some s) size memType usage true =>
    if size = 0 then 0 else (mem.streams.cell s).elim 0 fun arc ↦
      flushEvents arc.data size memType usage o n
  | _ => 0

/-- Every status payload that a call asks for, outside of the flush, is granted. -/
def Informed (k : CreateCall) (o : Outside) (n : ℕ) (mem : Memory) : Prop :=
  Granted ((k.run.run o n mem).events.drop (k.flushed o n mem))

instance (k : CreateCall) (o : Outside) (n : ℕ) (mem : Memory) : Decidable (k.Informed o n mem) :=
  inferInstanceAs (Decidable (Granted _))

end CreateCall

theorem bufferAllocate_events (shared : SharedState) (size memType usage : ℕ) (o : Outside) (n : ℕ)
    (st : HrxStreamS) :
    Granted (((bufferAllocate shared size memType usage).run o n st).events.drop
      (flushEvents st size memType usage o n)) ↔
      ToldBuffer ((bufferAllocate shared size memType usage).run o n st).val := by
  let q :=
    happens o n
      (.allocatorQueryBufferCompatibility st.device.halAllocator ⟨usage, 7, memType, 0, 0⟩ size)
  let after (s : HrxStatus) : Hrx HrxStreamS (HrxStatus × Option (Obj × PoolPtr)) :=
    if !hrxStatusIsOk s then return (s, none)
    else queueAlloca shared (q.answer.params.getD ⟨usage, 7, memType, 0, 0⟩) size
  have hafter : ∀ s, Honest ToldBuffer (after s) := by
    refine fun s ↦ .ite (fun hs ↦ .quiet (.pure _) (.pure (.inl ?_))) fun _ ↦
      queueAlloca_honest _ _ _
    simpa [hrxStatusIsOk] using hs
  have hrun : (bufferAllocate shared size memType usage).run o n st =
      ((if q.answer.value % 2 = 0 then
          do return (← hrxError .invalidArgument "buffer params are not allocatable on this device",
            none)
        else flushInner >>= after).run o (n + 1) st).after [q] := rfl
  rw [hrun]
  unfold flushEvents
  split
  case isTrue hq =>
    have hodd : ¬ q.answer.value % 2 = 0 := by simpa [allocatable, q, happens] using hq
    have hdrop : ∀ rest : Trace, ([q] ++ ((flushInner.run o (n + 1) st).events ++ rest)).drop
        (1 + (flushInner.run o (n + 1) st).events.length) = rest := by
      intro rest
      rw [← List.append_assoc]
      exact List.drop_left' (by simp [Nat.add_comm])
    rw [if_neg hodd, run_bind, Outcome.after_events, Outcome.after_events, hdrop]
    exact hafter _ o _ _
  case isFalse hq =>
    have heven : q.answer.value % 2 = 0 := by simpa [allocatable, q, happens] using hq
    have herror : Honest ToldBuffer (do
        return (← hrxError .invalidArgument "buffer params are not allocatable on this device",
          none) :
          Hrx HrxStreamS (HrxStatus × Option (Obj × PoolPtr))) :=
      (honest_error (by simp) _).bind (fun _ ↦ .pure _) fun s ↦ .pure (or_iff_left (by simp))
    have hquery : Granted [q] := fun e he hcall ↦ by
      rw [List.mem_singleton.mp he] at hcall
      cases hcall
    rw [if_pos heven, List.drop_zero, Outcome.after_events, granted_append, and_iff_right hquery]
    exact herror o (n + 1) st

variable {mem : Memory} {o : Outside} {n : ℕ}

theorem bufferAllocate_informed {s : ℕ} {arc : Arc HrxStreamS}
    (hcell : mem.streams.cell s = some arc) (size memType usage : ℕ) :
    (CreateCall.bufferAllocate (some s) size memType usage true).Informed o n mem ↔
      ((hrxBufferAllocate (some s) size memType usage true).run o n mem).val.Told := by
  by_cases hsize : size = 0
  · have hrefused : Honest Returned.Told
        (do return ⟨← hrxError .invalidArgument "allocation size must be > 0", .nothing⟩) :=
      (honest_error (by simp) _).failed
    subst hsize
    exact hrefused o n mem
  let r := (bufferAllocate mem.globals.shared size memType usage).run o n arc.data
  obtain ⟨rest, hevents, hrest, htold⟩ : ∃ rest,
      ((hrxBufferAllocate (some s) size memType usage true).run o n mem).events = r.events ++ rest ∧
      Granted rest ∧
        (((hrxBufferAllocate (some s) size memType usage true).run o n mem).val.Told ↔
          ToldBuffer r.val) := by
    cases hr : r.val.2 with
    | none =>
      have hrun : ((hrxBufferAllocate (some s) size memType usage true).run o n mem).val =
          ⟨r.val.1, .nothing⟩ ∧
          ((hrxBufferAllocate (some s) size memType usage true).run o n mem).events = r.events := by
        simp only [r] at hr ⊢
        simp [hrxBufferAllocate, hsize, onStream, hcell, hr]
      refine ⟨[], hrun.2.trans (List.append_nil _).symm, (fun _ he ↦ by cases he), ?_⟩
      rw [hrun.1, told_nothing, ToldBuffer, hr]
      exact (or_iff_left (by simp)).symm
    | some q =>
      have hrun : ∃ a x, ((hrxBufferAllocate (some s) size memType usage true).run o n mem).val =
          ⟨r.val.1, .buffer a⟩ ∧
          ((hrxBufferAllocate (some s) size memType usage true).run o n mem).events = r.events ++
          [happens o x .arcNew] := by
        simp only [r] at hr ⊢
        simp [hrxBufferAllocate, hsize, onStream, hcell, hr, hrxDeviceRetain,
          handleRetain, intoHandle]
        exact ⟨_, rfl⟩
      obtain ⟨a, x, hval, hevents⟩ := hrun
      refine ⟨_, hevents, fun e he hcall ↦ ?_, ?_⟩
      · rw [List.mem_singleton.mp he] at hcall
        cases hcall
      · rw [hval, ToldBuffer, hr]
        exact iff_of_true (.inr (Multiset.singleton_ne_zero _)) (.inr rfl)
  have hflushed : (CreateCall.bufferAllocate (some s) size memType usage true).flushed o n mem =
      flushEvents arc.data size memType usage o n := by simp [CreateCall.flushed, hsize, hcell]
  have hdrop :
      Granted (rest.drop (flushEvents arc.data size memType usage o n - r.events.length)) :=
    fun e he ↦ hrest e (List.mem_of_mem_drop he)
  rw [htold, CreateCall.Informed, hflushed]
  change Granted
    (((hrxBufferAllocate (some s) size memType usage true).run o n mem).events.drop _) ↔ _
  rw [hevents, List.drop_append, granted_append, and_iff_left hdrop]
  exact bufferAllocate_events _ _ _ _ _ _ _

theorem streamCreate_informed (t : Trace) (d : DevicePtr) (flags : ℕ) :
    (CreateCall.streamCreate (some d) flags true).Informed o t.length mem ↔
      (CreateCall.streamCreate (some d) flags true).Truthful
        ((hrxStreamCreate (some d) flags true).run o t.length mem).val
        ((hrxStreamCreate (some d) flags true).run o t.length mem).state := by
  let retained := ((hrxDeviceRetain d.addr).run o t.length mem).state
  let r := (hrxSemaphoreCreate (some d) 0 true).run o t.length retained
  have hrun : (hrxStreamCreate (some d) flags true).run o t.length mem =
      ((streamOn d flags r.val.1 r.val.2).run o (t.length + r.events.length) r.state).after
      r.events := rfl
  have hquiet : Quiet (streamOn d flags r.val.1 r.val.2) := by
    refine .ite (.bind ?_ fun _ ↦ .pure _) ((quiet_intoHandle _ _).bind fun _ ↦ .pure _)
    exact hrxDeviceRelease_calls (fun _ ↦ by simp) (fun _ ↦ by simp) (fun _ ↦ by simp)
      (fun _ _ ↦ rfl) _
  have hgranted : (CreateCall.streamCreate (some d) flags true).Informed o t.length mem ↔
      r.val.1.isSome = true ∨ r.val.2.isSome = true := by
    change Granted (((hrxStreamCreate (some d) flags true).run o t.length mem).events.drop 0) ↔ _
    rw [List.drop_zero, hrun, Outcome.after_events, granted_append,
      and_iff_left (hquiet.granted _ _ _)]
    exact semaphoreCreate_honest d 0 o t.length retained
  have hworth :=
    semaphoreCreate_worth (v := worth retained) (G := fun _ ↦ True) d 0 o t retained trivial
      ⟨rfl, trivial⟩
  change r.val.2.elim _ _ at hworth
  have hmade :
      ∀ sem, ∃ a, ((streamOn d flags none sem).run o (t.length + r.events.length) r.state).val =
        ⟨none, .stream a⟩ ∧
      contentsOf ((streamOn d flags none sem).run o (t.length + r.events.length) r.state).state
        (.stream a) =
        some ⟨0, [.semaphore (sem.getD .null), .device d]⟩ := fun sem ↦
    ⟨_, rfl, congrArg (Option.map fun arc : Arc HrxStreamS ↦ arc.data.contents)
      (Heap.put_cell_self _ _ _)⟩
  rw [hgranted, hrun, Outcome.after_val, Outcome.after_state]
  cases hst : r.val.1 with
  | some st => exact iff_of_true (.inl rfl) (.inl rfl)
  | none =>
    obtain ⟨a, hval, hcontents⟩ := hmade r.val.2
    rw [hval]
    cases hsem : r.val.2 with
    | none =>
      rw [hsem] at hcontents
      refine iff_of_false (by simp) ?_
      rintro (hstatus | ⟨-, hwhole⟩)
      · cases hstatus
      · exact hwhole trivial ⟨a, d, rfl, hcontents⟩
    | some sem =>
      rw [hsem] at hcontents hworth
      refine iff_of_true (.inr rfl) (.inr ⟨Multiset.singleton_ne_zero _, ?_⟩)
      rintro - ⟨a', d', ha, hnull⟩
      obtain rfl : a = a' := Written.stream.inj ha
      have hsame := hcontents.symm.trans hnull
      simp only [Option.getD_some, Option.some.injEq, Contents.mk.injEq, List.cons.injEq,
        Ref.semaphore.injEq] at hsame
      exact absurd (hsame.2.1 ▸ hworth.2.1) (lt_irrefl 0)

theorem CreateCall.truthful_nothing (k : CreateCall) (s : HrxStatus) :
    k.Truthful ⟨s, .nothing⟩ mem ↔ s.isSome = true := or_iff_left fun h ↦ h.1 rfl

theorem CreateCall.flushed_of_incomplete {k : CreateCall} (hk : ¬ k.Complete) :
    k.flushed o n mem = 0 := by
  unfold flushed
  split
  · exact absurd (.bufferAllocate ..) hk
  · rfl

theorem CreateCall.informed_iff (k : CreateCall) (t : Trace)
    (hlive : ∀ r ∈ k.parent, (cellOf mem r).isSome = true) :
    k.Informed o t.length mem ↔
      k.Truthful (k.run.run o t.length mem).val (k.run.run o t.length mem).state := by
  have htruthful : ∀ {r x}, ¬ k.MakesStream → (r.Told ↔ k.Truthful r x) := fun hstream ↦
    or_congr .rfl (iff_self_and.mpr fun _ hp ↦ absurd hp hstream)
  have htold : ¬ k.MakesStream → Honest Returned.Told k.run → k.flushed o t.length mem = 0 →
      (k.Informed o t.length mem ↔
        k.Truthful (k.run.run o t.length mem).val (k.run.run o t.length mem).state) := by
    intro hstream hhonest hflushed
    rw [Informed, hflushed, List.drop_zero, hhonest]
    exact htruthful hstream
  by_cases hcomplete : k.Complete
  · cases hcomplete with
    | allocateBuffer d params size =>
      exact htold id (.after (.call (by simp)) fun s ↦ wrapBuffer_honest d s _ _) rfl
    | importBuffer d params hostPtr size =>
      exact htold id (.after (.call (by simp)) fun s ↦ wrapBuffer_honest d s _ _) rfl
    | virtualMemoryReserve d affinity size =>
      exact htold id (.after (.call (by simp)) fun s ↦ wrapBuffer_honest d s _ _) rfl
    | bufferAllocate s size memType usage =>
      have hstream :
          (cellOf mem (Owner.streams.name s ⟨0, none, false, 0, .null, ⟨0, 0, 0, 0⟩⟩)).isSome =
            true :=
        hlive (.stream s) rfl
      obtain ⟨arc, hcell, -⟩ := Owner.streams.alive_cell hstream
      exact (bufferAllocate_informed hcell size memType usage).trans (htruthful id)
    | semaphoreCreate d initialValue =>
      refine htold id
        ((semaphoreCreate_honest d initialValue).bind (fun _ ↦ .pure _) fun r ↦ .pure ?_) rfl
      refine or_congr .rfl ?_
      cases r.2 with
      | none => exact iff_of_false (fun hrefs ↦ hrefs rfl) (by simp)
      | some s => exact iff_of_true (Multiset.singleton_ne_zero _) rfl
    | streamCreate d flags => exact streamCreate_informed t d flags
    | executableLoadData d data size format =>
      exact htold id (executableLoadData_honest d data size format) rfl
    | executableLoadFile d path format =>
      exact htold id (executableLoadFile_honest d path format) rfl
    | moduleLoadVmfb d data size => exact htold id (moduleLoadVmfb_honest d data size) rfl
    | lookupFunction m name => exact htold id (lookupFunction_honest m name) rfl
  · obtain ⟨message, hrefused⟩ := k.complete_or_refused.resolve_left hcomplete
    have hhonest :
        Honest (fun s ↦ s.isSome = true)
          (hrxError .invalidArgument message : Hrx Memory HrxStatus) :=
      honest_error (by simp) message
    rw [Informed, flushed_of_incomplete hcomplete, List.drop_zero, hrefused]
    exact (hhonest.failed o t.length mem).trans ((told_nothing _).trans (k.truthful_nothing _).symm)

end Informed

section Runs

variable {c : Caller} {l : ApiLog}

/-- A call on an object that is live and, if it is a stream, has its semaphore. -/
structure CreateCall.Callable (k : CreateCall) (mem : Memory) : Prop where
  live : ∀ r ∈ k.parent, (cellOf mem r).isSome = true
  whole : ∀ s ∈ (ApiCall.create k).streams, Whole mem s

/-- Every creating call is all or nothing, exactly where it gets every status payload that it asks
for. -/
theorem creation_all_or_nothing_iff (h : ApiRuns c l) (k : CreateCall)
    (hk : k.Callable c.mem) (o : Outside) :
    k.AllOrNothing o (trace l).length c.mem ↔ k.Informed o (trace l).length c.mem := by
  have hU := h.upheld
  have hlive := hk.live
  rw [k.informed_iff (trace l) hlive]
  refine CreateCall.allOrNothing_iff rfl ?_ (k.settlement (hU.owning (.create k)) hlive ?_ o)
  · refine k.run_ends o (trace l) c.mem trivial ⟨rfl, fun r hr ↦ ?_⟩
    have hsome := hlive r hr
    rw [hU.balanced r, counted] at hsome ⊢
    split at hsome
    · cases hsome
    · rename_i hpos
      obtain ⟨m, hm⟩ := Nat.exists_eq_succ_of_ne_zero hpos
      exact ⟨m, by rw [hm]; rfl⟩
  · rintro m name out rfl f vmFunction
    exact .inr ⟨name, out, rfl⟩

def broughtUp : List (ApiCall × Outside) := [(.runtime (.init .cpu), fun _ _ ↦ {})]

def shortFile : Outside := fun _ c ↦ match c with
  | .ftell _ => { signed := 64 }
  | .fread .. => { value := 8 }
  | _ => {}

theorem broughtUp_runs :
    ApiRuns (play ApiCall.step .initial [] broughtUp).1
      (play ApiCall.step .initial [] broughtUp).2 :=
  Runs.play .start broughtUp ⟨⟨by decide, by decide, nofun, by decide⟩, trivial⟩

theorem creation_all_or_nothing_short_file :
    let c := (play ApiCall.step .initial [] broughtUp).1
    let n := (trace (play ApiCall.step .initial [] broughtUp).2).length
    let k :=
      CreateCall.executableLoadFile (some ⟨1, 11, 0, 13⟩) (some 4096) (some ⟨8192, false⟩) true
    (k.AllOrNothing shortFile n c.mem ↔ k.Informed shortFile n c.mem) ∧
      k.Informed shortFile n c.mem := by
  refine ⟨creation_all_or_nothing_iff broughtUp_runs _
    ⟨fun r hr ↦ ?_, fun s hs ↦ absurd hs List.not_mem_nil⟩ shortFile, by decide⟩
  obtain rfl := Option.some.inj hr
  decide

/-- IREE cannot make a semaphore, and there is no room for the status that should say so. -/
def noRoom : Outside := fun _ c ↦ match c with
  | .semaphoreCreate .. | .malloc _ => { status := some ⟨8, none⟩ }
  | _ => {}

/-- The stream that comes out of it has the NULL semaphore. -/
theorem creation_not_all_or_nothing : ¬ ∀ c l, ApiRuns c l → ∀ k : CreateCall,
    k.Callable c.mem → ∀ o, k.AllOrNothing o (trace l).length c.mem := by
  intro h
  let k := CreateCall.streamCreate (some ⟨1, 11, 0, 13⟩) 0 true
  have hall := h _ _ broughtUp_runs k ⟨fun r hr ↦ by
    obtain rfl := Option.some.inj hr
    decide, nofun⟩ noRoom
  have hval : (k.run.run noRoom (trace (play ApiCall.step .initial [] broughtUp).2).length
      (play ApiCall.step .initial [] broughtUp).1.mem).val = ⟨none, .stream 1⟩ := by decide
  rw [CreateCall.AllOrNothing, hval] at hall
  obtain ⟨x, rest, hx, hhanded⟩ := hall
  exact hhanded.not_hollow hx rfl ⟨1, ⟨1, 11, 0, 13⟩, rfl, rfl⟩

end Runs

end HrxSystem.Libhrx
