import HrxSystem.Hip.DumpRuns
import Mathlib.Data.List.Enum

namespace HrxSystem.Hip

open External Program

namespace TraceLine

def label? : TraceLine → Option String
  | dumpHeader label _ _ => some label
  | _ => none

def isDump : TraceLine → Bool
  | dumpHeader .. | dumpFailed .. | dumpHash .. | dumpEntry .. | dumpHex .. => true
  | _ => false

end TraceLine

def dumpLabels (lines : List TraceLine) : List String := lines.filterMap TraceLine.label?

def NoDump (lines : List TraceLine) : Prop := ∀ x ∈ lines, x.isDump = false

theorem NoDump.append {w w' : List TraceLine} (h : NoDump w) (h' : NoDump w') : NoDump (w ++ w') :=
  List.forall_mem_append.mpr ⟨h, h'⟩

theorem NoDump.labels {lines : List TraceLine} (h : NoDump lines) : dumpLabels lines = [] := by
  refine List.filterMap_eq_nil_iff.mpr fun x hx ↦ ?_
  have := h x hx
  cases x <;> first | rfl | cases this

/-- What the tracer decides by, and counts. -/
structure Tally where
  config : TracerConfig
  traceFile : Bool
  kernels : List KernelInfo
  kernelCount : ℤ

def Tracer.tally (st : Tracer) : Tally := ⟨st.config, st.traceFile, st.kernels, st.kernelCount⟩

/-- From a state with tally `t`, a program writes lines after which `Q` holds of its value, the
tally and the lines. -/
def Emits {α : Type} (t : Tally) (m : HipM Tracer α) (Q : α → Tally → List TraceLine → Prop) :
    Prop :=
  ∀ o n st, st.tally = t → ∃ w, (m.run o n st).state.output = st.output ++ w ∧
    Q (m.run o n st).val (m.run o n st).state.tally w

namespace Emits

variable {α β : Type} {t : Tally} {m : HipM Tracer α} {k : α → HipM Tracer β}
variable {P : α → Tally → List TraceLine → Prop} {Q : β → Tally → List TraceLine → Prop}

theorem pure {a : α} (h : P a t []) : Emits t (Pure.pure a : HipM Tracer α) P := by
  rintro o n st rfl
  exact ⟨[], by simp, by simpa using h⟩

theorem call {r : HipRequest} : Emits t (Program.call r) fun _ t' w ↦ t' = t ∧ w = [] := by
  rintro o n st rfl
  exact ⟨[], by simp, by simp⟩

theorem bind (hm : Emits t m P)
    (hk : ∀ a t' w, P a t' w → Emits t' (k a) fun b t'' w' ↦ Q b t'' (w ++ w')) :
    Emits t (m >>= k) Q := by
  intro o n st hst
  obtain ⟨w, hw, hP⟩ := hm o n st hst
  obtain ⟨w', hw', hQ⟩ := hk _ _ w hP o (n + (m.run o n st).events.length) (m.run o n st).state rfl
  exact ⟨w ++ w', by rw [run_bind, Outcome.after_state, hw', hw, List.append_assoc], hQ⟩

theorem mono {P' : α → Tally → List TraceLine → Prop} (hm : Emits t m P)
    (h : ∀ a t' w, P a t' w → P' a t' w) :
    Emits t m P' := by
  intro o n st hst
  obtain ⟨w, hw, hP⟩ := hm o n st hst
  exact ⟨w, hw, h _ _ _ hP⟩

theorem ite {c : Prop} [Decidable c] {m' : HipM Tracer α} (hm : c → Emits t m P)
    (hm' : ¬ c → Emits t m' P) :
    Emits t (if c then m else m') P := by
  split
  · exact hm ‹_›
  · exact hm' ‹_›

end Emits

section Messages

variable {t : Tally} {present : Present}

theorem message_tally (level : ℤ) (line : TraceLine) (st : Tracer) :
    (st.message level line).tally = st.tally := by
  rw [Tracer.message]
  split <;> rfl

theorem message_output (level : ℤ) (line : TraceLine) (st : Tracer) :
    (st.message level line).output =
    st.output ++ if level ≤ st.config.traceLevel ∧ st.traceFile = true then [line] else [] := by
  rw [Tracer.message]
  by_cases h : level ≤ st.config.traceLevel ∧ st.traceFile = true
  · rw [if_pos h, if_neg]
    simp [h]
  · rw [if_neg h, if_pos, List.append_nil]
    by_cases hl : level ≤ st.config.traceLevel
    · have hf : st.traceFile = false := by
        cases hf : st.traceFile with
        | false => rfl
        | true => exact absurd ⟨hl, hf⟩ h
      simp [hf]
    · simp [Int.not_le.mp hl]

theorem traceMsg_emits (level : ℤ) (line : TraceLine) : Emits t (traceMsg level line) fun _ t' w ↦
    t' = t ∧ w = if level ≤ t.config.traceLevel ∧ t.traceFile = true then [line] else [] := by
  rintro o n st rfl
  exact ⟨_, message_output level line st, message_tally level line st, rfl⟩

def WritesOnly {α : Type} (ok : TraceLine → Prop) (m : HipM Tracer α) : Prop :=
  ∀ t, Emits t m fun _ t' w ↦ t' = t ∧ ∀ x ∈ w, ok x

namespace WritesOnly

variable {α β : Type} {ok : TraceLine → Prop} {m : HipM Tracer α} {k : α → HipM Tracer β}

theorem pure (a : α) : WritesOnly ok (Pure.pure a : HipM Tracer α) := fun _ ↦ .pure ⟨rfl, by simp⟩

theorem call (r : HipRequest) : WritesOnly ok (Program.call r) := by
  refine fun t ↦ Emits.call.mono ?_
  rintro _ _ _ ⟨rfl, rfl⟩
  exact ⟨rfl, by simp⟩

theorem bind (hm : WritesOnly ok m) (hk : ∀ a, WritesOnly ok (k a)) : WritesOnly ok (m >>= k) := by
  refine fun t ↦ (hm t).bind ?_
  rintro a _ w ⟨rfl, hw⟩
  refine (hk a _).mono ?_
  rintro b _ w' ⟨rfl, hw'⟩
  exact ⟨rfl, List.forall_mem_append.mpr ⟨hw, hw'⟩⟩

theorem ite {c : Prop} [Decidable c] {m' : HipM Tracer α} (hm : WritesOnly ok m)
    (hm' : WritesOnly ok m') :
    WritesOnly ok (if c then m else m') := fun t ↦ .ite (fun _ ↦ hm t) fun _ ↦ hm' t

theorem update {f : Tracer → Tracer}
    (hf : ∀ st, (f st).tally = st.tally ∧ ∃ w, (f st).output = st.output ++ w ∧
    ∀ x ∈ w, ok x) : WritesOnly ok (Program.update f) := by
  rintro _ o n st rfl
  obtain ⟨ht, w, hw, hok⟩ := hf st
  exact ⟨w, hw, ht, hok⟩

theorem orAbort {m : HipM Tracer (Option α)} {k : α → HipM Tracer (Option β)} (hm : WritesOnly ok m)
    (hk : ∀ a, WritesOnly ok (k a)) : WritesOnly ok (Hip.orAbort m k) := by
  refine hm.bind fun r ↦ ?_
  cases r with
  | none => exact pure _
  | some a => exact hk a

theorem unwrapCall (present : Present) (c : HipCall) : WritesOnly ok (Hip.unwrapCall present c) :=
  ite ((call _).bind fun _ ↦ pure _) (pure _)

theorem traceMsg (level : ℤ) {line : TraceLine} (h : ok line) :
    WritesOnly ok (Hip.traceMsg level line) := by
  refine fun t ↦ (traceMsg_emits level line).mono ?_
  rintro _ _ w ⟨rfl, rfl⟩
  refine ⟨rfl, fun x hx ↦ ?_⟩
  split at hx
  · rwa [List.mem_singleton.mp hx]
  · exact absurd hx List.not_mem_nil

end WritesOnly

end Messages

def Tally.Labels (t : Tally) : Prop :=
  t.config.traceDump ≠ 0 ∧ 3 ≤ t.config.traceLevel ∧ t.traceFile = true

instance (t : Tally) : Decidable t.Labels := inferInstanceAs (Decidable (_ ∧ _ ∧ _))

def passesFilter (filter name : Option String) : Bool :=
  filter.all fun s ↦ s = "" || name.any fun n ↦ contains n s

namespace Tally

variable (t : Tally) (f : Ptr)

def name : Option String := (t.kernels.find? fun k ↦ k.hostFunc == f).map KernelInfo.name

def traces : Bool :=
  (decide (t.config.kernelCountLimit ≤ 0) || decide (t.kernelCount < t.config.kernelCountLimit)) &&
    passesFilter t.config.kernelFilter (t.name f)

def launched : Tally :=
  { t with kernelCount := if t.traces f then wrapInt (t.kernelCount + 1) else t.kernelCount }

end Tally

theorem shouldTraceKernel_eq (st : Tracer) (f : Ptr) :
    shouldTraceKernel st (kernelTableGetName st f) = st.tally.traces f := by
  rw [Tally.traces]
  by_cases hlimit : st.config.kernelCountLimit > 0 ∧ st.kernelCount ≥ st.config.kernelCountLimit
  · rw [shouldTraceKernel, if_pos hlimit]
    simp [Tracer.tally, Int.not_le.mpr hlimit.1, Int.not_lt.mpr hlimit.2]
  · have hpasses : shouldTraceKernel st (kernelTableGetName st f) =
        passesFilter st.config.kernelFilter (kernelTableGetName st f) := by
      rw [shouldTraceKernel, if_neg hlimit]
      cases st.config.kernelFilter with
      | none => rfl
      | some s => by_cases hs : s = "" <;> simp [passesFilter, hs]
    rw [hpasses]
    have hbelow : st.config.kernelCountLimit ≤ 0 ∨ st.kernelCount < st.config.kernelCountLimit := by
      omega
    obtain h | h := hbelow
    · simp [Tracer.tally, Tally.name, kernelTableGetName, h]
    · simp [Tracer.tally, Tally.name, kernelTableGetName, h]

def leveled (config : TracerConfig) (level : ℤ) (line : TraceLine) : List TraceLine :=
  if level ≤ config.traceLevel then [line] else []

section Launch

variable (st : Tracer) (o : Backend) (n : ℕ) (c : HipCall) (f : Ptr)

def fullDump : Bool := (fullDumpToken st (kernelTableGetName st f)).isSome

def matchLines : List TraceLine :=
  match fullDumpToken st (kernelTableGetName st f) with
  | none => []
  | some token => leveled st.config 3 (.fullDumpMatch ((kernelTableGetName st f).getD "") token)

def dumpsAround : Bool := st.tally.traces f && st.config.traceSync

def launchPlace : ℕ := n + (aroundEvents st o n (dumpsAround st f) (fullDump st f)).length

def launchAnswer : HipAnswer := o (launchPlace st o n f) (.call c)

def launchEvents : HipTrace :=
  aroundEvents st o n (dumpsAround st f) (fullDump st f) ++
    happens o (launchPlace st o n f) (.call c) ::
      aroundEvents st o (launchPlace st o n f + 1) (dumpsAround st f) (fullDump st f)

def launchLines : List TraceLine :=
  matchLines st f ++
  aroundLines st o n (dumpsAround st f) (fullDump st f)
    (beforeLabel st.kernelCount (kernelTableGetName st f)) ++
  leveled st.config 2 (.launching c (kernelTableGetName st f)) ++
  aroundLines st o (launchPlace st o n f + 1) (dumpsAround st f) (fullDump st f)
    (afterLabel st.kernelCount (kernelTableGetName st f) (launchAnswer st o n c f).ret) ++
  leveled st.config 2 (.returned (launchAnswer st o n c f).ret)

variable {st o n c f} {present : Present}

theorem run_shouldFullDumpKernel :
    (shouldFullDumpKernel (kernelTableGetName st f)).run o n st =
      ⟨fullDump st f, st.writes (matchLines st f), []⟩ := by
  cases htoken : fullDumpToken st (kernelTableGetName st f) with
  | none => simp [shouldFullDumpKernel, fullDump, matchLines, htoken]
  | some token =>
    simp [shouldFullDumpKernel, fullDump, matchLines, leveled, htoken, traceMsg, message_eq]

theorem run_reported (counts : Bool) (a : HipAnswer) :
    (do
      if counts then
        update fun st ↦ { st with kernelCount := wrapInt (st.kernelCount + 1) }
      traceMsg 2 (.returned a.ret)
      return some (c.result a) : HipM Tracer (Option HipResult)).run o n st =
      ⟨some (c.result a), { st.writes (leveled st.config 2 (.returned a.ret)) with
        kernelCount := if counts then wrapInt (st.kernelCount + 1) else st.kernelCount }, []⟩ := by
  cases counts with
  | false => simp [traceMsg, message_eq, leveled, Tracer.writes]
  | true => simp [traceMsg, message_eq, leveled, Tracer.writes]

/-- The second half of a launch: the call itself, the dump after it, and the count. -/
theorem run_called (hst : Sized st) {dumps full counts : Bool} (label : ℤ → String)
    (h : ((orAbort (unwrapCall present c) fun a ↦
      orAbort (if dumps then syncAndDump present (label a.ret) full else return some ()) fun _ ↦ do
        if counts then
          update fun st ↦ { st with kernelCount := wrapInt (st.kernelCount + 1) }
        traceMsg 2 (.returned a.ret)
        return some (c.result a)).run o n st).val.isSome = true) :
    (orAbort (unwrapCall present c) fun a ↦
      orAbort (if dumps then syncAndDump present (label a.ret) full else return some ()) fun _ ↦ do
        if counts then
          update fun st ↦ { st with kernelCount := wrapInt (st.kernelCount + 1) }
        traceMsg 2 (.returned a.ret)
        return some (c.result a)).run o n st =
      ⟨some (c.result (o n (.call c))),
        { st.writes (aroundLines st o (n + 1) dumps full (label (o n (.call c)).ret) ++
            leveled st.config 2 (.returned (o n (.call c)).ret)) with
          kernelCount := if counts then wrapInt (st.kernelCount + 1) else st.kernelCount },
        happens o n (.call c) :: aroundEvents st o (n + 1) dumps full⟩ := by
  obtain ⟨a, s₁, es₁, hcall, h, hrun⟩ := orAbort_returns h
  have hcalled := unwrapCall_returns (congrArg (fun r ↦ r.val.isSome) hcall)
  rw [hcalled, Outcome.mk.injEq, Option.some.injEq] at hcall
  obtain ⟨rfl, rfl, rfl⟩ := hcall
  rw [hrun]
  obtain ⟨u, s₂, es₂, haround, h, hrun⟩ := orAbort_returns h
  have hdumped := run_around hst (congrArg (fun r ↦ r.val.isSome) haround)
  rw [hdumped, Outcome.mk.injEq] at haround
  obtain ⟨-, rfl, rfl⟩ := haround
  rw [hrun, run_reported]
  simp only [Outcome.after, leveled, writes_config, writes_writes, List.append_nil,
    List.singleton_append]
  rfl

/-- How a launch comes out that returns. -/
theorem run_tracedLaunch (hst : Sized st)
    (h : ((tracedLaunch present c f).run o n st).val.isSome = true) :
    (tracedLaunch present c f).run o n st =
      ⟨some (c.result (launchAnswer st o n c f)),
        { st.writes (launchLines st o n c f)
          with kernelCount := (st.tally.launched f).kernelCount },
        launchEvents st o n c f⟩ := by
  have hwrites : ∀ w, Sized (st.writes w) := fun w ↦ hst
  rw [tracedLaunch, run_bind, run_state] at h ⊢
  dsimp only at h ⊢
  rw [shouldTraceKernel_eq, run_bind, run_shouldFullDumpKernel] at h ⊢
  dsimp only [Outcome.after_nil, List.length_nil, Nat.add_zero] at h ⊢
  obtain ⟨u, s₁, es₁, hbefore, h, hrun⟩ := orAbort_returns h
  have haround := run_around (hwrites (matchLines st f)) (congrArg (fun r ↦ r.val.isSome) hbefore)
  rw [haround, Outcome.mk.injEq] at hbefore
  obtain ⟨-, rfl, rfl⟩ := hbefore
  rw [hrun]
  rw [run_bind, traceMsg, run_update, message_eq] at h ⊢
  dsimp only [Outcome.after_nil, List.length_nil, Nat.add_zero] at h ⊢
  rw [writes_writes, writes_writes] at h ⊢
  rw [run_called (hwrites _) (afterLabel st.kernelCount (kernelTableGetName st f)) h]
  simp only [Outcome.after, writes_writes, List.append_assoc]
  refine (Outcome.mk.injEq ..).mpr ⟨rfl, ?_, rfl⟩
  simp only [launchLines, List.append_assoc]
  rfl

end Launch

theorem dumpLabels_append (w w' : List TraceLine) :
    dumpLabels (w ++ w') = dumpLabels w ++ dumpLabels w' :=
  List.filterMap_append

section Lines

variable {st : Tracer} {o : Backend} {n : ℕ} {c : HipCall} {f : Ptr} {config : TracerConfig}
variable {dumps force : Bool} {label : String} {bs : List TrackedBuffer}

theorem leveled_plain {level : ℤ} {line : TraceLine} (h : line.isDump = false) :
    NoDump (leveled config level line) := by
  intro x hx
  rw [leveled] at hx
  split at hx
  · rwa [List.mem_singleton.mp hx]
  · exact absurd hx List.not_mem_nil

theorem matchLines_plain : NoDump (matchLines st f) := by
  rw [matchLines]
  cases fullDumpToken st (kernelTableGetName st f) with
  | none => exact fun x hx ↦ absurd hx List.not_mem_nil
  | some token => exact leveled_plain rfl

theorem dumpLines_unlabelled (b : TrackedBuffer) (a : HipAnswer) :
    dumpLabels (dumpLines config force b a) = [] := by
  rw [dumpLines]
  split
  · split <;> rfl
  · split <;> rfl

theorem dumpReport_unlabelled : dumpLabels (dumpReport config force o n bs) = [] := by
  rw [dumpReport, dumpLabels, List.filterMap_flatMap, List.flatMap_eq_nil_iff]
  exact fun p _ ↦ dumpLines_unlabelled p.1 _

theorem aroundLines_labels : dumpLabels (aroundLines st o n dumps force label) =
    if dumps = true ∧ st.config.traceDump ≠ 0 ∧ 3 ≤ st.config.traceLevel then [label] else [] := by
  cases dumps with
  | false => simp [aroundLines, dumpLabels]
  | true =>
    rw [aroundLines, if_pos rfl, dumpOutput]
    by_cases hdump : st.config.traceDump = 0
    · rw [if_pos hdump, if_neg fun h ↦ h.2.1 hdump]
      rfl
    · rw [if_neg hdump, dumpLabels_append, dumpReport_unlabelled, List.append_nil, dumpHeader]
      by_cases hlevel : 3 ≤ st.config.traceLevel
      · rw [if_pos hlevel, if_pos ⟨rfl, hdump, hlevel⟩]
        rfl
      · rw [if_neg hlevel, if_neg fun h ↦ hlevel h.2.2]
        rfl

theorem launchLines_labels : dumpLabels (launchLines st o n c f) =
    if dumpsAround st f = true ∧ st.config.traceDump ≠ 0 ∧ 3 ≤ st.config.traceLevel then
      [beforeLabel st.kernelCount (kernelTableGetName st f),
        afterLabel st.kernelCount (kernelTableGetName st f) (launchAnswer st o n c f).ret]
    else [] := by
  simp only [launchLines, dumpLabels_append, aroundLines_labels, matchLines_plain.labels,
    (leveled_plain rfl : NoDump (leveled st.config 2 (.launching c _))).labels,
    (leveled_plain rfl : NoDump (leveled st.config 2 (.returned _))).labels]
  split <;> rfl

theorem aroundLines_off (h : dumps = false ∨ st.config.traceDump = 0) :
    aroundLines st o n dumps force label = [] := by
  rw [aroundLines]
  split
  case isTrue hdumps => exact if_pos (h.resolve_left (by simp [hdumps]))
  case isFalse => rfl

theorem launchLines_plain (h : dumpsAround st f = false ∨ st.config.traceDump = 0) :
    NoDump (launchLines st o n c f) := by
  rw [launchLines, aroundLines_off h, aroundLines_off h, List.append_nil, List.append_nil]
  exact (matchLines_plain.append (leveled_plain rfl)).append (leveled_plain rfl)

end Lines

namespace Exported

def launches : Exported → Option Ptr
  | routed (.hipModuleLaunchKernel f ..) | routed (.hipLaunchKernel f ..)
    | routed (.hipExtModuleLaunchKernel f ..) =>
    some f
  | _ => none

def registers : Exported → Option KernelInfo
  | routed (.hipRegisterFunction _ hostFun _ deviceName ..) =>
    if hostFun = 0 then none
      else some ⟨hostFun, deviceName.get?.getD ("kernel_" ++ ptrText hostFun)⟩
  | _ => none

end Exported

/-- The tally after a call that launches nothing: the first name of a function stays. -/
def Tally.after (t : Tally) (x : Exported) : Tally :=
  match x.registers with
  | none => t
  | some k =>
    if t.kernels.any fun k' ↦ k'.hostFunc == k.hostFunc then t
    else { t with kernels := t.kernels ++ [k] }

section Calls

variable {present : Present} {direct : PresentDirect}

theorem tracedMalloc_plain (c : HipCall) (p : Ptr) (size : ℕ) (btype : BufferType) :
    WritesOnly (fun x ↦ x.isDump = false) (tracedMalloc present c p size btype) := by
  have hlast : ∀ a line, line.isDump = false → WritesOnly (fun x ↦ x.isDump = false)
      (do traceMsg 2 line; return some (c.result a) : HipM Tracer (Option HipResult)) :=
    fun a line h ↦ .bind (.traceMsg 2 h) fun _ ↦ .pure _
  refine (WritesOnly.unwrapCall present c).orAbort fun a ↦
    .ite (.ite (.bind (.update fun st ↦ ?_) fun _ ↦ ?_) ?_) ?_
  · rw [bufferTableAdd]
    split
    · exact ⟨rfl, [], by simp, by simp⟩
    split
    · refine ⟨message_tally .., _, message_output .., fun x hx ↦ ?_⟩
      split at hx
      · rw [List.mem_singleton.mp hx]
        rfl
      · exact absurd hx List.not_mem_nil
    · exact ⟨rfl, [], by simp, by simp⟩
  all_goals exact hlast _ _ rfl

theorem tracedFree_plain (c : HipCall) (p : Ptr) :
    WritesOnly (fun x ↦ x.isDump = false) (tracedFree present c p) := by
  refine .bind (.update fun st ↦ ?_) fun _ ↦ (WritesOnly.unwrapCall present c).orAbort fun a ↦
    .bind (.traceMsg 2 rfl) fun _ ↦ .pure _
  rw [bufferTableRemove]
  split
  · exact ⟨rfl, [], by simp, by simp⟩
  · split <;> exact ⟨rfl, [], by simp, by simp⟩

theorem reported_plain (c : HipCall) (out : HipAnswer → ℤ) :
    WritesOnly (fun x ↦ x.isDump = false) (reported present c out) :=
  (WritesOnly.unwrapCall present c).orAbort fun _ ↦ .bind (.traceMsg 2 rfl) fun _ ↦ .pure _

theorem export_real_plain (c : HipCall) :
    WritesOnly (fun x ↦ x.isDump = false) (export_ (realTable present) c) := by
  rw [export_, realTable]
  cases present c.symbol with
  | false => exact .pure _
  | true => exact .bind (.call _) fun _ ↦ .pure _

theorem kernelTableAdd_tally (hostFun : Ptr) (deviceName : CStr) (st : Tracer) {x : Exported}
    (hx : x.registers = if hostFun = 0 then none
      else some ⟨hostFun, deviceName.get?.getD ("kernel_" ++ ptrText hostFun)⟩) :
    (kernelTableAdd hostFun deviceName.get? st).tally = st.tally.after x ∧
      (kernelTableAdd hostFun deviceName.get? st).output = st.output := by
  rw [kernelTableAdd, Tally.after, hx]
  by_cases hf : hostFun = 0
  · simp [hf]
  · simp only [hf, if_false]
    split <;> rename_i hany
    · exact ⟨(if_pos hany).symm, rfl⟩
    · exact ⟨(if_neg hany).symm, rfl⟩

/-- A call that launches nothing writes no dump; a registration adds its name. -/
theorem Exported.run_emits {t : Tally} {x : Exported} (hx : x.launches = none) :
    Emits t (x.run present direct) fun _ t' w ↦ t' = t.after x ∧ NoDump w := by
  have hvoid : ∀ c line, line.isDump = false → WritesOnly (fun x ↦ x.isDump = false) (do
      traceMsg 2 line
      orAbort (unwrapCall present c) fun _ ↦ return some HipResult.nothing : HipM Tracer
        (Option HipResult)) :=
    fun c line h ↦ .bind (.traceMsg 2 h) fun _ ↦ (WritesOnly.unwrapCall present c).orAbort
      fun _ ↦ .pure _
  cases x with
  | direct name args =>
    exact (WritesOnly.ite (.bind (.call _) fun _ ↦ .pure _) (.pure _) : WritesOnly _ _) t
  | routed c =>
    cases c with
    | hipModuleLaunchKernel | hipLaunchKernel | hipExtModuleLaunchKernel => cases hx
    | hipMalloc | hipHostMalloc => exact tracedMalloc_plain _ _ _ _ t
    | hipFree | hipHostFree => exact tracedFree_plain _ _ t
    | hipUnregisterFatBinary | hipRegisterVar => exact hvoid _ _ rfl t
    | hipRegisterFunction handle hostFun deviceFun deviceName threadLimit tid bid blockDim
        gridDim wSize =>
      rintro o n st rfl
      obtain ⟨htally, hout⟩ :=
        kernelTableAdd_tally hostFun deviceName st (x := .routed (.hipRegisterFunction handle
        hostFun deviceFun deviceName threadLimit tid bid blockDim gridDim wSize)) rfl
      obtain ⟨w, hw, ht, hn⟩ :=
        hvoid (.hipRegisterFunction handle hostFun deviceFun deviceName threadLimit tid bid
        blockDim gridDim wSize) (.called _ 0 0) rfl _ o n
        (kernelTableAdd hostFun deviceName.get? st) rfl
      exact ⟨w, hw.trans (by rw [hout]), ht.trans htally, hn⟩
    | hipInit | hipGetDevice | hipGetDeviceCount | hipSetDevice | hipDeviceSynchronize | hipMemcpy
    | hipMemcpyAsync | hipMemset | hipMemsetAsync | hipStreamCreate | hipStreamCreateWithFlags
    | hipStreamDestroy | hipStreamSynchronize | hipEventCreate | hipEventCreateWithFlags
    | hipEventDestroy | hipEventRecord | hipEventSynchronize
    | hipRegisterFatBinary => exact reported_plain _ _ t
    | _ => exact export_real_plain _ t

end Calls

abbrev ReturningRuns (present : Present) (direct : PresentDirect) (st₀ st : Tracer)
    (l : ExportLog) : Prop :=
  Runs (Exported.run present direct)
    (fun n st x o ↦ ((x.run present direct).run o n st).val.isSome = true) st₀ st l

section Logs

variable (l : ExportLog)

def launches : ExportLog := l.filter fun e ↦ e.call.launches.isSome

/-- The launches that `should_trace_kernel` lets through. -/
def tracedLaunches : ExportLog :=
  l.filter fun e ↦ e.call.launches.any fun f ↦ shouldTraceKernel e.before
    (kernelTableGetName e.before f)

/-- The launches whose registered name passes a filter. -/
def passingLaunches (filter : Option String) : ExportLog :=
  l.filter fun e ↦ e.call.launches.any fun f ↦ passesFilter filter (kernelTableGetName e.before f)

def registeredName (f : Ptr) : Option String :=
  ((l.filterMap fun e ↦ e.call.registers).find? fun k ↦ k.hostFunc == f).map KernelInfo.name

def cutAt {α : Type} (limit : ℤ) (xs : List α) : List α :=
  if 0 < limit then xs.take limit.toNat else xs

def returnedError (e : ExportEntry) : ℤ :=
  match e.result.val with
  | some (.error ret) => ret
  | _ => 0

/-- The labels of the dumps around the launch with number `i`. -/
def launchLabels (e : ExportEntry) (i : ℕ) : List String :=
  match e.call.launches with
  | none => []
  | some f =>
    [beforeLabel i (kernelTableGetName e.before f), afterLabel i (kernelTableGetName e.before f)
      (returnedError e)]

end Logs

/-- The launch of `f` by `c` with number `i`, from place `n` of the trace on: a synchronization and
a dump of the entries in use before it, and both again after it. The dumps list the entries at every
level and have their header at level 3. -/
def DumpedLaunch (config : TracerConfig) (traceFile : Bool) (o : Backend) (n i : ℕ)
    (e : ExportEntry) (c : HipCall) (f : Ptr) : Prop :=
  let name := kernelTableGetName e.before f
  let full := fullDump e.before f
  let bs := e.before.buffers.used
  let k := n + 1 + bs.length
  let ret := (o k (.call c)).ret
  e.result.val = some (.error ret) ∧
  e.result.events =
    happens o n (.call .hipDeviceSynchronize) :: dumpReads config full o (n + 1) bs ++
      happens o k (.call c) ::
        happens o (k + 1) (.call .hipDeviceSynchronize) :: dumpReads config full o (k + 2) bs ∧
  e.result.state.output = e.before.output ++ if traceFile then
      matchLines e.before f ++
      (dumpHeader config full (beforeLabel i name) e.before.buffers.count ++
        dumpReport config full o (n + 1) bs) ++
      leveled config 2 (.launching c name) ++
      (dumpHeader config full (afterLabel i name ret) e.before.buffers.count ++
        dumpReport config full o (k + 2) bs) ++
      leveled config 2 (.returned ret)
    else []

section Numbering

variable {present : Present} {direct : PresentDirect} {config : TracerConfig}
  {traceFile ownsFile : Bool}
variable {st : Tracer} {l : ExportLog} {x : Exported} {o : Backend} {n : ℕ}

theorem launches_run {f : Ptr} (hx : x.launches = some f) : ∃ c, x = .routed c ∧
    x.run present direct = tracedLaunch present c f ∧ ∀ a, c.result a = .error a.ret := by
  cases x with
  | direct name args => cases hx
  | routed c =>
    cases c with
    | hipModuleLaunchKernel | hipLaunchKernel | hipExtModuleLaunchKernel =>
      obtain rfl := Option.some.inj hx
      exact ⟨_, rfl, rfl, fun _ ↦ rfl⟩
    | _ => cases hx

theorem registers_of_launches {f : Ptr} (hx : x.launches = some f) : x.registers = none := by
  cases x with
  | direct name args => cases hx
  | routed c =>
    cases c with
    | hipRegisterFunction => cases hx
    | _ => rfl

def Named (st : Tracer) (l : ExportLog) : Prop :=
  ∀ f, (st.kernels.find? fun k ↦ k.hostFunc == f) = (l.filterMap fun e ↦ e.call.registers).find?
    fun k ↦ k.hostFunc == f

theorem Named.name (h : Named st l) (f : Ptr) : kernelTableGetName st f = registeredName l f := by
  rw [kernelTableGetName, registeredName, h f]

/-- A second name of a function is never looked at. -/
theorem find?_addKernel (ks : List KernelInfo) (k : KernelInfo) (f : Ptr) :
    ((if (ks.any fun k' ↦ k'.hostFunc == k.hostFunc) = true then ks else ks ++ [k]).find? fun k ↦
      k.hostFunc == f) =
      (ks ++ [k]).find? fun k ↦ k.hostFunc == f := by
  by_cases hany : (ks.any fun k' ↦ k'.hostFunc == k.hostFunc) = true
  · rw [if_pos hany, List.find?_append]
    by_cases hkf : k.hostFunc = f
    · subst hkf
      have hsome : (ks.find? fun k' ↦ k'.hostFunc == k.hostFunc).isSome = true := by
        rw [List.find?_isSome]
        simpa using hany
      obtain ⟨k', hk'⟩ := Option.isSome_iff_exists.mp hsome
      rw [hk', Option.some_or]
    · simp [hkf]
  · rw [if_neg hany]

theorem Named.after {st' : Tracer} {e : ExportEntry} (h : Named st l)
    (hst' : st'.tally = st.tally.after e.call) :
    Named st' (l ++ [e]) := by
  have hkernels : st'.kernels = (st.tally.after e.call).kernels := by
    rw [← hst']
    rfl
  intro f
  rw [hkernels, List.filterMap_append, List.find?_append, ← h f, Tally.after]
  cases hr : e.call.registers with
  | none => simp [hr, Tracer.tally]
  | some k =>
    have hnew : ([e].filterMap fun e ↦ e.call.registers) = [k] := by simp [hr]
    rw [hnew, ← List.find?_append, ← find?_addKernel]
    dsimp only
    split <;> rename_i hany
    · rw [if_pos (show (st.kernels.any fun k' ↦ k'.hostFunc == k.hostFunc) = true from hany)]
      rfl
    · rw [if_neg (show ¬ (st.kernels.any fun k' ↦ k'.hostFunc == k.hostFunc) = true from hany)]
      rfl

theorem Named.launched {st' : Tracer} {e : ExportEntry} {f : Ptr} (h : Named st l)
    (hst' : st'.tally = st.tally.launched f) (hf : e.call.launches = some f) :
    Named st' (l ++ [e]) := by
  have hkernels : st'.kernels = st.kernels := by
    change st'.tally.kernels = _
    rw [hst']
    rfl
  intro f
  rw [hkernels, List.filterMap_append, List.find?_append, ← h f]
  simp [registers_of_launches hf]

theorem cutAt_snoc {α : Type} (limit : ℤ) (xs : List α) (a : α) : cutAt limit (xs ++ [a]) =
    if limit ≤ 0 ∨ ((cutAt limit xs).length : ℤ) < limit then cutAt limit xs ++ [a]
      else cutAt limit xs := by
  by_cases hlimit : 0 < limit
  · rw [cutAt, cutAt, if_pos hlimit, if_pos hlimit, List.take_append, List.length_take]
    by_cases hlt : xs.length < limit.toNat
    · rw [if_pos (by omega),
        List.take_of_length_le (by simp; omega : [a].length ≤ limit.toNat - xs.length)]
    · rw [if_neg (by omega),
        show limit.toNat - xs.length = 0 by omega, List.take_zero, List.append_nil]
  · rw [cutAt, cutAt, if_neg hlimit, if_neg hlimit, if_pos (.inl (Int.not_lt.mp hlimit))]

theorem wrapInt_of_small {k : ℤ} (h₀ : 0 ≤ k) (h : k < 2 ^ 31) : wrapInt k = k := by
  rw [wrapInt, Int.emod_eq_of_lt (by omega) (by omega)]
  omega

theorem tracedLaunches_snoc (e : ExportEntry) : tracedLaunches (l ++ [e]) = tracedLaunches l ++
    if (e.call.launches.any fun f ↦ e.before.tally.traces f) then [e] else [] := by
  simp only [tracedLaunches, List.filter_append, shouldTraceKernel_eq, List.filter_singleton,
    cond_eq_ite]

theorem passingLaunches_snoc (filter : Option String) (e : ExportEntry) :
    passingLaunches (l ++ [e]) filter =
    passingLaunches l filter ++
      if (e.call.launches.any fun f ↦ passesFilter filter (e.before.tally.name f)) then [e]
        else [] := by
  simp only [passingLaunches, List.filter_append, List.filter_singleton, cond_eq_ite]
  rfl

theorem tracedLaunches_length_le (l : ExportLog) :
    (tracedLaunches l).length ≤ (launches l).length := by
  refine (List.monotone_filter_right l fun e he ↦ ?_).length_le
  cases hf : e.call.launches with
  | none => simp [hf] at he
  | some f => rfl

/-- The traced launches so far, their number and the labels of their dumps. -/
structure Numbered (config : TracerConfig) (traceFile : Bool) (st : Tracer) (l : ExportLog) :
    Prop where
  config_eq : st.config = config
  file_eq : st.traceFile = traceFile
  named : Named st l
  traced : tracedLaunches l = cutAt config.kernelCountLimit (passingLaunches l config.kernelFilter)
  count : st.kernelCount = (tracedLaunches l).length
  labels : dumpLabels st.output = if config.traceSync = true ∧ st.tally.Labels then
    (tracedLaunches l).zipIdx.flatMap fun p ↦ launchLabels p.1 p.2 else []

theorem Numbered.other {st' : Tracer} {e : ExportEntry} {w : List TraceLine}
    (h : Numbered config traceFile st l) (he : e.call.launches = none)
    (htally : st'.tally = st.tally.after e.call) (hout : st'.output = st.output ++ w)
    (hw : NoDump w) : Numbered config traceFile st' (l ++ [e]) := by
  have hsame :
      st'.config = st.config ∧ st'.traceFile = st.traceFile ∧ st'.kernelCount = st.kernelCount := by
    have hafter : (st.tally.after e.call).config = st.config ∧
        (st.tally.after e.call).traceFile = st.traceFile ∧
        (st.tally.after e.call).kernelCount = st.kernelCount := by
      rw [Tally.after]
      split
      · exact ⟨rfl, rfl, rfl⟩
      · split <;> exact ⟨rfl, rfl, rfl⟩
    rw [← htally] at hafter
    exact hafter
  have htraced : tracedLaunches (l ++ [e]) = tracedLaunches l := by simp [tracedLaunches_snoc, he]
  have hpassing :
      passingLaunches (l ++ [e]) config.kernelFilter = passingLaunches l config.kernelFilter := by
    simp [passingLaunches_snoc, he]
  have hlabels : st'.tally.Labels ↔ st.tally.Labels := by
    simp only [Tally.Labels, Tracer.tally, hsame.1, hsame.2.1]
  refine ⟨hsame.1.trans h.config_eq, hsame.2.1.trans h.file_eq, h.named.after htally, ?_, ?_, ?_⟩
  · rw [htraced, hpassing, h.traced]
  · rw [htraced, hsame.2.2, h.count]
  · rw [htraced, hout, dumpLabels_append, hw.labels, List.append_nil, h.labels,
      if_congr (and_congr Iff.rfl hlabels) rfl rfl]

theorem Numbered.launch {st' : Tracer} {e : ExportEntry} {w : List TraceLine} {f : Ptr} {ret : ℤ}
    (h : Numbered config traceFile st l) (hbefore : e.before = st) (he : e.call.launches = some f)
    (hret : e.result.val = some (.error ret)) (hcount : (launches (l ++ [e])).length < 2 ^ 31)
    (htally : st'.tally = st.tally.launched f) (hout : st'.output = st.output ++ w)
    (hlabels : dumpLabels w = if st.tally.traces f = true ∧ st.config.traceSync = true ∧
      st.tally.Labels then
      [beforeLabel st.kernelCount (kernelTableGetName st f),
        afterLabel st.kernelCount (kernelTableGetName st f) ret]
      else []) : Numbered config traceFile st' (l ++ [e]) := by
  have hlaunched : st'.config = st.config ∧ st'.traceFile = st.traceFile ∧
      st'.kernelCount = if st.tally.traces f then wrapInt (st.kernelCount + 1)
      else st.kernelCount := by
    change st'.tally.config = _ ∧ st'.tally.traceFile = _ ∧ st'.tally.kernelCount = _
    rw [htally]
    exact ⟨rfl, rfl, rfl⟩
  obtain ⟨hconfig, hfile, hkernels⟩ := hlaunched
  have htraced := tracedLaunches_snoc (l := l) e
  have hpassing := passingLaunches_snoc (l := l) config.kernelFilter e
  rw [he, hbefore, Option.any_some] at htraced hpassing
  have hlength :
      ((cutAt config.kernelCountLimit (passingLaunches l config.kernelFilter)).length : ℤ) =
        st.kernelCount := by
    rw [← h.traced, h.count]
  have htraces : st.tally.traces f = ((decide (config.kernelCountLimit ≤ 0) ||
      decide (st.kernelCount < config.kernelCountLimit)) && passesFilter config.kernelFilter
      (st.tally.name f)) := by
    rw [Tally.traces, ← h.config_eq]
    rfl
  have hlabels' : st'.tally.Labels ↔ st.tally.Labels := by
    simp only [Tally.Labels, Tracer.tally, hconfig, hfile]
  have hout' : dumpLabels st'.output = dumpLabels st.output ++ dumpLabels w := by
    rw [hout, dumpLabels_append]
  rw [h.labels, hlabels, h.config_eq] at hout'
  cases htr : st.tally.traces f with
  | true =>
    rw [htr, if_pos rfl] at htraced hkernels
    rw [htr, eq_comm, Bool.and_eq_true, Bool.or_eq_true, decide_eq_true_eq, decide_eq_true_eq]
      at htraces
    rw [htraces.2, if_pos rfl] at hpassing
    refine ⟨hconfig.trans h.config_eq, hfile.trans h.file_eq, h.named.launched htally he, ?_, ?_,
      ?_⟩
    · rw [htraced, hpassing, cutAt_snoc, hlength, if_pos htraces.1, h.traced]
    · have hle := tracedLaunches_length_le (l ++ [e])
      rw [htraced, List.length_append, List.length_singleton] at hle ⊢
      rw [hkernels, h.count, wrapInt_of_small (by omega) (by omega)]
      rfl
    · rw [hout', if_congr (and_iff_right htr) rfl rfl,
        if_congr (and_congr Iff.rfl hlabels') rfl rfl]
      split
      · rw [htraced, List.zipIdx_append, List.flatMap_append, Nat.zero_add, List.zipIdx_singleton,
          List.flatMap_singleton]
        simp [launchLabels, he, hbefore, returnedError, hret, h.count]
      · rfl
  | false =>
    rw [htr, if_neg Bool.false_ne_true] at hkernels
    rw [htr, if_neg Bool.false_ne_true, List.append_nil] at htraced
    refine ⟨hconfig.trans h.config_eq, hfile.trans h.file_eq, h.named.launched htally he, ?_, ?_,
      ?_⟩
    · rw [htraced, hpassing]
      split
      case isTrue hp =>
        rw [htr, hp, Bool.and_true, eq_comm, Bool.or_eq_false_iff, decide_eq_false_iff_not,
          decide_eq_false_iff_not] at htraces
        rw [cutAt_snoc, hlength, if_neg (not_or.mpr htraces), h.traced]
      case isFalse => rw [List.append_nil, h.traced]
    · rw [htraced, hkernels, h.count]
    · have hno : ¬ (st.tally.traces f = true ∧ config.traceSync = true ∧ st.tally.Labels) :=
        fun h ↦ Bool.false_ne_true (htr.symm.trans h.1)
      rw [hout', if_neg hno, List.append_nil, htraced,
        if_congr (and_congr Iff.rfl hlabels') rfl rfl]

theorem returned_emits (hst : Sized st)
    (hret : ((x.run present direct).run o n st).val.isSome = true) :
    ∃ w, ((x.run present direct).run o n st).state.output = st.output ++ w ∧
      match x.launches with
      | none => ((x.run present direct).run o n st).state.tally = st.tally.after x ∧ NoDump w
      | some f => ∃ ret, ((x.run present direct).run o n st).val = some (.error ret) ∧
        ((x.run present direct).run o n st).state.tally = st.tally.launched f ∧
        (dumpLabels w = if st.tally.traces f = true ∧ st.config.traceSync = true ∧
          st.tally.Labels then
          [beforeLabel st.kernelCount (kernelTableGetName st f),
            afterLabel st.kernelCount (kernelTableGetName st f) ret]
          else []) ∧
        (st.tally.traces f = false ∨ st.config.traceSync = false ∨ st.config.traceDump = 0 →
          NoDump w) := by
  cases hx : x.launches with
  | none => exact Exported.run_emits hx o n st rfl
  | some f =>
    obtain ⟨c, -, hrun, hc⟩ := @launches_run present direct x f hx
    rw [hrun] at hret ⊢
    rw [run_tracedLaunch hst hret]
    refine ⟨if st.traceFile then launchLines st o n c f else [], rfl, _,
      congrArg some (hc _), rfl, ?_, fun hoff ↦ ?_⟩
    · cases hfile : st.traceFile with
      | false =>
        rw [if_neg Bool.false_ne_true, if_neg fun h ↦ Bool.false_ne_true
          (hfile.symm.trans h.2.2.2.2)]
        rfl
      | true =>
        have hlabels :
            (dumpsAround st f = true ∧ st.config.traceDump ≠ 0 ∧ 3 ≤ st.config.traceLevel) ↔
            (st.tally.traces f = true ∧ st.config.traceSync = true ∧ st.tally.Labels) := by
          rw [dumpsAround, Bool.and_eq_true, and_assoc]
          exact and_congr_right' (and_congr_right' (and_congr_right' (and_iff_left hfile).symm))
        rw [if_pos rfl, launchLines_labels, if_congr hlabels rfl rfl]
    · split
      · refine launchLines_plain ?_
        obtain h | h | h := hoff
        · exact .inl (by rw [dumpsAround, h, Bool.false_and])
        · exact .inl (by rw [dumpsAround, h, Bool.and_false])
        · exact .inr h
      · exact fun x hx ↦ absurd hx List.not_mem_nil

theorem dumpReads_length (force : Bool) (bs : List TrackedBuffer) :
    (dumpReads config force o n bs).length = bs.length := by
  simp [dumpReads]

theorem dumpedLaunch {e : ExportEntry} {c : HipCall} {f : Ptr} {i : ℕ} (hst : Sized e.before)
    (hc : ∀ a, c.result a = .error a.ret)
    (hres : e.result = (tracedLaunch present c f).run o n e.before)
    (hret : ((tracedLaunch present c f).run o n e.before).val.isSome = true)
    (hdumps : dumpsAround e.before f = true) (hdump : e.before.config.traceDump ≠ 0)
    (hi : e.before.kernelCount = i) :
    DumpedLaunch e.before.config e.before.traceFile o n i e c f := by
  have hplace : launchPlace e.before o n f = n + 1 + e.before.buffers.used.length := by
    rw [launchPlace, aroundEvents, if_pos hdumps, dumpEvents, if_neg hdump, List.length_cons,
      dumpReads_length]
    omega
  have hlines :
      ∀ n label, aroundLines e.before o n (dumpsAround e.before f) (fullDump e.before f) label =
      dumpHeader e.before.config (fullDump e.before f) label e.before.buffers.count ++
        dumpReport e.before.config (fullDump e.before f) o (n + 1) e.before.buffers.used := by
    intro n label
    rw [aroundLines, if_pos hdumps, dumpOutput, if_neg hdump]
  rw [run_tracedLaunch hst hret] at hres
  rw [DumpedLaunch, hres, ← hplace, ← hi]
  refine ⟨congrArg some (hc _), ?_, ?_⟩
  · rw [launchEvents]
    simp only [aroundEvents, dumpEvents, if_pos hdumps, if_neg hdump, List.cons_append]
  · change e.before.output ++ _ = _
    rw [launchLines, hlines, hlines]
    rfl

theorem noDump_message {level : ℤ} {line : TraceLine} (hline : line.isDump = false)
    (h : NoDump st.output) :
    NoDump (st.message level line).output := by
  rw [message_output]
  refine h.append fun x hx ↦ ?_
  split at hx
  · rwa [List.mem_singleton.mp hx]
  · exact absurd hx List.not_mem_nil

theorem initial_keeps {P : Tracer → Prop}
    (hmsg : ∀ line st, line.isDump = false → P st → P (st.message 1 line)) (hstart : P
      ⟨config, traceFile, 0, ownsFile, ⟨List.replicate maxTrackedBuffers emptyBuffer, 0, 1⟩, [],
        []⟩) :
    P (.initial config traceFile ownsFile) := by
  have hbanner : ∀ st, P st → P ((st.message 1 .initialized).message 1
      (.settings config.traceLevel config.traceSync config.traceDump config.traceDumpMax)) :=
      fun st h ↦
    hmsg _ _ rfl (hmsg _ _ rfl h)
  have hfilter : ∀ st, P st →
      P (config.kernelFilter.elim st fun f ↦ if f = "" then st else st.message 1 (.filter f)) := by
    intro st h
    cases config.kernelFilter with
    | none => exact h
    | some f =>
      rw [Option.elim_some]
      split
      · exact h
      · exact hmsg _ _ rfl h
  have hlimit : ∀ st, P st →
      P (if config.kernelCountLimit > 0 then st.message 1 (.limit config.kernelCountLimit)
      else st) := by
    intro st h
    split
    · exact hmsg _ _ rfl h
    · exact h
  rw [Tracer.initial]
  cases config.kernelFullDumpList with
  | none =>
    have hshown := hlimit _ (hfilter _ (hbanner _ hstart))
    cases hf : config.kernelFilter with
    | none => simpa only [hf, Option.elim_none] using hshown
    | some f => simpa only [hf, Option.elim_some] using hshown
  | some list =>
    have hshown := hlimit _ (hfilter _ (hbanner _ (hmsg (.fullDumpEnabled list) _ rfl hstart)))
    cases hf : config.kernelFilter with
    | none => simpa only [hf, Option.elim_none] using hshown
    | some f => simpa only [hf, Option.elim_some] using hshown

theorem initial_tally :
    (Tracer.initial config traceFile ownsFile).tally = ⟨config, traceFile, [], 0⟩ :=
  initial_keeps (P := fun st ↦ st.tally = ⟨config, traceFile, [], 0⟩)
    (fun _ _ _ h ↦ (message_tally ..).trans h) rfl

theorem sized_runs (h : ReturningRuns present direct (.initial config traceFile ownsFile) st l) :
    Sized st :=
  h.keeps (I := fun st _ ↦ Sized st) (initial_sized config traceFile ownsFile)
    fun _ _ _ _ hst hok ↦ hst.run hok

theorem numbered_runs (h : ReturningRuns present direct (.initial config traceFile ownsFile) st l) :
    (launches l).length < 2 ^ 31 → Numbered config traceFile st l := by
  induction h with
  | start =>
    have htally := @initial_tally config traceFile ownsFile
    have hout : NoDump (Tracer.initial config traceFile ownsFile).output :=
      initial_keeps (P := fun st ↦ NoDump st.output) (fun _ _ hline h ↦ noDump_message hline h)
        (by simp [NoDump])
    simp only [Tracer.tally, Tally.mk.injEq] at htally
    obtain ⟨hconfig, hfile, hkernels, hcount⟩ := htally
    refine fun _ ↦ ⟨hconfig, hfile, fun f ↦ by rw [hkernels]; rfl, ?_, hcount, ?_⟩
    · simp [tracedLaunches, passingLaunches, cutAt]
    · rw [hout.labels]
      split <;> rfl
  | @call st l x o hrun hok ih =>
    intro hcount
    have hprev := ih (by
      refine lt_of_le_of_lt ?_ hcount
      rw [launches, launches, List.filter_append, List.length_append]
      exact Nat.le_add_right _ _)
    obtain ⟨w, hw, hspec⟩ := returned_emits (sized_runs hrun) hok
    cases hx : x.launches with
    | none =>
      rw [hx] at hspec
      exact hprev.other hx hspec.1 hw hspec.2
    | some f =>
      rw [hx] at hspec
      obtain ⟨ret, hval, htally, hlabels, -⟩ := hspec
      exact hprev.launch rfl hx hval hcount htally hw hlabels

/-- The traced launches are those whose registered name passes the filter, up to the limit;
`kernel_count` is their number. With `HIP_TRACE_SYNC` on and headers written, the headers in the
trace are, launch after launch, one before and one after it with its number. A call that is not a
traced launch writes no dump, and without `HIP_TRACE_SYNC` or `HIP_TRACE_DUMP` none does. -/
theorem launches_numbered
    (h : ReturningRuns present direct (.initial config traceFile ownsFile) st l)
    (hcount : (launches l).length < 2 ^ 31) :
    (∀ l₁ e l₂, l = l₁ ++ e :: l₂ → ∀ f, kernelTableGetName e.before f = registeredName l₁ f) ∧
      tracedLaunches l = cutAt config.kernelCountLimit (passingLaunches l config.kernelFilter) ∧
      st.kernelCount = (tracedLaunches l).length ∧
      (dumpLabels st.output =
        if config.traceSync = true ∧ config.traceDump ≠ 0 ∧ 3 ≤ config.traceLevel ∧
        traceFile = true then
          (tracedLaunches l).zipIdx.flatMap fun p ↦ launchLabels p.1 p.2
        else []) ∧
      (∀ l₁ e l₂, l = l₁ ++ e :: l₂ → e ∈ tracedLaunches l → config.traceSync = true →
        config.traceDump ≠ 0 → ∃ o c f, e.call = .routed c ∧ e.call.launches = some f ∧
          DumpedLaunch config traceFile o (trace l₁).length (tracedLaunches l₁).length e c f) ∧
      ∀ e ∈ l, e ∉ tracedLaunches l ∨ config.traceSync = false ∨ config.traceDump = 0 →
        ∃ w, e.result.state.output = e.before.output ++ w ∧ NoDump w := by
  have hnumbered := numbered_runs h hcount
  have hupTo :
      ∀ l₁ e l₂, l = l₁ ++ e :: l₂ → Sized e.before ∧ Numbered config traceFile e.before l₁ ∧ ∃ o,
      ((e.call.run present direct).run o (trace l₁).length e.before).val.isSome = true ∧
        e.result = (e.call.run present direct).run o (trace l₁).length e.before := by
    intro l₁ e l₂ hl
    obtain ⟨hrun, -, o, hok, hres⟩ := h.upTo hl
    refine ⟨sized_runs hrun, numbered_runs hrun (lt_of_le_of_lt ?_ hcount), o, hok, hres⟩
    rw [hl, launches, launches, List.filter_append, List.length_append]
    exact Nat.le_add_right _ _
  refine ⟨fun l₁ e l₂ hl f ↦ (hupTo l₁ e l₂ hl).2.1.named.name f, hnumbered.traced,
    hnumbered.count, ?_, ?_, ?_⟩
  · rw [hnumbered.labels, ← hnumbered.config_eq, ← hnumbered.file_eq]
    rfl
  · intro l₁ e l₂ hl he hsync hdump
    obtain ⟨hsized, hprev, o, hok, hres⟩ := hupTo l₁ e l₂ hl
    obtain ⟨f, hf, htraced⟩ : ∃ f, e.call.launches = some f ∧ e.before.tally.traces f = true := by
      have htraced := (List.mem_filter.mp he).2
      cases hf : e.call.launches with
      | none => simp [hf] at htraced
      | some f =>
        rw [hf, Option.any_some, shouldTraceKernel_eq] at htraced
        exact ⟨f, rfl, htraced⟩
    obtain ⟨c, hcall, hrun, hc⟩ := @launches_run present direct _ f hf
    rw [hrun] at hok hres
    have hdumps : dumpsAround e.before f = true := by
      rw [dumpsAround, htraced, hprev.config_eq, hsync, Bool.and_self]
    have hdumped := dumpedLaunch hsized hc hres hok hdumps (hprev.config_eq ▸ hdump) hprev.count
    rw [hprev.config_eq, hprev.file_eq] at hdumped
    exact ⟨o, c, f, hcall, hf, hdumped⟩
  · intro e he hoff
    obtain ⟨l₁, l₂, hl⟩ := List.append_of_mem he
    obtain ⟨hsized, hprev, o, hok, hres⟩ := hupTo l₁ e l₂ hl
    obtain ⟨w, hw, hspec⟩ := returned_emits hsized hok
    refine ⟨w, by rw [hres]; exact hw, ?_⟩
    cases hx : e.call.launches with
    | none =>
      rw [hx] at hspec
      exact hspec.2
    | some f =>
      rw [hx] at hspec
      obtain ⟨-, -, -, -, hno⟩ := hspec
      refine hno ?_
      rw [hprev.config_eq]
      refine hoff.imp_left fun hnot ↦ ?_
      by_contra htr
      refine hnot (List.mem_filter.mpr ⟨he, ?_⟩)
      rw [hx, Option.any_some, shouldTraceKernel_eq]
      exact Bool.not_eq_false _ ▸ htr

end Numbering

def NeverAborts {σ α : Type} (m : HipM σ (Option α)) : Prop :=
  ∀ o n st, (m.run o n st).val.isSome = true

namespace NeverAborts

variable {σ α β : Type}

theorem pure (a : α) : NeverAborts (Pure.pure (some a) : HipM σ (Option α)) := fun _ _ _ ↦ rfl

theorem bind {m : HipM σ β} {k : β → HipM σ (Option α)} (hk : ∀ b, NeverAborts (k b)) :
    NeverAborts (m >>= k) :=
  fun o _ _ ↦ hk _ o _ _

theorem orAbort {m : HipM σ (Option β)} {k : β → HipM σ (Option α)} (hm : NeverAborts m)
    (hk : ∀ b, NeverAborts (k b)) :
    NeverAborts (Hip.orAbort m k) := by
  intro o n st
  obtain ⟨b, hb⟩ := Option.isSome_iff_exists.mp (hm o n st)
  rw [Hip.orAbort, run_bind, hb]
  exact hk b o _ _

theorem ite {c : Prop} [Decidable c] {m m' : HipM σ (Option α)} (hm : c → NeverAborts m)
    (hm' : ¬ c → NeverAborts m') :
    NeverAborts (if c then m else m') := by
  split
  · exact hm ‹_›
  · exact hm' ‹_›

theorem unwrapCall {present : Present} {c : HipCall} (hc : present c.symbol = true) :
    NeverAborts (Hip.unwrapCall present c : HipM σ _) :=
  ite (fun _ ↦ bind fun _ ↦ pure _) fun h ↦ absurd hc h

end NeverAborts

section Complete

variable {present : Present}

/-- The bytes that were read are as many as the dump shows. -/
theorem reportBuffer_neverAborts (force : Bool) {maxDump : ℕ} {b : TrackedBuffer}
    {data : List UInt8} (h : min b.size maxDump ≤ data.length) :
    NeverAborts (reportBuffer force maxDump b data) := by
  refine .bind fun st ↦ .ite (fun _ ↦ .bind fun _ ↦ .pure _) fun _ ↦ .bind fun _ ↦ ?_
  rw [dumpBufferHex, if_pos h]
  exact .bind fun _ ↦ .pure _

theorem dumpBuffer_neverAborts (hp : present .hipMemcpy = true) (force : Bool) (b : TrackedBuffer) :
    NeverAborts (dumpBuffer present force b) := by
  have hread : ∀ (dumpMax : ℕ) bytes, min b.size (if force then b.size else dumpMax) ≤ (firstBytes
      (if !force && dumpMax > 0 && b.size > dumpMax then dumpMax else b.size) bytes).length := by
    intro dumpMax bytes
    rw [firstBytes_length]
    cases force with
    | true => simp
    | false =>
      by_cases h : dumpMax > 0 ∧ b.size > dumpMax
      · simp [h]
      · simp [h]
  refine .ite (fun _ ↦ .pure _) fun _ ↦ .bind fun st ↦
    .ite (fun _ ↦ .ite (fun h ↦ ?_) fun _ ↦ .bind fun e ↦
    .ite (fun _ ↦ .bind fun _ ↦ .pure _) fun _ ↦ reportBuffer_neverAborts force (hread _ _))
    fun _ ↦ .bind fun e ↦ reportBuffer_neverAborts force (hread _ _)
  simp [hp] at h

theorem dumpBuffers_neverAborts (hp : present .hipMemcpy = true) (force : Bool)
    (bs : List TrackedBuffer) :
    NeverAborts (dumpBuffers present force bs) := by
  induction bs with
  | nil => exact .pure _
  | cons b bs ih => exact (dumpBuffer_neverAborts hp force b).orAbort fun _ ↦ ih

theorem tracedLaunch_neverAborts (hp : ∀ s, present s = true) (c : HipCall) (f : Ptr) :
    NeverAborts (tracedLaunch present c f) := by
  have hdump : ∀ (dumps : Bool) label force,
      NeverAborts (if dumps then syncAndDump present label force else return some ()) :=
      fun dumps label force ↦
    .ite (fun _ ↦ (NeverAborts.unwrapCall (hp _)).orAbort fun _ ↦ .bind fun st ↦
      .ite (fun _ ↦ .pure _) fun _ ↦
      .bind fun _ ↦ dumpBuffers_neverAborts (hp _) force _) fun _ ↦ .pure _
  refine .bind fun st ↦ .bind fun full ↦ (hdump _ _ _).orAbort fun _ ↦ .bind fun _ ↦
    (NeverAborts.unwrapCall (hp _)).orAbort fun a ↦ (hdump _ _ _).orAbort fun _ ↦ ?_
  exact .ite (fun _ ↦ .bind fun _ ↦ .bind fun _ ↦ .pure _) fun _ ↦ .bind fun _ ↦ .pure _

theorem tracedMalloc_neverAborts {c : HipCall} {p : Ptr} {size : ℕ} {btype : BufferType}
    (hp : present c.symbol = true) : NeverAborts (tracedMalloc present c p size btype) :=
  (NeverAborts.unwrapCall hp).orAbort fun _ ↦
    .ite (fun _ ↦ .ite (fun _ ↦ .bind fun _ ↦ .bind fun _ ↦ .pure _)
    fun _ ↦ .bind fun _ ↦ .pure _) fun _ ↦ .bind fun _ ↦ .pure _

end Complete

def syncing (level dump : ℤ) : TracerConfig :=
  { traceLevel := level, traceSync := true, traceDump := dump }

def singleLaunch (level dump : ℤ) (traceFile : Bool) : ExportEntry :=
  entryOf (.initial (syncing level dump) traceFile false) (.routed launchCall) 0

abbrev AllReturning (config : TracerConfig) (traceFile : Bool) (st : Tracer) (l : ExportLog) :
    Prop :=
  ReturningRuns (fun _ ↦ true) (fun _ ↦ true) (.initial config traceFile false) st l

theorem AllReturning.snoc {config : TracerConfig} {traceFile : Bool} {st : Tracer} {l : ExportLog}
    {n : ℕ} (h : AllReturning config traceFile st l) (hn : (trace l).length = n) {x : Exported}
    (hx : NeverAborts (x.run (fun _ ↦ true) fun _ ↦ true)) :
    AllReturning config traceFile (entryOf st x n).result.state (l ++ [entryOf st x n]) := by
  subst hn
  exact h.call x hostBackend (hx _ _ _)

theorem tracedLaunch_returns :
    NeverAborts (tracedLaunch (fun _ ↦ true) launchCall 1) :=
  tracedLaunch_neverAborts (fun _ ↦ rfl) launchCall 1

theorem launch_neverAborts :
    NeverAborts (Exported.run (fun _ ↦ true) (fun _ ↦ true) (.routed launchCall)) := by
  rw [launch_run]
  exact tracedLaunch_returns

theorem singleLaunch_runs (level dump : ℤ) (traceFile : Bool) :
    AllReturning (syncing level dump) traceFile (singleLaunch level dump traceFile).result.state
      [singleLaunch level dump traceFile] :=
  AllReturning.snoc .start rfl launch_neverAborts

theorem singleLaunch_traced (level dump : ℤ) (traceFile : Bool) :
    tracedLaunches [singleLaunch level dump traceFile] = [singleLaunch level dump traceFile] := by
  refine (tracedLaunches_snoc (l := []) _).trans ?_
  have htraces : (Tracer.initial (syncing level dump) traceFile false).tally.traces 1 = true := by
    rw [initial_tally]
    rfl
  rw [singleLaunch, entryOf]
  simp [Exported.launches, launchCall, htraces, tracedLaunches]

theorem singleLaunch_count (level dump : ℤ) (traceFile : Bool) :
    (launches [singleLaunch level dump traceFile]).length < 2 ^ 31 :=
  lt_of_le_of_lt (List.length_filter_le ..) (by simp)

theorem launches_numbered_single :
    dumpLabels (singleLaunch 3 1 true).result.state.output = launchLabels
      (singleLaunch 3 1 true) 0 ∧
      (singleLaunch 3 1 true).result.state.kernelCount = 1 ∧
      ∃ o c f, (singleLaunch 3 1 true).call = .routed c ∧
        (singleLaunch 3 1 true).call.launches = some f ∧
        DumpedLaunch (syncing 3 1) true o 0 0 (singleLaunch 3 1 true) c f := by
  obtain ⟨-, -, hcount, hlabels, hdumped, -⟩ :=
    launches_numbered (singleLaunch_runs 3 1 true) (singleLaunch_count 3 1 true)
  have hmem := List.mem_singleton_self (singleLaunch 3 1 true)
  rw [← singleLaunch_traced 3 1 true] at hmem
  have hfirst := hdumped [] (singleLaunch 3 1 true) [] rfl hmem rfl (by decide)
  rw [singleLaunch_traced] at hcount hlabels
  refine ⟨?_, hcount, hfirst⟩
  rw [hlabels, if_pos ⟨rfl, by decide, by decide, rfl⟩, List.zipIdx_singleton,
    List.flatMap_singleton]

theorem hostAllocated_used : hostAllocated.buffers.used = [⟨4096, 64, .host, true, 1⟩] := by
  rw [BufferTable.used, hostAllocated_buffers, List.filter_cons_of_pos rfl, unused_slots]

theorem launchEntry_returning :
    AllReturning dumping true (launchEntry 1).result.state [mallocEntry, launchEntry 1] := by
  have hreturns :
      NeverAborts (Exported.run (fun _ ↦ true) (fun _ ↦ true) (.routed (.hipHostMalloc 8 64 0))) :=
    tracedMalloc_neverAborts rfl
  have hmalloc : AllReturning dumping true mallocEntry.result.state [mallocEntry] :=
    .snoc .start rfl hreturns
  rw [mallocEntry_state] at hmalloc
  exact hmalloc.snoc mallocEntry_length launch_neverAborts

theorem initial_output (config : TracerConfig) (traceFile : Bool) :
    NoDump (Tracer.initial config traceFile false).output ∧
      (traceFile = false → (Tracer.initial config traceFile false).output = []) := by
  refine ⟨initial_keeps (P := fun st ↦ NoDump st.output) (fun _ _ hline h ↦ noDump_message hline h)
    (by simp [NoDump]), fun hfile ↦ ?_⟩
  refine (initial_keeps (P := fun st ↦ st.traceFile = traceFile ∧ st.output = []) ?_ ⟨rfl, rfl⟩).2
  rintro line st - ⟨hst, hout⟩
  rw [message_output, hst, hfile, if_neg (by simp), hout]
  exact ⟨(congrArg Tally.traceFile (message_tally ..)).trans (hst.trans hfile), rfl⟩

theorem singleLaunch_output (level dump : ℤ) (traceFile : Bool) :
    (singleLaunch level dump traceFile).result.state.output =
      (Tracer.initial (syncing level dump) traceFile false).output ++
        if traceFile then launchLines (.initial (syncing level dump) traceFile false) hostBackend 0
          launchCall 1
        else [] := by
  have hrun := run_tracedLaunch (initial_sized (syncing level dump) traceFile false)
    (tracedLaunch_returns hostBackend 0 _)
  have hfile : (Tracer.initial (syncing level dump) traceFile false).traceFile = traceFile :=
    congrArg Tally.traceFile initial_tally
  rw [singleLaunch, entryOf, launch_run, hrun]
  change _ ++
    (if (Tracer.initial (syncing level dump) traceFile false).traceFile = true then _ else _) = _
  rw [hfile]

theorem launchEntry_lists :
    TraceLine.dumpEntry ⟨4096, 64, .host, true, 1⟩ ∈ (launchEntry 1).result.state.output := by
  have hsized : Sized hostAllocated := by
    rw [Sized, hostAllocated_used]
    simp
  have hrun := run_tracedLaunch hsized (tracedLaunch_returns hostBackend 1 _)
  have hdumps : dumpsAround hostAllocated 1 = true := rfl
  have hfull : fullDump hostAllocated 1 = false := rfl
  rw [launchEntry, entryOf, launch_run, hrun]
  refine List.mem_append_right _ (List.mem_append_left _ (List.mem_append_right _ ?_))
  rw [hdumps, hfull, aroundLines, if_pos rfl, dumpOutput, hostAllocated_used]
  exact List.mem_append_right _ List.mem_cons_self

/-- With `HIP_TRACE_SYNC` on, a traced launch makes no dump while `HIP_TRACE_DUMP` is 0, lists the
buffers without a label below level 3, and writes nothing without a trace file. -/
theorem launch_without_label :
    (AllReturning (syncing 3 0) true (singleLaunch 3 0 true).result.state [singleLaunch 3 0 true] ∧
      tracedLaunches [singleLaunch 3 0 true] = [singleLaunch 3 0 true] ∧
      NoDump (singleLaunch 3 0 true).result.state.output) ∧
    (AllReturning dumping true (launchEntry 1).result.state [mallocEntry, launchEntry 1] ∧
      tracedLaunches [mallocEntry, launchEntry 1] = [launchEntry 1] ∧
      TraceLine.dumpEntry ⟨4096, 64, .host, true, 1⟩ ∈ (launchEntry 1).result.state.output ∧
      dumpLabels (launchEntry 1).result.state.output = []) ∧
    AllReturning (syncing 3 1) false (singleLaunch 3 1 false).result.state
      [singleLaunch 3 1 false] ∧
      tracedLaunches [singleLaunch 3 1 false] = [singleLaunch 3 1 false] ∧
      (singleLaunch 3 1 false).result.state.output = [] := by
  refine ⟨⟨singleLaunch_runs 3 0 true, singleLaunch_traced 3 0 true, ?_⟩,
    ⟨launchEntry_returning, ?_, ?_, ?_⟩, singleLaunch_runs 3 1 false,
    singleLaunch_traced 3 1 false, ?_⟩
  · have hconfig : (Tracer.initial (syncing 3 0) true false).config = syncing 3 0 :=
      congrArg Tally.config (@initial_tally (syncing 3 0) true false)
    rw [singleLaunch_output, if_pos rfl]
    exact (initial_output (syncing 3 0) true).1.append
      (launchLines_plain (.inr (by rw [hconfig]; rfl)))
  · rfl
  · exact launchEntry_lists
  · have hnumbered := numbered_runs launchEntry_returning
      (lt_of_le_of_lt (List.length_filter_le ..) (by simp))
    rw [hnumbered.labels, if_neg]
    rintro ⟨-, -, hlevel, -⟩
    rw [Tracer.tally, hnumbered.config_eq] at hlevel
    exact absurd hlevel (by decide)
  · rw [singleLaunch_output, (initial_output (syncing 3 1) false).2 rfl]
    rfl

end HrxSystem.Hip
