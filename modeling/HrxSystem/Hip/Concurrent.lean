import HrxSystem.Hip.FreedMemory
import HrxSystem.Hip.Transparency
import HrxSystem.Threads.Logs

namespace HrxSystem.Hip

open External Program Threads

section Cuts

variable {σ α β : Type} {P : ∀ {α : Type}, Flow HipRequest HipAnswer σ α → Prop} [Closed P]

def orAbortCut {m : HipM σ (Option α)} {k : α → HipM σ (Option β)} (w : Cut P m)
    (v : ∀ a, Cut P (k a)) :
    Cut P (orAbort m k) where
  flow := w.flow.bind fun r ↦ r.elim (.done none) fun a ↦ (v a).flow
  fits := by
    refine Closed.bind w.fits fun r ↦ ?_
    cases r with
    | none => exact Closed.done none
    | some a => exact (v a).fits
  program := by
    rw [Flow.program_bind, w.program]
    refine congrArg (m >>= ·) (funext fun r ↦ ?_)
    cases r with
    | none => rfl
    | some a => exact (v a).program

def forwardCut {γ : Type} (r : HipRequest) (g : HipAnswer → γ) :
    Cut P (Program.call r >>= fun e ↦ pure (g e.answer) : HipM σ γ) :=
  Cut.call r fun a ↦ Cut.pure (g a)

def unwrapCut (present : Present) (c : HipCall) : Cut P (unwrapCall (σ := σ) present c) :=
  Cut.ite (forwardCut (.call c) some) (Cut.pure none)

def realCut (present : Present) (c : HipCall) : Cut P (export_ (σ := σ) (realTable present) c) where
  flow := if present c.symbol then .call (.call c) fun a ↦ .done (some (c.result a))
    else .done (some c.missing)
  fits := by
    split
    · exact Closed.call fun _ ↦ Closed.done _
    · exact Closed.done _
  program := by
    rw [export_, realTable]
    split <;> rfl

def Exported.through (table : HipFunctionTable σ) (direct : PresentDirect) :
    Exported → HipM σ (Option HipResult)
  | .routed c => export_ table c
  | .direct name args =>
    if direct name then do
      let e ← call (.pass name args)
      return some (.error e.answer.ret)
    else return some (.error 1)

def directCut (table : HipFunctionTable σ) (direct : PresentDirect) (name : String)
    (args : List Ptr) :
    Cut P (Exported.through table direct (.direct name args)) :=
  Cut.ite (forwardCut (.pass name args) fun a ↦ some (HipResult.error a.ret)) (Cut.pure _)

end Cuts

section Tracer

variable (present : Present)

def messageCut (level : ℤ) (line : TraceLine) : Cut Unlocked (traceMsg level line) :=
  Unlocked.updateCut _

def rawCut (line : TraceLine) : Cut Unlocked (rawWrite line) := Unlocked.updateCut _

def reportBufferCut (force : Bool) (maxDump : ℕ) (b : TrackedBuffer) (data : List UInt8) :
    Cut Unlocked (reportBuffer force maxDump b data) :=
  Unlocked.stateCut fun _ ↦ Cut.ite ((rawCut _).bind fun _ ↦ Cut.pure _) <|
    (rawCut _).bind fun _ ↦ Cut.option (f := fun text ↦ match text with
      | none => pure none
      | some text => rawWrite (.dumpHex text) >>= fun _ ↦ pure (some ())) _ (Cut.pure none) fun _ ↦
        (rawCut _).bind fun _ ↦ Cut.pure (some ())

def stageCut (force : Bool) (b : TrackedBuffer) (maxDump readSize : ℕ) :
    Cut Unlocked (Program.call (.stage b.ptr readSize) >>= fun e ↦
      if e.answer.ret ≠ 0 then traceMsg 1 (.dumpFailed b e.answer.ret) >>= fun _ ↦ pure (some ())
      else reportBuffer force maxDump b (firstBytes readSize e.answer.bytes) :
      HipM Tracer (Option Unit)) :=
  Cut.call
    (k := fun a : HipAnswer ↦
      if a.ret ≠ 0 then traceMsg 1 (.dumpFailed b a.ret) >>= fun _ ↦ pure (some ())
      else reportBuffer force maxDump b (firstBytes readSize a.bytes))
    (HipRequest.stage b.ptr readSize) fun _ ↦
    Cut.ite ((messageCut _ _).bind fun _ ↦ Cut.pure _) (reportBufferCut force maxDump b _)

def readCut (force : Bool) (b : TrackedBuffer) (maxDump readSize : ℕ) :
    Cut Unlocked (Program.call (.read b.ptr readSize) >>= fun e ↦
      reportBuffer force maxDump b (firstBytes readSize e.answer.bytes) :
      HipM Tracer (Option Unit)) :=
  Cut.call (k := fun a : HipAnswer ↦ reportBuffer force maxDump b (firstBytes readSize a.bytes))
    (HipRequest.read b.ptr readSize) fun _ ↦ reportBufferCut force maxDump b _

def dumpBufferCut (force : Bool) (b : TrackedBuffer) : Cut Unlocked (dumpBuffer present force b) :=
  Cut.ite (Cut.pure _) <| Unlocked.stateCut fun _ ↦
    Cut.ite (Cut.ite (Cut.pure none) (stageCut force b _ _)) (readCut force b _ _)

def dumpBuffersCut (force : Bool) :
    (bs : List TrackedBuffer) → Cut Unlocked (dumpBuffers present force bs)
  | [] => Cut.pure _
  | b :: bs => orAbortCut (dumpBufferCut present force b) fun _ ↦ dumpBuffersCut force bs

def dumpAllBuffersExCut (label : String) (force : Bool) :
    Cut Unlocked (dumpAllBuffersEx present label force) :=
  Unlocked.stateCut fun st ↦ Cut.ite (Cut.pure _) <|
    (messageCut 3 (.dumpHeader label st.buffers.count force)).bind fun _ ↦
    dumpBuffersCut present force st.buffers.buffers

def shouldFullDumpKernelCut (kernelName : Option String) :
    Cut Unlocked (shouldFullDumpKernel kernelName) :=
  Unlocked.stateCut fun st ↦ Cut.option (f := fun token ↦ match token with
    | none => pure false
    | some token => traceMsg 3 (.fullDumpMatch (kernelName.getD "") token) >>= fun _ ↦ pure true)
    (fullDumpToken st kernelName) (Cut.pure false) fun _ ↦ (messageCut _ _).bind
      fun _ ↦ Cut.pure true

def reportedCut (c : HipCall) (out : HipAnswer → ℤ) : Cut Unlocked (reported present c out) :=
  orAbortCut (unwrapCut present c) fun _ ↦ (messageCut _ _).bind fun _ ↦ Cut.pure _

def tracedMallocCut (c : HipCall) (ptr : Ptr) (size : ℕ) (btype : BufferType) :
    Cut Unlocked (tracedMalloc present c ptr size btype) :=
  orAbortCut (unwrapCut present c) fun _ ↦
    have last := fun _ : Unit ↦ (messageCut _ _).bind fun _ ↦ Cut.pure _
    Cut.ite (Cut.ite ((Unlocked.updateCut _).bind last) (last ())) (last ())

def tracedFreeCut (c : HipCall) (ptr : Ptr) : Cut Unlocked (tracedFree present c ptr) :=
  (Unlocked.updateCut _).bind fun _ ↦ orAbortCut (unwrapCut present c) fun _ ↦
    (messageCut _ _).bind fun _ ↦ Cut.pure _

def syncAndDumpCut (label : String) (force : Bool) :
    Cut Unlocked (syncAndDump present label force) :=
  orAbortCut (unwrapCut present _) fun _ ↦ dumpAllBuffersExCut present label force

def tracedLaunchCut (c : HipCall) (f : Ptr) : Cut Unlocked (tracedLaunch present c f) :=
  Unlocked.stateCut fun _ ↦ (shouldFullDumpKernelCut _).bind fun doFull ↦
    orAbortCut (Cut.ite (syncAndDumpCut present _ doFull) (Cut.pure _)) fun _ ↦
    (messageCut _ _).bind fun _ ↦
      orAbortCut (unwrapCut present c) fun _ ↦
        orAbortCut (Cut.ite (syncAndDumpCut present _ doFull) (Cut.pure _)) fun _ ↦
          Cut.ite ((Unlocked.updateCut _).bind fun _ ↦ (messageCut _ _).bind fun _ ↦ Cut.pure _)
            ((messageCut _ _).bind fun _ ↦ Cut.pure _)

/-- What the tracer's wrappers do between taking `STATE` and giving it back. -/
def tracerCut : (c : HipCall) → Cut Unlocked (export_ (tracerTable present) c)
  | .hipInit _ | .hipGetDevice _ | .hipGetDeviceCount _ | .hipSetDevice _ | .hipDeviceSynchronize
  | .hipMemcpy .. | .hipMemcpyAsync .. | .hipMemset .. | .hipMemsetAsync .. | .hipStreamCreate _
  | .hipStreamCreateWithFlags .. | .hipStreamDestroy _ | .hipStreamSynchronize _ | .hipEventCreate _
  | .hipEventCreateWithFlags .. | .hipEventDestroy _ | .hipEventRecord .. | .hipEventSynchronize _
  | .hipRegisterFatBinary _ => reportedCut present _ _
  | .hipMalloc .. | .hipHostMalloc .. => tracedMallocCut present _ _ _ _
  | .hipFree _ | .hipHostFree _ => tracedFreeCut present _ _
  | .hipModuleLaunchKernel .. | .hipLaunchKernel .. | .hipExtModuleLaunchKernel .. =>
    tracedLaunchCut present _ _
  | .hipUnregisterFatBinary _ | .hipRegisterVar .. =>
    (messageCut _ _).bind fun _ ↦ orAbortCut (unwrapCut present _) fun _ ↦ Cut.pure _
  | .hipRegisterFunction .. =>
    (Unlocked.updateCut _).bind fun _ ↦ (messageCut _ _).bind fun _ ↦
      orAbortCut (unwrapCut present _) fun _ ↦ Cut.pure _
  | .hipDriverGetVersion _ | .hipRuntimeGetVersion _ | .hipDeviceReset | .hipGetDeviceProperties ..
  | .hipDeviceGetAttribute .. | .hipDeviceGetName .. | .hipMemGetInfo .. | .hipStreamQuery _
  | .hipStreamWaitEvent .. | .hipEventQuery _ | .hipEventElapsedTime .. | .hipModuleLoad ..
  | .hipModuleLoadData .. | .hipModuleUnload _ | .hipModuleGetFunction .. | .hipModuleGetGlobal ..
  | .hipGetErrorString _ | .hipGetErrorName _ | .hipGetLastError | .hipPeekAtLastError =>
    realCut present _

variable (direct : PresentDirect)

/-- The steps of an exported call with the tracer. A wrapper holds `STATE` from its first step to
its last. -/
def tracerFlow : Exported → Flow HipRequest HipAnswer Tracer (Option HipResult)
  | .routed c =>
    if Interceptor.tracer.wraps c.symbol then .acquire (unlocking (tracerCut present c).flow)
    else (realCut (P := Stateless) present c).flow
  | .direct name args => (directCut (P := Stateless) (tracerTable present) direct name args).flow

variable {present direct}

theorem tracerFlow_kind (x : Exported) :
    Bracketed (tracerFlow present direct x) ∨ Stateless (tracerFlow present direct x) := by
  cases x with
  | routed c =>
    rw [tracerFlow]
    split
    · exact .inl ⟨(tracerCut present c).fits⟩
    · exact .inr (realCut (P := Stateless) present c).fits
  | direct name args =>
    exact .inr (directCut (P := Stateless) (tracerTable present) direct name args).fits

theorem tracerFlow_orderly (x : Exported) : Orderly false (tracerFlow present direct x) := by
  obtain hw | hw := @tracerFlow_kind present direct x
  · exact hw.orderly
  · exact hw.orderly

theorem tracerFlow_program (x : Exported) :
    (tracerFlow present direct x).program = x.run present direct := by
  cases x with
  | routed c =>
    have hslot := @Interceptor.activeTable_slot present .tracer c
    rw [tracerFlow]
    split
    · rw [Flow.program, unlocking, Flow.program_bind, (tracerCut present c).program]
      exact ext_run fun o n st ↦ by simp [Exported.run, Flow.program]
    · rename_i hw
      have hreal : tracerTable present c = realTable present c := ((if_neg hw).mp hslot).1
      rw [(realCut present c).program, Exported.run, export_, export_, hreal]
  | direct name args =>
    exact (directCut (P := Stateless) (tracerTable present) direct name args).program

instance : Inhabited HipAnswer := ⟨{}⟩

variable {T : Type} [DecidableEq T] {st₀ : Tracer}
  {ls : List (T × Finished HipRequest HipAnswer (Option HipResult) Exported)}
variable {p : Turns T HipRequest HipAnswer Tracer (Option HipResult) Exported}

/-- However the threads of an application take turns, their calls have the effect that they have one
after the other: in the order in which they return, they are calls of a single thread that get the
same answers and the same results, and while nobody holds `STATE` the tracer is in the state that
this leads to. -/
theorem traced_calls_atomic (h : Turns.Run (tracerFlow present direct) st₀ ls p) :
    ∃ st l, ExportRuns present direct st₀ st l ∧ l.map Entry.finished = ls.map Prod.snd ∧
      (p.owner = none → p.state = st) := by
  obtain ⟨st, hseq⟩ := Sequential.of_run tracerFlow_kind h
  obtain ⟨l, hl, hls⟩ := hseq.run
  simp only [tracerFlow_program] at hl
  exact ⟨st, l, hl, hls, hseq.free⟩

theorem traced_calls_atomic_two :
    ∃ st l, ExportRuns (fun _ ↦ true) (fun _ ↦ true) (.initial {} true false) st l ∧
      l.map Entry.finished =
        [⟨.routed .hipGetLastError, [(.call .hipGetLastError, {})], some (.error 0)⟩,
        ⟨.routed (.hipInit 0), [(.call (.hipInit 0), { ret := 3 })], some (.error 3)⟩] ∧
      st = (Tracer.initial {} true false).message 2 (.called (.hipInit 0) 0 3) := by
  have hstart : Turns.Run (T := Bool) (tracerFlow (fun _ ↦ true) fun _ ↦ true)
      (.initial {} true false) [] _ := .start
  have hlocked := (hstart.begin false (.routed (.hipInit 0)) rfl).step (i := false) rfl .acquire
  -- A function that is not wrapped passes while the wrapper of another is at work.
  have hpassed :=
    (hlocked.begin true (.routed .hipGetLastError) rfl).step (i := true) rfl (.call {})
  have hcalled := hpassed.step (i := false) rfl (.call { ret := 3 })
  have hreturned := (hcalled.step (i := false) rfl .update).step (i := false) rfl .release
  obtain ⟨st, l, hl, hls, hst⟩ := traced_calls_atomic hreturned
  exact ⟨st, l, hl, hls, (hst rfl).symm⟩

end Tracer

section Logger

def Logger.settings (st : Logger) : Bool × ℤ := (st.file, st.level)

/-- Flows that take `LOG` for a message only. -/
abbrev Logging {α : Type} (w : Flow HipRequest HipAnswer Logger α) : Prop :=
  Writes Logger.settings Logger.output w

/-- `log_msg` between taking `LOG` and giving it back: it looks at the settings, and puts its line
where it has found the end of the log. -/
def logMsgCut (level : ℤ) (line : LogLine) : Cut Unlocked (logMsg level line) where
  flow := .state fun st ↦
    if level > st.level || !st.file then .done ()
    else .state fun st ↦ .update (fun st' ↦ { st' with output := st.output ++ [line] }) (.done ())
  fits := by
    refine .state fun st ↦ ?_
    split
    · exact .done ()
    · exact .state fun _ ↦ .update (.done ())
  program := by
    refine ext_run fun o n st ↦ ?_
    by_cases h : st.level < level ∨ st.file = false
    · simp [Flow.program, logMsg, Logger.message, h]
    · simp [Flow.program, logMsg, Logger.message, h]

def messageLines (level : ℤ) (line : LogLine) (settings : Bool × ℤ) : List LogLine :=
  if level > settings.2 || !settings.1 then [] else [line]

theorem logMsg_appends (level : ℤ) (line : LogLine) :
    Appends Logger.settings Logger.output (messageLines level line)
      (logMsgCut level line).flow := by
  refine fun st ↦ .state ⟨rfl, List.prefix_rfl⟩ ?_
  by_cases h : (decide (level > st.level) || !st.file) = true
  · rw [if_pos h]
    exact .done ⟨rfl, List.prefix_rfl⟩ (by simp [messageLines, Logger.settings, h])
  · rw [if_neg h]
    refine .state ⟨rfl, List.prefix_rfl⟩ <| .update ⟨rfl, List.prefix_rfl⟩ <| .done
      ⟨rfl, List.prefix_append _ _⟩ ?_
    simp [messageLines, Logger.settings, h]

def lockedMsgCut (level : ℤ) (line : LogLine) : Cut Logging (logMsg level line) :=
  Writes.cut (logMsgCut level line) (logMsg_appends level line)

variable (present : Present)

def loggedCut (c : HipCall) (out out₂ : HipAnswer → ℤ) : Cut Logging (logged present c out out₂) :=
  orAbortCut (unwrapCut present c) fun _ ↦ (lockedMsgCut _ _).bind fun _ ↦ Cut.pure _

def loggedPropertiesCut (prop : Ptr) (deviceId : ℤ) :
    Cut Logging (loggedProperties present prop deviceId) :=
  orAbortCut (unwrapCut present _) fun a ↦ (lockedMsgCut _ _).bind fun _ ↦ Cut.ite
    (Cut.option (f := fun name ↦ match name with
      | none => pure none
      | some name =>
        logMsg 2 (.deviceProps name) >>= fun _ ↦ logMsg 2 .devicePropsHint >>= fun _ ↦
        pure (some (HipResult.error a.ret)))
      (cstr prop a.text) (Cut.pure none) fun _ ↦
        (lockedMsgCut _ _).bind fun _ ↦ (lockedMsgCut _ _).bind fun _ ↦ Cut.pure _)
    (Cut.pure _)

def loggedNameCut (name : Ptr) (len deviceId : ℤ) :
    Cut Logging (loggedName present name len deviceId) :=
  orAbortCut (unwrapCut present _) fun a ↦ Cut.option (f := fun text ↦ match text with
    | none => pure none
    | some text =>
      logMsg 2 (.called (.hipDeviceGetName name len deviceId) 0 0 (some text) a.ret) >>= fun _ ↦
      pure (some (HipResult.error a.ret)))
    (cstr name a.text) (Cut.pure none) fun _ ↦ (lockedMsgCut _ _).bind fun _ ↦ Cut.pure _

def loggedErrorCut (c : HipCall) : Cut Logging (loggedError present c) :=
  orAbortCut (unwrapCut present c) fun _ ↦ (lockedMsgCut _ _).bind fun _ ↦ Cut.pure _

def loggedBeforeCut (c : HipCall) (text : Option String) :
    Cut Logging (loggedBefore present c text) :=
  (lockedMsgCut _ _).bind fun _ ↦ orAbortCut (unwrapCut present c) fun _ ↦ Cut.pure _

def loggingCut : (c : HipCall) → Cut Logging (export_ (loggingTable present) c)
  | .hipInit _ | .hipDriverGetVersion _ | .hipRuntimeGetVersion _ | .hipGetDevice _
    | .hipGetDeviceCount _ | .hipSetDevice _
  | .hipDeviceSynchronize | .hipDeviceGetAttribute .. | .hipMemGetInfo .. | .hipMalloc ..
  | .hipFree _ | .hipHostMalloc .. | .hipHostFree _ | .hipMemcpy .. | .hipMemcpyAsync ..
  | .hipMemset .. | .hipMemsetAsync .. | .hipStreamCreate _ | .hipStreamCreateWithFlags ..
  | .hipStreamDestroy _ | .hipStreamSynchronize _ | .hipStreamQuery _ | .hipStreamWaitEvent ..
  | .hipEventCreate _ | .hipEventCreateWithFlags .. | .hipEventDestroy _ | .hipEventRecord ..
  | .hipEventSynchronize _ | .hipEventQuery _ | .hipEventElapsedTime .. | .hipModuleLaunchKernel ..
  | .hipExtModuleLaunchKernel .. | .hipLaunchKernel .. | .hipRegisterFatBinary _ =>
    loggedCut present _ _ _
  | .hipGetDeviceProperties prop id => loggedPropertiesCut present prop id
  | .hipDeviceGetName name len id => loggedNameCut present name len id
  | .hipGetLastError | .hipPeekAtLastError => loggedErrorCut present _
  | .hipUnregisterFatBinary _ | .hipRegisterFunction .. | .hipRegisterVar .. =>
    loggedBeforeCut present _ _
  | .hipDeviceReset | .hipModuleLoad .. | .hipModuleLoadData .. | .hipModuleUnload _
  | .hipModuleGetFunction .. | .hipModuleGetGlobal .. | .hipGetErrorString _
  | .hipGetErrorName _ => realCut present _

variable (direct : PresentDirect)

/-- The steps of an exported call with the logger. `LOG` is taken for each message. -/
def loggingFlow : Exported → Flow HipRequest HipAnswer Logger (Option HipResult)
  | .routed c => (loggingCut present c).flow
  | .direct name args => (directCut (P := Logging) (loggingTable present) direct name args).flow

variable {present direct}

theorem loggingFlow_writes (x : Exported) : Logging (loggingFlow present direct x) := by
  cases x with
  | routed c => exact (loggingCut present c).fits
  | direct name args =>
    exact (directCut (P := Logging) (loggingTable present) direct name args).fits

theorem loggingFlow_program (x : Exported) :
    (loggingFlow present direct x).program = x.through (loggingTable present) direct := by
  cases x with
  | routed c => exact (loggingCut present c).program
  | direct name args =>
    exact (directCut (P := Logging) (loggingTable present) direct name args).program

variable {T : Type} [DecidableEq T] {st₀ : Logger}
  {ls : List (T × Finished HipRequest HipAnswer (Option HipResult) Exported)}
variable {p : Turns T HipRequest HipAnswer Logger (Option HipResult) Exported}

/-- However the threads of an application take turns, the log consists of whole lines of theirs:
none is lost, none is written twice, and a thread between two calls has written what it would have
written alone, with the same answers from the backend, and in that order. -/
theorem log_lines_merged (h : Turns.Run (loggingFlow present direct) st₀ ls p) :
    ∃ marks : List (T × LogLine), p.state.output = st₀.output ++ marks.map Prod.snd ∧
      ∀ i, p.phase i = .idle →
      ∃ st l, Runs (Exported.through (loggingTable present) direct) (fun _ _ _ _ ↦ True) st₀ st l ∧
        l.map Entry.finished = own i ls ∧ st.output = st₀.output ++ own i marks := by
  obtain ⟨marks, r, hmerged⟩ := Merged.of_run loggingFlow_writes h
  obtain ⟨marks', hlog, hown⟩ := hmerged.log
  refine ⟨marks', hlog, fun i hidle ↦ ?_⟩
  obtain ⟨s, t, hi, halone⟩ := hmerged.each i
  rw [hidle] at halone
  obtain rfl : s = t := by
    cases halone with
    | idle _ heq => exact heq
  obtain ⟨l, hl, hls⟩ := hi.run
  simp only [loggingFlow_program] at hl
  exact ⟨s, l, hl, hls, by rw [hi.logs, hown i hidle]⟩

theorem log_lines_merged_two :
    ∃ marks : List (Bool × LogLine),
      marks.map Prod.snd = [.called (.hipInit 0) 0 0 none 3, .called .hipGetLastError 0 0 none 7] ∧
      ∃ st l, Runs (Exported.through (loggingTable fun _ ↦ true) fun _ ↦ true) (fun _ _ _ _ ↦ True)
          (.initial true 2 false) st l ∧
        l.map Entry.finished =
          [⟨.routed .hipGetLastError, [(.call .hipGetLastError, { ret := 7 })], some (.error 7)⟩] ∧
        st.output = .initialized 2 :: own true marks := by
  have hstart : Turns.Run (T := Bool) (loggingFlow (fun _ ↦ true) fun _ ↦ true)
      (.initial true 2 false) [] _ := .start
  have hcalled :=
    (hstart.begin false (.routed (.hipInit 0)) rfl).step (i := false) rfl (.call { ret := 3 })
  have hlocked := hcalled.step (i := false) rfl .acquire
  -- The second thread has its answer and waits for the lock.
  have hwaits :=
    (hlocked.begin true (.routed .hipGetLastError) rfl).step (i := true) rfl (.call { ret := 7 })
  have hends := (hwaits.step (i := false) rfl .state).step (i := false) rfl .state
  have hwritten := (hends.step (i := false) rfl .update).step (i := false) rfl .release
  have hlocked' := hwritten.step (i := true) rfl .acquire
  have hends' := (hlocked'.step (i := true) rfl .state).step (i := true) rfl .state
  have hreturned := (hends'.step (i := true) rfl .update).step (i := true) rfl .release
  obtain ⟨marks, hmarks, heach⟩ := log_lines_merged hreturned
  obtain ⟨st, l, hl, hls, hout⟩ := heach true rfl
  exact ⟨marks, (List.cons.inj hmarks).2.symm, st, l, hl, hls, hout⟩

end Logger

end HrxSystem.Hip
