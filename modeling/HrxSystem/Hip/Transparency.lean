import HrxSystem.Hip.Intercept
import HrxSystem.Hip.LiveBuffers
import HrxSystem.Hip.Logging

namespace HrxSystem.Hip

open External Program

section Forwarding

variable {σ α β : Type} {R : σ → Prop} {P : α → Prop} {Q : β → Prop} {present : Present}
  {c : HipCall}
variable {readable : HipAnswer → Bool} {m : HipM σ α} {k : α → HipM σ β}
  {f : HipM σ (Option HipResult)}

/-- A program that keeps to itself, stays among the states with `R` and returns a value with `P`. -/
def Silent (R : σ → Prop) (P : α → Prop) (m : HipM σ α) : Prop :=
  ∀ o n st, R st → R (m.run o n st).state ∧ (m.run o n st).events = [] ∧ P (m.run o n st).val

theorem Silent.pure {a : α} (ha : P a) : Silent R P (Pure.pure a : HipM σ α) := by
  intro o n st hst
  simpa using ⟨hst, ha⟩

theorem Silent.update {g : σ → σ} (hg : ∀ st, R st → R (g st)) :
    Silent R (fun _ ↦ True) (Program.update g) := by
  intro o n st hst
  simpa using hg st hst

theorem Silent.state : Silent R R (Program.state : HipM σ σ) := by
  intro o n st hst
  simpa using hst

theorem Silent.bind (hm : Silent R P m) (hk : ∀ a, P a → Silent R Q (k a)) :
    Silent R Q (m >>= k) := by
  intro o n st hst
  obtain ⟨hs, he, hv⟩ := hm o n st hst
  obtain ⟨hs', he', hv'⟩ := hk _ hv o (n + (m.run o n st).events.length) _ hs
  refine ⟨hs', ?_, hv'⟩
  rw [run_bind, Outcome.after_events, he', he, List.append_nil]

theorem Silent.ite {p : Prop} [Decidable p] {m' : HipM σ α} (hm : p → Silent R P m)
    (hm' : ¬ p → Silent R P m') :
    Silent R P (if p then m else m') := by
  split
  · exact hm ‹_›
  · exact hm' ‹_›

/-- A wrapper that makes its own call once and returns what came back, unless it aborts: for want of
the symbol, or over an answer that is not readable. -/
def Forwards (R : σ → Prop) (readable : HipAnswer → Bool) (present : Present) (c : HipCall)
    (f : HipM σ (Option HipResult)) : Prop :=
  ∀ o n st, R st → R (f.run o n st).state ∧
    (present c.symbol = true → (f.run o n st).events = [happens o n (.call c)] ∧
      (f.run o n st).val = if readable (o n (.call c)) then some (c.result (o n (.call c)))
      else none) ∧
    (present c.symbol = false → (f.run o n st).val = none)

theorem Forwards.after {k : α → HipM σ (Option HipResult)} (hm : Silent R P m)
    (hk : ∀ a, P a → Forwards R readable present c (k a)) :
    Forwards R readable present c (m >>= k) := by
  intro o n st hst
  obtain ⟨hs, he, hv⟩ := hm o n st hst
  have hf := hk _ hv o n _ hs
  rw [run_bind, he, List.length_nil, Nat.add_zero]
  simpa using hf

theorem Forwards.unwrap {k : HipAnswer → HipM σ (Option HipResult)}
    (hk : ∀ a, Silent R (fun v ↦ v = if readable a then some (c.result a) else none) (k a)) :
    Forwards R readable present c (orAbort (unwrapCall present c) k) := by
  intro o n st hst
  cases hp : present c.symbol with
  | false => simpa [orAbort, unwrapCall, hp] using hst
  | true =>
    obtain ⟨hs, he, hv⟩ := hk (o n (.call c)) o (n + 1) st hst
    simpa [orAbort, unwrapCall, hp, he, happens] using ⟨hs, hv⟩

theorem Silent.orAbort {m : HipM σ (Option α)} {k : α → HipM σ (Option β)} {Q : Option β → Prop}
    (hm : Silent R (fun r ↦ r.isSome = true) m) (hk : ∀ a, Silent R Q (k a)) :
    Silent R Q (Hip.orAbort m k) := by
  refine hm.bind fun r hr ↦ ?_
  obtain ⟨a, rfl⟩ := Option.isSome_iff_exists.mp hr
  exact hk a

theorem Forwards.afterSome {m : HipM σ (Option α)} {k : α → HipM σ (Option HipResult)}
    (hm : Silent R (fun r ↦ r.isSome = true) m) (hk : ∀ a, Forwards R readable present c (k a)) :
    Forwards R readable present c (orAbort m k) := by
  refine .after hm fun r hr ↦ ?_
  obtain ⟨a, rfl⟩ := Option.isSome_iff_exists.mp hr
  exact hk a

end Forwarding

section Tracer

variable {present : Present} {c : HipCall}

def Unsynced (st : Tracer) : Prop := st.config.traceSync = false

theorem traceMsg_silent (level : ℤ) (line : TraceLine) :
    Silent Unsynced (fun _ ↦ True) (traceMsg level line) := by
  refine .update fun st hst ↦ ?_
  rwa [Unsynced, message_config]

theorem bufferTableAdd_config (p : Ptr) (size : ℕ) (btype : BufferType) (st : Tracer) :
    (bufferTableAdd p size btype st).config = st.config := by
  rw [bufferTableAdd]
  split
  · rfl
  · split
    · exact message_config ..
    · rfl

theorem bufferTableRemove_config (p : Ptr) (st : Tracer) :
    (bufferTableRemove p st).config = st.config := by
  rw [bufferTableRemove]
  split
  · rfl
  · split <;> rfl

theorem kernelTableAdd_config (f : Ptr) (name : Option String) (st : Tracer) :
    (kernelTableAdd f name st).config = st.config := by
  rw [kernelTableAdd]
  split
  · rfl
  · split <;> rfl

theorem reported_forwards (out : HipAnswer → ℤ) :
    Forwards Unsynced (fun _ ↦ true) present c (reported present c out) :=
  .unwrap fun _ ↦ (traceMsg_silent _ _).bind fun _ _ ↦ .pure rfl

theorem tracedMalloc_forwards (p : Ptr) (size : ℕ) (btype : BufferType) :
    Forwards Unsynced (fun _ ↦ true) present c (tracedMalloc present c p size btype) := by
  have hlast : ∀ a, Silent Unsynced (fun v ↦ v = if true then some (c.result a) else none)
      (do traceMsg 2 (.called c (if p = 0 then 0 else a.out) a.ret); return some (c.result a)) :=
    fun a ↦ (traceMsg_silent _ _).bind fun _ _ ↦ .pure rfl
  refine .unwrap fun a ↦ .ite (fun _ ↦ .ite (fun _ ↦ ?_) fun _ ↦ hlast a) fun _ ↦ hlast a
  refine Silent.bind (Silent.update fun st hst ↦ ?_) fun _ _ ↦ hlast a
  rwa [Unsynced, bufferTableAdd_config]

theorem tracedFree_forwards (p : Ptr) :
    Forwards Unsynced (fun _ ↦ true) present c (tracedFree present c p) := by
  refine .after (Silent.update fun st hst ↦ ?_) fun _ _ ↦ .unwrap fun _ ↦ (traceMsg_silent _ _).bind
    fun _ _ ↦ .pure rfl
  rwa [Unsynced, bufferTableRemove_config]

theorem shouldFullDumpKernel_silent (name : Option String) :
    Silent Unsynced (fun _ ↦ True) (shouldFullDumpKernel name) := by
  refine .bind .state fun st _ ↦ ?_
  cases fullDumpToken st name with
  | none => exact .pure trivial
  | some token => exact (traceMsg_silent _ _).bind fun _ _ ↦ .pure trivial

/-- Without synchronization a launch is neither preceded nor followed by a dump. -/
theorem tracedLaunch_forwards (f : Ptr) :
    Forwards Unsynced (fun _ ↦ true) present c (tracedLaunch present c f) := by
  refine .after .state fun st hst ↦ .after (shouldFullDumpKernel_silent _) fun doFull _ ↦ ?_
  have hdump : ∀ label, Silent Unsynced (fun r ↦ r.isSome = true)
      (if (shouldTraceKernel st (kernelTableGetName st f) && st.config.traceSync) = true then
        syncAndDump present label doFull else return some ()) := by
    intro label
    refine .ite (fun h ↦ ?_) fun _ ↦ .pure rfl
    rw [Bool.and_eq_true] at h
    exact absurd (h.2.symm.trans hst) Bool.true_eq_false.mp
  refine .afterSome (hdump _) fun _ ↦ .after (traceMsg_silent _ _) fun _ _ ↦ .unwrap fun a ↦
    .orAbort (hdump _) fun _ ↦ .ite (fun _ ↦ ?_) fun _ ↦ ?_
  · refine Silent.bind (Silent.update fun _ hst ↦ hst) fun _ _ ↦ (traceMsg_silent _ _).bind
      fun _ _ ↦ .pure rfl
  · exact (traceMsg_silent _ _).bind fun _ _ ↦ .pure rfl

end Tracer

section Logger

variable {present : Present} {c : HipCall}

theorem logMsg_silent (level : ℤ) (line : LogLine) :
    Silent (fun _ ↦ True) (fun _ ↦ True) (logMsg level line) :=
  .update fun _ _ ↦ trivial

theorem logged_forwards (out out₂ : HipAnswer → ℤ) :
    Forwards (fun _ ↦ True) (fun _ ↦ true) present c (logged present c out out₂) :=
  .unwrap fun _ ↦ (logMsg_silent _ _).bind fun _ _ ↦ .pure rfl

theorem loggedError_forwards :
    Forwards (fun _ ↦ True) (fun _ ↦ true) present c (loggedError present c) :=
  .unwrap fun _ ↦ (logMsg_silent _ _).bind fun _ _ ↦ .pure rfl

theorem loggedBefore_forwards (hc : ∀ a, c.result a = .nothing) (text : Option String) :
    Forwards (fun _ ↦ True) (fun _ ↦ true) present c (loggedBefore present c text) :=
  .after (logMsg_silent _ _) fun _ _ ↦ .unwrap fun a ↦ .pure (by rw [hc]; rfl)

def textsTerminated (c : HipCall) (a : HipAnswer) : Bool :=
  match c with
  | .hipDeviceGetName name _ _ => name = 0 || a.text.isSome
  | .hipGetDeviceProperties prop _ => prop = 0 || a.ret ≠ 0 || a.text.isSome
  | _ => true

theorem loggedName_forwards (name : Ptr) (len id : ℤ) :
    Forwards (fun _ ↦ True) (textsTerminated (.hipDeviceGetName name len id)) present
      (.hipDeviceGetName name len id)
      (loggedName present name len id) := by
  refine .unwrap fun a ↦ ?_
  cases htext : cstr name a.text with
  | none =>
    refine .pure ?_
    rw [cstr] at htext
    split at htext
    · cases htext
    · simp [textsTerminated, *]
  | some text =>
    refine (logMsg_silent _ _).bind fun _ _ ↦ .pure ?_
    rw [cstr] at htext
    split at htext <;> simp [textsTerminated, HipCall.result, *]

theorem loggedProperties_forwards (prop : Ptr) (id : ℤ) :
    Forwards (fun _ ↦ True) (textsTerminated (.hipGetDeviceProperties prop id)) present
      (.hipGetDeviceProperties prop id)
      (loggedProperties present prop id) := by
  refine .unwrap fun a ↦ (logMsg_silent _ _).bind fun _ _ ↦ .ite (fun h ↦ ?_) fun h ↦ .pure ?_
  · cases htext : cstr prop a.text with
    | none =>
      rw [cstr, if_neg h.2] at htext
      exact .pure (by simp [textsTerminated, h, htext])
    | some text =>
      rw [cstr, if_neg h.2] at htext
      refine (logMsg_silent _ _).bind fun _ _ ↦ (logMsg_silent _ _).bind fun _ _ ↦ .pure ?_
      simp [textsTerminated, HipCall.result, htext]
  · have hread : textsTerminated (.hipGetDeviceProperties prop id) a = true := by
      by_cases hp : prop = 0
      · simp [textsTerminated, hp]
      · have hret : a.ret ≠ 0 := fun hret ↦ h ⟨hret, hp⟩
        simp [textsTerminated, hret]
    rw [hread]
    rfl

end Logger

namespace Interceptor

abbrev State : Interceptor → Type
  | noop => Unit
  | logging => Logger
  | tracer => Tracer

/-- The table that becomes active: the one the library returns, or the real one. -/
def activeTable (present : Present) : (i : Interceptor) → HipFunctionTable i.State
  | noop => realTable present
  | logging => loggingTable present
  | tracer => tracerTable present

/-- The tracer has `HIP_TRACE_SYNC` off. -/
def Ready : (i : Interceptor) → i.State → Prop
  | noop, _ | logging, _ => True
  | tracer, st => st.config.traceSync = false

def wraps : Interceptor → HipSymbol → Bool
  | noop, _ => false
  | logging, s =>
    s ∉ [.hipDeviceReset, .hipModuleLoad, .hipModuleLoadData, .hipModuleUnload,
      .hipModuleGetFunction, .hipModuleGetGlobal, .hipGetErrorString, .hipGetErrorName]
  | tracer, s =>
    s ∈ [.hipInit, .hipGetDevice, .hipGetDeviceCount, .hipSetDevice,
      .hipDeviceSynchronize, .hipMalloc,
      .hipFree, .hipHostMalloc, .hipHostFree, .hipMemcpy, .hipMemcpyAsync, .hipMemset,
      .hipMemsetAsync,
      .hipStreamCreate, .hipStreamCreateWithFlags, .hipStreamDestroy, .hipStreamSynchronize,
      .hipEventCreate,
      .hipEventCreateWithFlags, .hipEventDestroy, .hipEventRecord, .hipEventSynchronize,
      .hipModuleLaunchKernel,
      .hipLaunchKernel, .hipExtModuleLaunchKernel, .hipRegisterFatBinary, .hipUnregisterFatBinary,
      .hipRegisterFunction, .hipRegisterVar]

def readable : Interceptor → HipCall → HipAnswer → Bool
  | logging, c, a => textsTerminated c a
  | _, _, _ => true

variable {present : Present}

/-- The slots of the active table: wrappers that forward, and the backend's own functions. -/
theorem activeTable_slot (i : Interceptor) (c : HipCall) :
    if i.wraps c.symbol then ∃ f, i.activeTable present c = some f ∧
    Forwards i.Ready (i.readable c) present c f
    else i.activeTable present c = realTable present c ∧ ∀ a, i.readable c a = true := by
  cases i with
  | noop => exact ⟨rfl, fun _ ↦ rfl⟩
  | logging =>
    cases c with
    | hipDeviceReset | hipModuleLoad | hipModuleLoadData | hipModuleUnload | hipModuleGetFunction
    | hipModuleGetGlobal | hipGetErrorString | hipGetErrorName => exact ⟨rfl, fun _ ↦ rfl⟩
    | hipGetDeviceProperties prop id => exact ⟨_, rfl, loggedProperties_forwards prop id⟩
    | hipDeviceGetName name len id => exact ⟨_, rfl, loggedName_forwards name len id⟩
    | hipGetLastError | hipPeekAtLastError => exact ⟨_, rfl, loggedError_forwards⟩
    | hipUnregisterFatBinary | hipRegisterFunction | hipRegisterVar =>
      exact ⟨_, rfl, loggedBefore_forwards (fun _ ↦ rfl) _⟩
    | _ => exact ⟨_, rfl, logged_forwards _ _⟩
  | tracer =>
    have hvoid :
        ∀ c line, (∀ a, c.result a = .nothing) → Forwards Unsynced (fun _ ↦ true) present c (do
        traceMsg 2 line
        orAbort (unwrapCall present c) fun _ ↦ return some .nothing) := fun c line hc ↦
      .after (traceMsg_silent _ _) fun _ _ ↦ .unwrap fun a ↦ .pure (by rw [hc]; rfl)
    cases c with
    | hipMalloc | hipHostMalloc => exact ⟨_, rfl, tracedMalloc_forwards _ _ _⟩
    | hipFree | hipHostFree => exact ⟨_, rfl, tracedFree_forwards _⟩
    | hipModuleLaunchKernel | hipLaunchKernel | hipExtModuleLaunchKernel =>
      exact ⟨_, rfl, tracedLaunch_forwards _⟩
    | hipUnregisterFatBinary | hipRegisterVar => exact ⟨_, rfl, hvoid _ _ fun _ ↦ rfl⟩
    | hipRegisterFunction =>
      refine ⟨_, rfl, .after (Silent.update fun st hst ↦ ?_) fun _ _ ↦ hvoid _ _ fun _ ↦ rfl⟩
      rwa [Ready, kernelTableAdd_config]
    | hipInit | hipGetDevice | hipGetDeviceCount | hipSetDevice | hipDeviceSynchronize | hipMemcpy
    | hipMemcpyAsync | hipMemset | hipMemsetAsync | hipStreamCreate | hipStreamCreateWithFlags
    | hipStreamDestroy | hipStreamSynchronize | hipEventCreate | hipEventCreateWithFlags
    | hipEventDestroy | hipEventRecord | hipEventSynchronize
    | hipRegisterFatBinary => exact ⟨_, rfl, reported_forwards _⟩
    | _ => exact ⟨rfl, fun _ ↦ rfl⟩

def ReadableEvent (i : Interceptor) (e : HipEvent) : Prop :=
  ∀ c, e.call = .call c → i.readable c e.answer = true

/-- The run of one exported function without a library. -/
def bare (present : Present) (c : HipCall) (o : Backend) (n : ℕ) :
    Outcome HipRequest HipAnswer Unit (Option HipResult) :=
  (export_ (realTable present) c).run o n ()

def Passes (i : Interceptor) (present : Present) (c : HipCall) (o : Backend) (n : ℕ) : Prop :=
  (i.wraps c.symbol = true → present c.symbol = true) ∧ ∀ e ∈ (bare present c o n).events,
    i.ReadableEvent e

theorem bare_missing {c : HipCall} {o : Backend} {n : ℕ} (hp : present c.symbol = false) :
    bare present c o n = ⟨some c.missing, (), []⟩ := by
  simp [bare, export_, realTable, hp]

theorem bare_present {c : HipCall} {o : Backend} {n : ℕ} (hp : present c.symbol = true) :
    bare present c o n = ⟨some (c.result (o n (.call c))), (), [happens o n (.call c)]⟩ := by
  simp [bare, export_, realTable, hp, happens]

theorem bare_val (c : HipCall) (o : Backend) (n : ℕ) : ∃ r, (bare present c o n).val = some r := by
  cases hp : present c.symbol with
  | false => exact ⟨_, by rw [bare_missing hp]⟩
  | true => exact ⟨_, by rw [bare_present hp]⟩

theorem export_realTable {σ : Type} (c : HipCall) (o : Backend) (n : ℕ) (st : σ) :
    (export_ (realTable present) c).run o n st =
      ⟨(bare present c o n).val, st, (bare present c o n).events⟩ := by
  cases hp : present c.symbol with
  | false =>
    rw [bare_missing hp]
    simp [export_, realTable, hp]
  | true =>
    rw [bare_present hp]
    simp [export_, realTable, hp, happens]

theorem passes_of_unwrapped {i : Interceptor} {c : HipCall} (hw : i.wraps c.symbol = false)
    (hread : ∀ a, i.readable c a = true) (o : Backend) (n : ℕ) : i.Passes present c o n := by
  refine ⟨fun h ↦ absurd (hw.symm.trans h) Bool.false_ne_true, fun e he ↦ ?_⟩
  cases hp : present c.symbol with
  | false =>
    rw [bare_missing hp] at he
    exact absurd he List.not_mem_nil
  | true =>
    rw [bare_present hp] at he
    obtain rfl := List.mem_singleton.mp he
    intro c' hc'
    obtain rfl := HipRequest.call.inj hc'
    exact hread _

theorem export_spec (i : Interceptor) (c : HipCall) (o : Backend) (n : ℕ) {st : i.State}
    (hst : i.Ready st) :
    i.Ready ((export_ (i.activeTable present) c).run o n st).state ∧
      (i.Passes present c o n →
        ((export_ (i.activeTable present) c).run o n st).val = (bare present c o n).val ∧
        ((export_ (i.activeTable present) c).run o n st).events = (bare present c o n).events) ∧
      (¬ i.Passes present c o n → ((export_ (i.activeTable present) c).run o n st).val = none) := by
  have hslot := @activeTable_slot present i c
  cases hw : i.wraps c.symbol with
  | false =>
    obtain ⟨hreal, hread⟩ := (if_neg (Bool.eq_false_iff.mp hw)).mp hslot
    have hreal : export_ (i.activeTable present) c = export_ (realTable present) c := by
      rw [export_, hreal, ← export_]
    rw [hreal, export_realTable]
    exact ⟨hst, fun _ ↦ ⟨rfl, rfl⟩, fun h ↦ absurd (passes_of_unwrapped hw hread o n) h⟩
  | true =>
    obtain ⟨f, hf, hforwards⟩ := (if_pos hw).mp hslot
    rw [export_, hf]
    obtain ⟨hs, hpres, habs⟩ := hforwards o n st hst
    refine ⟨hs, fun ⟨hp, hread⟩ ↦ ?_, fun hnot ↦ ?_⟩
    · have hp := hp hw
      obtain ⟨hev, hval⟩ := hpres hp
      rw [bare_present hp] at hread ⊢
      have hanswer : i.readable c (o n (.call c)) = true :=
        hread _ (List.mem_singleton_self _) c rfl
      rw [hval, if_pos hanswer]
      exact ⟨rfl, hev⟩
    · cases hp : present c.symbol with
      | false => exact habs hp
      | true =>
        rw [(hpres hp).2, if_neg]
        refine fun hread ↦ hnot ⟨fun _ ↦ hp, fun e he c' hc' ↦ ?_⟩
        rw [bare_present hp] at he
        obtain rfl := List.mem_singleton.mp he
        obtain rfl := HipRequest.call.inj hc'
        exact hread

end Interceptor

section Sequences

variable {σ : Type} {present : Present}

theorem run_exports_cons {table : HipFunctionTable σ} {c : HipCall} {o : Backend} {n : ℕ} {st : σ}
    {r : HipResult} (h : ((export_ table c).run o n st).val = some r) (cs : List HipCall) :
    let first := (export_ table c).run o n st
    let rest := (exports table cs).run o (n + first.events.length) first.state
    ((exports table (c :: cs)).run o n st).val = rest.val.map (r :: ·) ∧
      ((exports table (c :: cs)).run o n st).events = first.events ++ rest.events := by
  intro first rest
  rw [exports, orAbort, run_bind, h]
  cases hrest : rest.val with
  | none => simp [orAbort, first, rest, hrest]
  | some rs => simp [orAbort, first, rest, hrest]

theorem run_exports_aborted {table : HipFunctionTable σ} {c : HipCall} {o : Backend} {n : ℕ}
    {st : σ} (h : ((export_ table c).run o n st).val = none) (cs : List HipCall) :
    ((exports table (c :: cs)).run o n st).val = none := by
  rw [exports, orAbort, run_bind, h]
  rfl

theorem bareExports_val (cs : List HipCall) (o : Backend) (n : ℕ) :
    ∃ rs, ((exports (realTable present) cs).run o n ()).val = some rs := by
  induction cs generalizing n with
  | nil => exact ⟨[], rfl⟩
  | cons c cs ih =>
    obtain ⟨r, hr⟩ := @Interceptor.bare_val present c o n
    obtain ⟨rs, hrs⟩ := ih (n + (Interceptor.bare present c o n).events.length)
    refine ⟨r :: rs, ?_⟩
    rw [(run_exports_cons hr cs).1]
    exact congrArg (Option.map (r :: ·)) hrs

/-- With the logger, the no-op library or the tracer with `HIP_TRACE_SYNC` off, every sequence of
calls returns the same results through the same backend calls as without a library, and aborts or
returns as it does, if and only if the backend has each function that is called and wrapped and the
names that the logger reads are terminated. -/
theorem interceptors_transparent_iff (i : Interceptor) (cs : List HipCall) (o : Backend) (n : ℕ)
    {st : i.State} (hst : i.Ready st) :
    (((exports (i.activeTable present) cs).run o n st).val =
      ((exports (realTable present) cs).run o n ()).val ∧
        ((exports (i.activeTable present) cs).run o n st).events =
          ((exports (realTable present) cs).run o n ()).events) ↔
      (∀ c ∈ cs, i.wraps c.symbol = true → present c.symbol = true) ∧
        ∀ e ∈ ((exports (realTable present) cs).run o n ()).events, i.ReadableEvent e := by
  induction cs generalizing n st with
  | nil => simp [exports]
  | cons c cs ih =>
    obtain ⟨r, hr⟩ := @Interceptor.bare_val present c o n
    obtain ⟨hready, hpass, habort⟩ := i.export_spec c o n hst
    obtain ⟨hbval, hbev⟩ := run_exports_cons hr cs
    by_cases hp : i.Passes present c o n
    · obtain ⟨hval, hev⟩ := hpass hp
      obtain ⟨hival, hiev⟩ := run_exports_cons (hval.trans hr) cs
      have htail := @ih (n + (Interceptor.bare present c o n).events.length) _ hready
      have hcons : Function.Injective (Option.map fun rs : List HipResult ↦ r :: rs) :=
        Option.map_injective List.cons_injective
      rw [hival, hiev, hbval, hbev, hev, hcons.eq_iff, List.forall_mem_cons, List.forall_mem_append]
      refine (and_congr_right fun _ ↦ iff_of_eq (List.append_cancel_left_eq ..)).trans
        (htail.trans ?_)
      exact ⟨fun h ↦ ⟨⟨hp.1, h.1⟩, hp.2, h.2⟩, fun h ↦ ⟨h.1.2, h.2.2⟩⟩
    · have hnone := run_exports_aborted (habort hp) cs
      obtain ⟨rs, hrs⟩ := @bareExports_val present (c :: cs) o n
      refine iff_of_false (fun h ↦ ?_) fun h ↦
        hp ⟨h.1 c (List.mem_cons_self ..), fun e he ↦ h.2 e ?_⟩
      · rw [hnone, hrs] at h
        cases h.1
      · rw [hbev]
        exact List.mem_append_left _ he

theorem interceptors_transparent_traced :
    ((exports (Interceptor.tracer.activeTable fun _ ↦ true)
      [.hipInit 0, .hipMalloc 8 64, .hipFree 4096]).run
        (fun _ _ ↦ { out := 4096 }) 0 (Tracer.initial {} true false)).val =
      ((exports (realTable fun _ ↦ true) [.hipInit 0, .hipMalloc 8 64, .hipFree 4096]).run
        (fun _ _ ↦ { out := 4096 }) 0 ()).val := by
  have hready : Interceptor.tracer.Ready (Tracer.initial {} true false) := rfl
  exact ((interceptors_transparent_iff .tracer _ _ 0 hready).mpr
    ⟨fun _ _ _ ↦ rfl, fun _ _ _ _ ↦ rfl⟩).1

/-- A backend without `hipInit`: the logger's wrapper unwraps the empty slot. -/
theorem missing_symbol_aborts :
    ((exports (realTable fun s ↦ s ≠ .hipInit) [.hipInit 0]).run (fun _ _ ↦ {}) 0 ()).val = some
      [.error 0] ∧
      ((exports (Interceptor.logging.activeTable fun s ↦ s ≠ .hipInit) [.hipInit 0]).run
        (fun _ _ ↦ {}) 0
        (Logger.initial true 2 false)).val = none := ⟨rfl, rfl⟩

end Sequences

end HrxSystem.Hip
