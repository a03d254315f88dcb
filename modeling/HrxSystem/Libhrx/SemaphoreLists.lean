import HrxSystem.Libhrx.CommandBuffers

namespace HrxSystem.Libhrx

def normalizeAffinity (affinity : ℕ) : ℕ := if affinity = 0 then affinityAny else affinity

namespace SemaphoreLists

open External Program

variable {σ α : Type}

def hrxMaxQueueSemaphores : ℕ := 16

/-- `hrx_semaphore_list_t` as a caller fills it in: any count, and entries that
may be the NULL pointer. -/
structure CallerList where
  semaphores : ℕ → HrxSemaphore
  values : ℕ → ℕ
  count : ℕ

abbrev CallerListPtr := Option CallerList

/-- What a release build does not survive: reading through a NULL semaphore, and
writing past the end of a stack array. -/
inductive MemoryFault
  | nullSemaphore (index : ℕ)
  | outOfArray (index : ℕ)
deriving DecidableEq

structure StackArrays where
  hal : Fin hrxMaxQueueSemaphores → Option Obj
  vals : Fin hrxMaxQueueSemaphores → ℕ

namespace StackArrays

def zeroed : StackArrays := ⟨fun _ ↦ none, fun _ ↦ 0⟩

def set (arrays : StackArrays) (i : Fin hrxMaxQueueSemaphores) (hal : Obj) (value : ℕ) :
    StackArrays :=
  ⟨Function.update arrays.hal i (some hal), Function.update arrays.vals i value⟩

def point (arrays : StackArrays) (i : ℕ) : Option SemaphorePoint :=
  if h : i < hrxMaxQueueSemaphores then (arrays.hal ⟨i, h⟩).map (⟨·, arrays.vals ⟨i, h⟩⟩) else none

/-- The `iree_hal_semaphore_list_t` over the arrays. -/
def points (arrays : StackArrays) (count : ℕ) : List SemaphorePoint :=
  (List.range count).filterMap arrays.point

theorem set_point_self (arrays : StackArrays) {i : ℕ} (h : i < hrxMaxQueueSemaphores) (hal : Obj)
    (value : ℕ) : (arrays.set ⟨i, h⟩ hal value).point i = some ⟨hal, value⟩ := by
  simp [point, set, h]

theorem set_point_ne (arrays : StackArrays) {i j : ℕ} (h : i < hrxMaxQueueSemaphores) (hij : j ≠ i)
    (hal : Obj) (value : ℕ) : (arrays.set ⟨i, h⟩ hal value).point j = arrays.point j := by
  simp [point, set, hij]

end StackArrays

/-- The loop of `to_iree_sem_list` with `remaining` entries to go from index `i`. -/
def copyEntries (list : CallerList) : ℕ → ℕ → StackArrays → Except MemoryFault StackArrays
  | 0, _, arrays => .ok arrays
  | remaining + 1, i, arrays =>
    match list.semaphores i with
    | none => .error (.nullSemaphore i)
    | some sem =>
      if h : i < hrxMaxQueueSemaphores then
        copyEntries list remaining (i + 1) (arrays.set ⟨i, h⟩ sem.hal (list.values i))
      else .error (.outOfArray i)

def toIreeSemList (list : CallerListPtr) : Except MemoryFault (List SemaphorePoint) :=
  match list with
  | none => .ok []
  | some l =>
    if l.count = 0 then .ok []
    else (copyEntries l l.count 0 .zeroed).map (StackArrays.points · l.count)

/-- The end of a queue operation: copy both lists and submit. -/
def withLists (waits signals : CallerListPtr)
    (submit : List SemaphorePoint → List SemaphorePoint → Hrx σ HrxStatus) :
    Hrx σ (Except MemoryFault HrxStatus) :=
  match toIreeSemList waits with
  | .error fault => return .error fault
  | .ok wl =>
    match toIreeSemList signals with
    | .error fault => return .error fault
    | .ok sl => return .ok (← submit wl sl)

/-- The command buffer of `hrx_queue_fill` and `hrx_queue_copy`, or the status
they return without one. -/
def transferBuffer (device : DevicePtr) (qa : ℕ) (command : Command) :
    Hrx σ (Except HrxStatus Obj) := do
  let cb ← call (.commandBufferCreate device.halDevice 1 qa)
  if !ok cb then return .error (← hrxStatusFromIree cb.answer.status)
  let b ← call (.commandBufferBegin (some cb.pos))
  if !ok b then
    let _ ← call (.commandBufferRelease (some cb.pos))
    return .error (← hrxStatusFromIree b.answer.status)
  let c ← call (.commandBufferRecord (some cb.pos) command)
  if !ok c then
    let _ ← call (.commandBufferRelease (some cb.pos))
    return .error (← hrxStatusFromIree c.answer.status)
  let e ← call (.commandBufferEnd (some cb.pos))
  if !ok e then
    let _ ← call (.commandBufferRelease (some cb.pos))
    return .error (← hrxStatusFromIree e.answer.status)
  return .ok cb.pos

def executeTransfer (device : DevicePtr) (qa : ℕ) (cb : Obj) (wl sl : List SemaphorePoint) :
    Hrx σ HrxStatus := do
  let x ← call (.queueExecute device.halDevice qa wl sl (some cb))
  let _ ← call (.commandBufferRelease (some cb))
  hrxStatusFromIree x.answer.status

def submitting (prepare : Hrx σ (Except HrxStatus α)) (waits signals : CallerListPtr)
    (submit : α → List SemaphorePoint → List SemaphorePoint → Hrx σ HrxStatus) :
    Hrx σ (Except MemoryFault HrxStatus) := do
  match ← prepare with
  | .error status => return .ok status
  | .ok a => withLists waits signals (submit a)

def refuse (code : HrxStatusCode) (message : String) : Hrx σ (Except MemoryFault HrxStatus) := do
  return .ok (← hrxError code message)

def hrxQueueFill (device : HrxDevice) (affinity : ℕ)
    (waitSemaphores signalSemaphores : CallerListPtr) (buffer : HrxBuffer) (offset size : ℕ)
    (pattern : Option ℕ) (patternSize : ℕ) :
    Hrx σ (Except MemoryFault HrxStatus) :=
  match device, buffer, pattern with
  | some dev, some buf, some p =>
    let qa := normalizeAffinity affinity
    submitting (transferBuffer dev qa (.fillBuffer ⟨buf.hal, offset, size⟩ p patternSize))
      waitSemaphores signalSemaphores (executeTransfer dev qa)
  | _, _, _ => refuse .invalidArgument "device, buffer, or pattern is NULL"

def hrxQueueCopy (device : HrxDevice) (affinity : ℕ)
    (waitSemaphores signalSemaphores : CallerListPtr) (src : HrxBuffer) (srcOffset : ℕ)
    (dst : HrxBuffer) (dstOffset size : ℕ) :
    Hrx σ (Except MemoryFault HrxStatus) :=
  match device, src, dst with
  | some dev, some s, some d =>
    let qa := normalizeAffinity affinity
    submitting
      (transferBuffer dev qa (.copyBuffer ⟨s.hal, srcOffset, size⟩ ⟨d.hal, dstOffset, size⟩))
      waitSemaphores signalSemaphores (executeTransfer dev qa)
  | _, _, _ => refuse .invalidArgument "device, src, or dst is NULL"

def hrxQueueBarrier (device : HrxDevice) (affinity : ℕ)
    (waitSemaphores signalSemaphores : CallerListPtr) : Hrx σ (Except MemoryFault HrxStatus) :=
  match device with
  | some dev =>
    submitting (pure (.ok ())) waitSemaphores signalSemaphores fun _ wl sl ↦ do
      let e ← call (.queueBarrier dev.halDevice (normalizeAffinity affinity) wl sl)
      hrxStatusFromIree e.answer.status
  | none => refuse .invalidArgument "device is NULL"

/-- The heap block that holds the callback and its user data. -/
def newHostCallThunk : Hrx σ (Except HrxStatus Obj) := do
  let thunk ← call .hostCallThunk
  if !ok thunk then return .error (← hrxError .outOfMemory "failed to allocate host call thunk")
  return .ok thunk.pos

def hrxQueueHostCall (device : HrxDevice) (affinity : ℕ)
    (waitSemaphores signalSemaphores : CallerListPtr) (callback : Option ℕ) :
    Hrx σ (Except MemoryFault HrxStatus) :=
  match device, callback with
  | some dev, some _ =>
    submitting newHostCallThunk waitSemaphores signalSemaphores fun thunk wl sl ↦ do
      let e ← call (.queueHostCall dev.halDevice (normalizeAffinity affinity) wl sl thunk)
      if !ok e then
        let _ ← call (.freeHostCallThunk thunk)
      hrxStatusFromIree e.answer.status
  | _, _ => refuse .invalidArgument "device or callback is NULL"

def hrxQueueDispatch (device : HrxDevice) (affinity : ℕ)
    (waitSemaphores signalSemaphores : CallerListPtr) (x : DispatchArgs) :
    Hrx σ (Except MemoryFault HrxStatus) :=
  match device, x.executable, x.config with
  | some dev, some executable, some config =>
    if (x.bindingCount > 0 ∧ x.bindings.isNone) ∨ (x.constantsSize > 0 ∧ x.constants.isNone) then
      refuse .invalidArgument "device, executable, config, constants, or bindings are invalid"
    else
      match x.bindings.elim (some []) (buildHalBindings · x.bindingCount) with
      | none => refuse .invalidArgument "binding buffer is NULL"
      | some bindings =>
        submitting (pure (.ok ())) waitSemaphores signalSemaphores fun _ wl sl ↦ do
          let e ← call (.queueDispatch dev.halDevice (normalizeAffinity affinity) wl sl
            executable.hal x.exportOrdinal ⟨config.workgroupSize, config.workgroupCount⟩
            x.constants x.constantsSize bindings x.flags)
          hrxStatusFromIree e.answer.status
  | _, _, _ =>
    refuse .invalidArgument "device, executable, config, constants, or bindings are invalid"

inductive QueueOperation
  | fill (buffer : HrxBuffer) (offset size : ℕ) (pattern : Option ℕ) (patternSize : ℕ)
  | copy (src : HrxBuffer) (srcOffset : ℕ) (dst : HrxBuffer) (dstOffset size : ℕ)
  | barrier
  | hostCall (callback : Option ℕ)
  | dispatch (args : DispatchArgs)

def QueueOperation.submit (device : HrxDevice) (affinity : ℕ)
    (waits signals : CallerListPtr) : QueueOperation → Hrx σ (Except MemoryFault HrxStatus)
  | .fill buffer offset size pattern patternSize =>
    hrxQueueFill device affinity waits signals buffer offset size pattern patternSize
  | .copy src srcOffset dst dstOffset size =>
    hrxQueueCopy device affinity waits signals src srcOffset dst dstOffset size
  | .barrier => hrxQueueBarrier device affinity waits signals
  | .hostCall callback => hrxQueueHostCall device affinity waits signals callback
  | .dispatch args => hrxQueueDispatch device affinity waits signals args

/-- A list the stack arrays can take: 16 entries at most and none of them NULL. -/
def Fits (list : CallerListPtr) : Prop :=
  ∀ l, list = some l → l.count ≤ hrxMaxQueueSemaphores ∧ ∀ i < l.count,
    (l.semaphores i).isSome = true

/-- `points` has the count of the caller's list and, position by position, its
semaphores and values. -/
def Handed (list : CallerListPtr) (points : List SemaphorePoint) : Prop :=
  points.length = list.elim 0 CallerList.count ∧
    ∀ l, list = some l → ∀ i < l.count, ∃ sem,
      l.semaphores i = some sem ∧ points[i]? = some ⟨sem.hal, l.values i⟩

def handed : Call → Option (List SemaphorePoint × List SemaphorePoint)
  | .queueExecute _ _ waits signals _ | .queueBarrier _ _ waits signals
  | .queueAlloca _ waits signals .. | .queueHostCall _ _ waits signals _
  | .queueDispatch _ _ waits signals .. => some (waits, signals)
  | _ => none

def submissions (events : Trace) : List (List SemaphorePoint × List SemaphorePoint) :=
  events.filterMap fun e ↦ handed e.call

/-- The operation touched no memory it must not, and returned an error without
submitting or submitted once, with the caller's lists. -/
def Safe (waits signals : CallerListPtr)
    (r : Outcome Call Answer σ (Except MemoryFault HrxStatus)) : Prop :=
  ∃ status, r.val = .ok status ∧
    (hrxStatusIsOk status = false ∧ submissions r.events = [] ∨
      ∃ w g, submissions r.events = [(w, g)] ∧ Handed waits w ∧ Handed signals g)

def CallerList.point (l : CallerList) (i : ℕ) : Option SemaphorePoint :=
  (l.semaphores i).map fun sem ↦ ⟨sem.hal, l.values i⟩

def entries (list : CallerListPtr) : List SemaphorePoint :=
  list.elim [] fun l ↦ (List.range l.count).filterMap l.point

/-- The loop over entries that all fit: it writes these and leaves the others. -/
theorem copyEntries_ok (l : CallerList) (remaining i : ℕ) (arrays : StackArrays)
    (h : ∀ j, i ≤ j → j < i + remaining → j < hrxMaxQueueSemaphores ∧
      (l.semaphores j).isSome = true) :
    ∃ copied, copyEntries l remaining i arrays = .ok copied ∧
      (∀ j < i, copied.point j = arrays.point j) ∧
      ∀ j, i ≤ j → j < i + remaining → copied.point j = l.point j := by
  induction remaining generalizing i arrays with
  | zero => exact ⟨arrays, rfl, fun _ _ ↦ rfl, fun j hij hj ↦ absurd hj (by omega)⟩
  | succ remaining ih =>
    obtain ⟨hi, hsome⟩ := h i le_rfl (by omega)
    obtain ⟨sem, hsem⟩ := Option.isSome_iff_exists.mp hsome
    obtain ⟨copied, hcopied, hbelow, hin⟩ := ih (i + 1) (arrays.set ⟨i, hi⟩ sem.hal (l.values i))
      fun j hij hj ↦ h j (by omega) (by omega)
    refine ⟨copied, ?_, ?_, ?_⟩
    · simp only [copyEntries, hsem, hi, dif_pos, hcopied]
    · intro j hj
      rw [hbelow j (by omega), StackArrays.set_point_ne _ _ (by omega)]
    · intro j hij hj
      obtain rfl | hlt := eq_or_lt_of_le hij
      · rw [hbelow i (by omega), StackArrays.set_point_self, CallerList.point, hsem,
          Option.map_some]
      · exact hin j hlt (by omega)

theorem copyEntries_error (l : CallerList) (remaining i : ℕ) (arrays : StackArrays)
    (h : ¬∀ j, i ≤ j → j < i + remaining →
      j < hrxMaxQueueSemaphores ∧ (l.semaphores j).isSome = true) :
    ∃ fault, copyEntries l remaining i arrays = .error fault := by
  induction remaining generalizing i arrays with
  | zero => exact absurd (fun j hij hj ↦ absurd hj (by omega)) h
  | succ remaining ih =>
    cases hsem : l.semaphores i with
    | none => exact ⟨.nullSemaphore i, by simp only [copyEntries, hsem]⟩
    | some sem =>
      by_cases hi : i < hrxMaxQueueSemaphores
      · simp only [copyEntries, hsem, hi, dif_pos]
        refine ih _ _ fun hrest ↦ h fun j hij hj ↦ ?_
        obtain rfl | hlt := eq_or_lt_of_le hij
        · exact ⟨hi, by rw [hsem]; rfl⟩
        · exact hrest j hlt (by omega)
      · exact ⟨.outOfArray i, by simp only [copyEntries, hsem, hi, dif_neg, not_false_eq_true]⟩

theorem fits_some {l : CallerList} : Fits (some l) ↔
    ∀ j, 0 ≤ j → j < 0 + l.count → j < hrxMaxQueueSemaphores ∧ (l.semaphores j).isSome = true := by
  constructor
  · intro h j _ hj
    obtain ⟨hcount, hsome⟩ := h l rfl
    exact ⟨by omega, hsome j (by omega)⟩
  · rintro h l' ⟨⟩
    refine ⟨Nat.le_of_not_lt fun hlt ↦ ?_, fun i hi ↦ (h i (Nat.zero_le i) (by omega)).2⟩
    exact absurd (h hrxMaxQueueSemaphores (Nat.zero_le _) (by omega)).1 (lt_irrefl _)

theorem toIreeSemList_ok {list : CallerListPtr} (h : Fits list) :
    toIreeSemList list = .ok (entries list) := by
  cases list with
  | none => rfl
  | some l =>
    obtain ⟨copied, hcopied, -, hpoint⟩ := copyEntries_ok l l.count 0 .zeroed (fits_some.mp h)
    have hpoints : copied.points l.count = entries (some l) := by
      refine List.filterMap_congr fun i hi ↦ ?_
      have hlt : i < l.count := List.mem_range.mp hi
      exact hpoint i (Nat.zero_le i) (by omega)
    by_cases hcount : l.count = 0
    · simp [toIreeSemList, hcount, entries]
    · simp only [toIreeSemList, hcount, if_false, hcopied, Except.map, hpoints]

theorem toIreeSemList_error {list : CallerListPtr} (h : ¬Fits list) :
    ∃ fault, toIreeSemList list = .error fault := by
  cases list with
  | none => exact absurd (fun l hl ↦ nomatch hl) h
  | some l =>
    obtain ⟨fault, hfault⟩ := copyEntries_error l l.count 0 .zeroed (mt fits_some.mpr h)
    have hcount : l.count ≠ 0 := fun h0 ↦ h (fits_some.mpr fun j _ hj ↦ absurd hj (by omega))
    exact ⟨fault, by simp only [toIreeSemList, hcount, if_false, hfault, Except.map]⟩

theorem handed_entries {list : CallerListPtr} (h : Fits list) :
    Handed list (entries list) := by
  cases list with
  | none => exact ⟨rfl, nofun⟩
  | some l =>
    have hmap : entries (some l) = (List.range l.count).map fun i ↦
        ⟨((l.semaphores i).getD .null).hal, l.values i⟩ := by
      refine List.filterMap_eq_map_iff_forall_eq_some.mpr fun i hi ↦ ?_
      obtain ⟨sem, hsem⟩ := Option.isSome_iff_exists.mp ((h l rfl).2 i (List.mem_range.mp hi))
      rw [CallerList.point, hsem]
      rfl
    refine ⟨by simp [hmap], ?_⟩
    rintro _ ⟨⟩ i hi
    obtain ⟨sem, hsem⟩ := Option.isSome_iff_exists.mp ((h l rfl).2 i hi)
    exact ⟨sem, hsem, by simp [hmap, hi, hsem]⟩

abbrev Unsubmitted (m : Hrx σ α) : Prop := Confined (fun _ ↦ ()) (fun c ↦ handed c = none) m

/-- A program that hands the lists `w` and `g` to IREE, once. -/
def Submits (w g : List SemaphorePoint) (m : Hrx σ α) : Prop :=
  ∀ o n s, submissions (m.run o n s).events = [(w, g)]

theorem Unsubmitted.submissions {m : Hrx σ α} (hm : Unsubmitted m) (o : Outside) (n : ℕ) (s : σ) :
    submissions (m.run o n s).events = [] :=
  List.filterMap_eq_nil_iff.mpr (hm o n s).2

theorem submits_call {w g : List SemaphorePoint} {c : Call} {k : Happened → Hrx σ α}
    (hc : handed c = some (w, g)) (hk : ∀ e, Unsubmitted (k e)) : Submits w g (call c >>= k) := by
  intro o n s
  have hrest := (hk (happens o n c)).submissions o (n + 1) s
  rw [submissions] at hrest
  simp [submissions, hc, hrest]

theorem hrxStatusFromIree_unsubmitted (status : IreeStatus) :
    Unsubmitted (hrxStatusFromIree status : Hrx σ HrxStatus) :=
  hrxStatusFromIree_calls (fun _ ↦ rfl) status

theorem transferBuffer_unsubmitted (device : DevicePtr) (qa : ℕ) (command : Command) :
    Unsubmitted (transferBuffer device qa command : Hrx σ (Except HrxStatus Obj)) := by
  have hstatus : ∀ status, Unsubmitted
      (do return .error (← hrxStatusFromIree status) : Hrx σ (Except HrxStatus Obj)) := fun status ↦
    (hrxStatusFromIree_unsubmitted status).bind fun _ ↦ .pure _
  have hrelease : ∀ cb status, Unsubmitted (do
      let _ ← call (.commandBufferRelease cb)
      return .error (← hrxStatusFromIree status) : Hrx σ (Except HrxStatus Obj)) := fun cb status ↦
    .bind (.call rfl) fun _ ↦ hstatus status
  refine .bind (.call rfl) fun cb ↦ .ite (hstatus _)
    (.bind (.call rfl) fun b ↦ .ite (hrelease _ _) ?_)
  refine .bind (.call rfl) fun c ↦ .ite (hrelease _ _)
    (.bind (.call rfl) fun e ↦ .ite (hrelease _ _) ?_)
  exact .pure _

theorem executeTransfer_submits (device : DevicePtr) (qa : ℕ) (cb : Obj)
    (w g : List SemaphorePoint) :
    Submits w g (executeTransfer device qa cb w g : Hrx σ HrxStatus) :=
  submits_call rfl fun _ ↦ .bind (.call rfl) fun _ ↦ hrxStatusFromIree_unsubmitted _

theorem submissions_append (es fs : Trace) :
    submissions (es ++ fs) = submissions es ++ submissions fs :=
  List.filterMap_append

theorem withLists_safe_iff {waits signals : CallerListPtr}
    {submit : List SemaphorePoint → List SemaphorePoint → Hrx σ HrxStatus}
    (hsubmit : ∀ w g, Submits w g (submit w g)) {es : Trace} (hes : submissions es = [])
    (o : Outside) (n : ℕ) (s : σ) :
    Safe waits signals (((withLists waits signals submit).run o n s).after es) ↔
      Fits waits ∧ Fits signals := by
  by_cases hw : Fits waits
  · by_cases hg : Fits signals
    · refine iff_of_true ?_ ⟨hw, hg⟩
      simp only [withLists, toIreeSemList_ok hw, toIreeSemList_ok hg]
      refine ⟨_, rfl, .inr ⟨_, _, ?_, handed_entries hw, handed_entries hg⟩⟩
      simp only [run_bind, run_pure, Outcome.after_events, List.append_nil, submissions_append, hes,
        List.nil_append, hsubmit _ _ o n s]
    · obtain ⟨fault, hfault⟩ := toIreeSemList_error hg
      refine iff_of_false ?_ fun h ↦ hg h.2
      simp only [withLists, toIreeSemList_ok hw, hfault]
      rintro ⟨status, ⟨⟩, _⟩
  · obtain ⟨fault, hfault⟩ := toIreeSemList_error hw
    refine iff_of_false ?_ fun h ↦ hw h.1
    simp only [withLists, hfault]
    rintro ⟨status, ⟨⟩, _⟩

/-- What a preparation has to come to for the operation to be safe: an error
status, or lists that fit. -/
def Admits (waits signals : CallerListPtr) : Except HrxStatus α → Prop
  | .error status => hrxStatusIsOk status = false
  | .ok _ => Fits waits ∧ Fits signals

theorem submitting_safe_iff {prepare : Hrx σ (Except HrxStatus α)} {waits signals : CallerListPtr}
    {submit : α → List SemaphorePoint → List SemaphorePoint → Hrx σ HrxStatus}
    (hprepare : Unsubmitted prepare) (hsubmit : ∀ a w g, Submits w g (submit a w g)) (o : Outside)
    (n : ℕ) (s : σ) :
    Safe waits signals ((submitting prepare waits signals submit).run o n s) ↔
      Admits waits signals (prepare.run o n s).val := by
  have hes := hprepare.submissions o n s
  rw [submitting, run_bind]
  generalize (prepare.run o n s) = r at *
  cases hval : r.val with
  | error status =>
    constructor
    · rintro ⟨_, ⟨⟩, ⟨hstatus, -⟩ | ⟨w, g, hsub, -⟩⟩
      · exact hstatus
      · simp [hes] at hsub
    · exact fun hstatus ↦ ⟨status, rfl, .inl ⟨hstatus, by simpa using hes⟩⟩
  | ok a => exact withLists_safe_iff (hsubmit a) hes o _ _

/-- An error status is one exactly when its payload could be allocated. -/
theorem hrxMakeStatus_error_iff {code : ℤ} (hc : code ≠ 0) (message : Option String) (o : Outside)
    (n : ℕ) (s : σ) : hrxStatusIsOk ((hrxMakeStatus code message).run o n s).val = false ↔
      ok (payload o n) = true := by
  unfold payload
  cases hok : ok (happens o n (.malloc 16)) with
  | false => simp [hrxMakeStatus, hc, hok, hrxStatusIsOk]
  | true => simp [hrxMakeStatus, hc, hok, hrxStatusIsOk]

theorem hrxStatusFromIree_error_iff {e : Happened} (he : ok e = false) (o : Outside) (n : ℕ)
    (s : σ) :
    hrxStatusIsOk ((hrxStatusFromIree e.answer.status).run o n s).val = false ↔
      ok (payload o n) = true := by
  cases hs : e.answer.status with
  | none => simp [ok, hs] at he
  | some err =>
    unfold hrxStatusFromIree
    split
    · contradiction
    · split
      · exact hrxMakeStatus_error_iff (hrxCodeFromIree_ne_zero _) _ o n s
      · exact hrxMakeStatus_error_iff (hrxCodeFromIree_ne_zero _) _ o n s

/-- A refusal hands nothing over, so it is safe when it returns an error. -/
theorem refuse_safe_iff {code : HrxStatusCode} (hc : code ≠ .ok) (message : String)
    (waits signals : CallerListPtr) (o : Outside) (n : ℕ) (s : σ) :
    Safe waits signals ((refuse code message).run o n s) ↔ ok (payload o n) = true := by
  have hnone : Unsubmitted (refuse code message : Hrx σ (Except MemoryFault HrxStatus)) :=
    (hrxError_calls (fun _ ↦ rfl) code message).bind fun _ ↦ .pure _
  rw [← hrxMakeStatus_error_iff (HrxStatusCode.toInt_ne_zero hc) (some message) o n s]
  constructor
  · rintro ⟨_, ⟨⟩, ⟨hstatus, -⟩ | ⟨w, g, hsub, -⟩⟩
    · exact hstatus
    · rw [hnone.submissions o n s] at hsub
      cases hsub
  · exact fun hstatus ↦ ⟨_, rfl, .inl ⟨hstatus, hnone.submissions o n s⟩⟩

/-- Where the payload of the error status is allocated when `transfer_buffer`
does not come to a command buffer. -/
def transferRefusal (o : Outside) (n : ℕ) (device : DevicePtr) (qa : ℕ) (command : Command) :
    Option ℕ :=
  if !ok (happens o n (.commandBufferCreate device.halDevice 1 qa)) then some (n + 1)
  else if !ok (happens o (n + 1) (.commandBufferBegin (some n))) then some (n + 3)
  else if !ok (happens o (n + 2) (.commandBufferRecord (some n) command)) then some (n + 4)
  else if !ok (happens o (n + 3) (.commandBufferEnd (some n))) then some (n + 5)
  else none

/-- Where the payload of the error status is allocated when an operation is
refused before it reads its lists: for a NULL argument, for a command buffer it
could not record, or for a thunk it could not allocate. -/
def QueueOperation.refusal (o : Outside) (n : ℕ) (device : HrxDevice) (affinity : ℕ) :
    QueueOperation → Option ℕ
  | .fill buffer offset size pattern patternSize =>
    match device, buffer, pattern with
    | some dev, some buf, some p =>
      transferRefusal o n dev (normalizeAffinity affinity)
        (.fillBuffer ⟨buf.hal, offset, size⟩ p patternSize)
    | _, _, _ => some n
  | .copy src srcOffset dst dstOffset size =>
    match device, src, dst with
    | some dev, some s, some d =>
      transferRefusal o n dev (normalizeAffinity affinity)
        (.copyBuffer ⟨s.hal, srcOffset, size⟩ ⟨d.hal, dstOffset, size⟩)
    | _, _, _ => some n
  | .barrier => if device.isSome then none else some n
  | .hostCall callback =>
    if device.isNone || callback.isNone then some n
    else if !ok (happens o n .hostCallThunk) then some (n + 1)
    else none
  | .dispatch x =>
    if device.isNone || x.executable.isNone || x.config.isNone then some n
    else if (x.bindingCount > 0 ∧ x.bindings.isNone) ∨
      (x.constantsSize > 0 ∧ x.constants.isNone) then some n
    else if (x.bindings.elim (some []) (buildHalBindings · x.bindingCount)).isNone then some n
    else none

/-- A refused operation can allocate its error status, and the lists of one that
is not refused fit. -/
def Admitted (o : Outside) (waits signals : CallerListPtr) : Option ℕ → Prop
  | some m => ok (payload o m) = true
  | none => Fits waits ∧ Fits signals

theorem transferBuffer_admits (waits signals : CallerListPtr) (device : DevicePtr) (qa : ℕ)
    (command : Command) (o : Outside) (n : ℕ) (s : σ) :
    Admits waits signals ((transferBuffer device qa command).run o n s).val ↔
      Admitted o waits signals (transferRefusal o n device qa command) := by
  cases hx : ok (happens o n (.commandBufferCreate device.halDevice 1 qa)) with
  | false =>
    have hval := hrxStatusFromIree_error_iff hx o (n + 1) s
    simpa [transferBuffer, transferRefusal, Admits, Admitted, hx] using hval
  | true =>
    cases hb : ok (happens o (n + 1) (.commandBufferBegin (some n))) with
    | false =>
      have hval := hrxStatusFromIree_error_iff hb o (n + 3) s
      simpa [transferBuffer, transferRefusal, Admits, Admitted, hx, hb] using hval
    | true =>
      cases hc : ok (happens o (n + 2) (.commandBufferRecord (some n) command)) with
      | false =>
        have hval := hrxStatusFromIree_error_iff hc o (n + 4) s
        simpa [transferBuffer, transferRefusal, Admits, Admitted, hx, hb, hc] using hval
      | true =>
        cases he : ok (happens o (n + 3) (.commandBufferEnd (some n))) with
        | false =>
          have hval := hrxStatusFromIree_error_iff he o (n + 5) s
          simpa [transferBuffer, transferRefusal, Admits, Admitted, hx, hb, hc, he] using hval
        | true => simp [transferBuffer, transferRefusal, Admits, Admitted, hx, hb, hc, he]

theorem transfer_safe_iff (waits signals : CallerListPtr) (device : DevicePtr) (qa : ℕ)
    (command : Command) (o : Outside) (n : ℕ) (s : σ) :
    Safe waits signals ((submitting (transferBuffer device qa command) waits signals
        (executeTransfer device qa)).run o n s) ↔
      Admitted o waits signals (transferRefusal o n device qa command) :=
  (submitting_safe_iff (transferBuffer_unsubmitted device qa command)
    (executeTransfer_submits device qa) o n s).trans
    (transferBuffer_admits waits signals device qa command o n s)

theorem newHostCallThunk_admits (waits signals : CallerListPtr) (o : Outside) (n : ℕ) (s : σ) :
    Admits waits signals (newHostCallThunk.run o n s).val ↔
      Admitted o waits signals
        (if !ok (happens o n .hostCallThunk) then some (n + 1) else none) := by
  cases hok : ok (happens o n .hostCallThunk) with
  | false =>
    have hcode : HrxStatusCode.outOfMemory.toInt ≠ 0 := by decide
    have hval :=
      hrxMakeStatus_error_iff hcode (some "failed to allocate host call thunk") o (n + 1) s
    simpa [newHostCallThunk, hrxError, Admits, Admitted, hok] using hval
  | true => simp [newHostCallThunk, Admits, Admitted, hok]

/-- A queue operation is safe exactly when, if it is refused, the refusal can be
reported, and otherwise both lists fit the stack arrays. -/
theorem queue_lists_safe_iff (k : QueueOperation) (device : HrxDevice) (affinity : ℕ)
    (waits signals : CallerListPtr) (o : Outside) (n : ℕ) (s : σ) :
    Safe waits signals ((k.submit device affinity waits signals).run o n s) ↔
      Admitted o waits signals (k.refusal o n device affinity) := by
  have hrefuse : ∀ message, Safe waits signals ((refuse .invalidArgument message).run o n s) ↔
      ok (payload o n) = true := fun message ↦
    refuse_safe_iff (by decide) message waits signals o n s
  cases k with
  | fill buffer offset size pattern patternSize =>
    simp only [QueueOperation.submit, QueueOperation.refusal, hrxQueueFill]
    split
    · exact transfer_safe_iff waits signals _ _ _ o n s
    · exact hrefuse _
  | copy src srcOffset dst dstOffset size =>
    simp only [QueueOperation.submit, QueueOperation.refusal, hrxQueueCopy]
    split
    · exact transfer_safe_iff waits signals _ _ _ o n s
    · exact hrefuse _
  | barrier =>
    cases device with
    | none => exact hrefuse _
    | some dev =>
      exact submitting_safe_iff (.pure _) (fun _ _ _ ↦ submits_call rfl fun _ ↦
        hrxStatusFromIree_unsubmitted _) o n s
  | hostCall callback =>
    cases device with
    | none => exact hrefuse _
    | some dev =>
      cases callback with
      | none => exact hrefuse _
      | some fn =>
        refine (submitting_safe_iff ?_ (fun _ _ _ ↦ submits_call rfl fun e ↦ ?_) o n s).trans
          (newHostCallThunk_admits waits signals o n s)
        · exact .bind (.call rfl) fun _ ↦
            .ite (.bind (hrxError_calls (fun _ ↦ rfl) _ _) fun _ ↦ .pure _)
            (.pure _)
        · exact .ite (.bind (.call rfl) fun _ ↦ hrxStatusFromIree_unsubmitted _)
            (hrxStatusFromIree_unsubmitted _)
  | dispatch x =>
    simp only [QueueOperation.submit, QueueOperation.refusal, hrxQueueDispatch]
    split
    · rename_i dev executable config hexecutable hconfig
      simp only [hexecutable, hconfig, Option.isNone_some, Bool.or_false,
        Bool.false_eq_true, if_false]
      split
      · exact hrefuse _
      · split
        · rename_i hbindings
          simp only [hbindings, Option.isNone_none, if_true]
          exact hrefuse _
        · rename_i bindings hbindings
          simp only [hbindings, Option.isNone_some, Bool.false_eq_true, if_false]
          exact submitting_safe_iff (.pure _) (fun _ _ _ ↦ submits_call rfl fun _ ↦
            hrxStatusFromIree_unsubmitted _) o n s
    · rename_i device _ _ _ hnull
      have hnone : (device.isNone || x.executable.isNone || x.config.isNone) = true := by
        cases hd : device with
        | none => rfl
        | some dev =>
          cases he : x.executable with
          | none => rfl
          | some executable =>
            cases hc : x.config with
            | none => rfl
            | some config => exact (hnull dev executable config hd he hc).elim
      rw [if_pos hnone]
      exact hrefuse _

def calm : Outside := fun _ _ ↦ {}

def seventeen : CallerList := ⟨fun i ↦ some ⟨i, i⟩, fun _ ↦ 1, 17⟩

/-- A barrier with seventeen waits writes past its stack arrays. -/
theorem barrier_overruns :
    ¬Safe (some seventeen) none
      ((QueueOperation.barrier.submit (some ⟨0, 0, 0, 0⟩) 0 (some seventeen) none).run calm 0
        ()) := by
  have hfault :
      ((QueueOperation.barrier.submit (some ⟨0, 0, 0, 0⟩) 0 (some seventeen) none).run calm 0
        ()).val =
      .error (.outOfArray 16) := rfl
  rintro ⟨status, hok, -⟩
  rw [hfault] at hok
  cases hok

end SemaphoreLists

end HrxSystem.Libhrx
