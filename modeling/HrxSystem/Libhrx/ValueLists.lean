import HrxSystem.Counting.Heap
import HrxSystem.Libhrx.Objects

namespace HrxSystem.Libhrx

open External Program Counting

structure BufferViewPtr where
  addr : ℕ
  hal : Obj
deriving DecidableEq

structure FencePtr where
  addr : ℕ
  hal : Obj
deriving DecidableEq

abbrev HrxBufferView := Option BufferViewPtr
abbrev HrxFence := Option FencePtr

structure HrxValueListS where
  vmList : Obj
deriving DecidableEq

abbrev ValueLists := Heap HrxValueListS

abbrev HrxValueList := Option ℕ

/-- The value list that `hrx_value_list_create` writes, if any, and its status. -/
def hrxValueListCreate (capacity : ℕ) (list : Bool) : Hrx ValueLists (HrxStatus × HrxValueList) :=
  if !list then return (← hrxError .invalidArgument "list is NULL", none)
  else do
    let s ← call (.vmListCreate capacity)
    if !ok s then return (← hrxStatusFromIree s.answer.status, none)
    let e ← call .arcNew
    let lists ← state
    let a := lists.fresh e.answer.value
    update fun lists ↦ lists.put a (some ⟨1, ⟨s.pos⟩⟩)
    return (hrxOkStatus, some a)

def hrxValueListRetain (list : ℕ) : Hrx ValueLists Unit := update fun lists ↦ lists.retain list

def hrxValueListRelease (list : ℕ) : Hrx ValueLists Unit := do
  let lists ← state
  update fun lists ↦ (lists.release list).2
  match (lists.release list).1 with
  | none => return ()
  | some x => let _ ← call (.vmListRelease x.vmList)

def onList (list : ℕ) (push : Obj → Call) : Hrx ValueLists HrxStatus := do
  let lists ← state
  match lists.cell list with
  | none => return none
  | some arc => do
    let s ← call (push arc.data.vmList)
    hrxStatusFromIree s.answer.status

def hrxValueListPushI64 (list : HrxValueList) (value : ℤ) : Hrx ValueLists HrxStatus :=
  match list with
  | none => hrxError .invalidArgument "list is NULL"
  | some l => onList l (.vmListPushValue · value)

def hrxValueListPushNullRef (list : HrxValueList) : Hrx ValueLists HrxStatus :=
  match list with
  | none => hrxError .invalidArgument "list is NULL"
  | some l => onList l (.vmListPushRefMove · none)

def pushRef (list : ℕ) (ref : HalRef) : Hrx ValueLists HrxStatus := do
  let _ ← call (.retainRef ref)
  onList list (.vmListPushRefMove · (some ref))

def pushChecked (list : HrxValueList) (ref : Option HalRef) (message : String) :
    Hrx ValueLists HrxStatus :=
  match list, ref with
  | some l, some r => pushRef l r
  | _, _ => hrxError .invalidArgument message

def hrxValueListPushBuffer (list : HrxValueList) (buffer : HrxBuffer) : Hrx ValueLists HrxStatus :=
  pushChecked list (buffer.map fun b ↦ .buffer b.hal) "list or buffer is NULL"

def hrxValueListPushBufferView (list : HrxValueList) (bufferView : HrxBufferView) :
    Hrx ValueLists HrxStatus :=
  pushChecked list (bufferView.map fun v ↦ .bufferView v.hal) "list or buffer_view is NULL"

def hrxValueListPushFence (list : HrxValueList) (fence : HrxFence) : Hrx ValueLists HrxStatus :=
  pushChecked list (fence.map fun f ↦ .fence f.hal) "list or fence is NULL"

inductive ListCall
  | create (capacity : ℕ) (list : Bool)
  | retain (list : ℕ)
  | release (list : ℕ)
  | pushI64 (list : HrxValueList) (value : ℤ)
  | pushNullRef (list : HrxValueList)
  | pushBuffer (list : HrxValueList) (buffer : HrxBuffer)
  | pushBufferView (list : HrxValueList) (bufferView : HrxBufferView)
  | pushFence (list : HrxValueList) (fence : HrxFence)

namespace ListCall

def run : ListCall → Hrx ValueLists (HrxStatus × HrxValueList)
  | create capacity list => hrxValueListCreate capacity list
  | retain list => do hrxValueListRetain list; return (hrxOkStatus, none)
  | release list => do hrxValueListRelease list; return (hrxOkStatus, none)
  | pushI64 list value => return (← hrxValueListPushI64 list value, none)
  | pushNullRef list => return (← hrxValueListPushNullRef list, none)
  | pushBuffer list buffer => return (← hrxValueListPushBuffer list buffer, none)
  | pushBufferView list bufferView => return (← hrxValueListPushBufferView list bufferView, none)
  | pushFence list fence => return (← hrxValueListPushFence list fence, none)

def list : ListCall → HrxValueList
  | create .. => none
  | retain list | release list => some list
  | pushI64 list _ | pushNullRef list | pushBuffer list _ | pushBufferView list _
  | pushFence list _ => list

def Live (_ : ℕ) (lists : ValueLists) (k : ListCall) (_ : Outside) : Prop :=
  ∀ a, k.list = some a → ∃ arc, lists.cell a = some arc

end ListCall

/-- The reference counts of the HAL objects, and the slots of the live VM lists that hold one. -/
structure Vm where
  count : HalRef → ℤ
  slots : List (Obj × HalRef)

namespace Vm

def held (vm : Vm) (r : HalRef) : ℕ := vm.slots.countP (·.2 = r)

/-- What IREE does to them in a call: an accepted push takes the reference over, and a list gives
back one reference for each of its slots when it is released. -/
def after (vm : Vm) (e : Happened) : Vm :=
  match e.call with
  | .retainRef r => { vm with count := fun q ↦ if q = r then vm.count q + 1 else vm.count q }
  | .vmListPushRefMove list (some r) =>
    if ok e then { vm with slots := vm.slots ++ [(list, r)] } else vm
  | .vmListRelease list =>
    { count := fun q ↦ vm.count q - vm.slots.countP (· = (list, q)), slots :=
      vm.slots.filter (·.1 ≠ list) }
  | _ => vm

end Vm

/-- The counts and slots after the calls of a trace, from counts `start` and no slots. -/
def vmAfter (start : HalRef → ℤ) (t : Trace) : Vm := t.foldl Vm.after ⟨start, []⟩

abbrev ListLog := List (Entry Call Answer ValueLists (HrxStatus × HrxValueList) ListCall)

abbrev ListRuns (lists : ValueLists) (l : ListLog) : Prop :=
  Runs ListCall.run ListCall.Live .empty lists l

def refusedPush (e : Happened) : Bool :=
  match e.call with
  | .vmListPushValue .. | .vmListPushRefMove .. => !ok e
  | _ => false

/-- After every call each count is what it was before the run and one for each live slot, and no
refused push changed one. -/
structure RefsConserved (start : HalRef → ℤ) (l : ListLog) : Prop where
  counts : ∀ l₁, l₁ <+: l → ∀ r,
    (vmAfter start (trace l₁)).count r = start r + (vmAfter start (trace l₁)).held r
  refused : ∀ l₁ e l₂, l = l₁ ++ e :: l₂ → e.result.events.any refusedPush = true →
    (vmAfter start (trace (l₁ ++ [e]))).count = (vmAfter start (trace l₁)).count

/-- The move of a reference to `r` into a list. -/
def movesRef (r : HalRef) : Call → Bool
  | .vmListPushRefMove _ (some q) => q = r
  | _ => false

def retains (r : HalRef) (t : Trace) : ℕ := t.countP fun e ↦ e.call = .retainRef r

def moves (r : HalRef) (t : Trace) : ℕ := t.countP fun e ↦ movesRef r e.call

def leaks (r : HalRef) (t : Trace) : ℕ := t.countP fun e ↦ movesRef r e.call && !ok e

def leavesRefs : Call → Bool
  | .retainRef _ | .vmListPushRefMove _ (some _) | .vmListRelease _ => false
  | _ => true

theorem movesRef_of_leavesRefs {c : Call} (h : leavesRefs c = true) (r : HalRef) :
    movesRef r c = false := by
  unfold movesRef
  split
  · cases h
  · rfl

theorem moves_of_leavesRefs {t : Trace} (h : ∀ e ∈ t, leavesRefs e.call = true) (r : HalRef) :
    moves r t = 0 :=
  List.countP_eq_zero.mpr fun e he ↦ by simp [movesRef_of_leavesRefs (h e he)]

theorem leaks_of_leavesRefs {t : Trace} (h : ∀ e ∈ t, leavesRefs e.call = true) (r : HalRef) :
    leaks r t = 0 :=
  List.countP_eq_zero.mpr fun e he ↦ by simp [movesRef_of_leavesRefs (h e he)]

theorem retains_of_leavesRefs {t : Trace} (h : ∀ e ∈ t, leavesRefs e.call = true) (r : HalRef) :
    retains r t = 0 := by
  refine List.countP_eq_zero.mpr fun e he hr ↦ ?_
  have hcall := h e he
  rw [of_decide_eq_true hr] at hcall
  cases hcall

namespace Vm

theorem held_filter (vm : Vm) (list : Obj) (r : HalRef) :
    (vm.slots.filter (·.1 ≠ list)).countP (·.2 = r) + vm.slots.countP (· = (list, r)) =
      vm.held r := by
  rw [held, List.countP_filter]
  induction vm.slots with
  | nil => rfl
  | cons p slots ih =>
    rcases p with ⟨l, q⟩
    simp only [List.countP_cons]
    by_cases hl : l = list
    · by_cases hq : q = r <;> simp [hl, hq] at ih ⊢ <;> omega
    · by_cases hq : q = r <;> simp [hl, hq] at ih ⊢ <;> omega

theorem after_of_leavesRefs (vm : Vm) {e : Happened} (h : leavesRefs e.call = true) :
    vm.after e = vm := by
  unfold after
  split
  · rename_i hc
    rw [hc] at h
    cases h
  · rename_i hc
    rw [hc] at h
    cases h
  · rename_i hc
    rw [hc] at h
    cases h
  · rfl

/-- A call moves a count and the slots together, except for what is retained and not taken over. -/
theorem after_count (vm : Vm) (e : Happened) (r : HalRef) :
    (vm.after e).count r - (vm.after e).held r + moves r [e] =
      vm.count r - vm.held r + retains r [e] + leaks r [e] := by
  cases hl : leavesRefs e.call with
  | true =>
    have hes : ∀ f ∈ [e], leavesRefs f.call = true := by simpa using hl
    rw [vm.after_of_leavesRefs hl, moves_of_leavesRefs hes, retains_of_leavesRefs hes,
      leaks_of_leavesRefs hes]
    simp
  | false =>
    unfold leavesRefs at hl
    split at hl
    · rename_i q hc
      by_cases hq : r = q
      · simp [after, hc, moves, retains, leaks, movesRef, held, hq]
        omega
      · simp [after, hc, moves, retains, leaks, movesRef, held, hq, Ne.symm hq]
    · rename_i list q hc
      cases hok : ok e <;> by_cases hq : q = r <;>
        simp [after, hc, moves, retains, leaks, movesRef, held, hok, hq, List.countP_append]
      omega
    · rename_i list hc
      have hheld := vm.held_filter list r
      have hmoves : moves r [e] = 0 := by simp [moves, movesRef, hc]
      have hretains : retains r [e] = 0 := by simp [retains, hc]
      have hleaks : leaks r [e] = 0 := by simp [leaks, movesRef, hc]
      have hafter : vm.after e = ⟨fun q ↦ vm.count q - vm.slots.countP (· = (list, q)),
          vm.slots.filter (·.1 ≠ list)⟩ := by simp [after, hc]
      rw [hmoves, hretains, hleaks, hafter]
      change vm.count r - _ - ((vm.slots.filter (·.1 ≠ list)).countP (·.2 = r) : ℕ) + _ = _
      omega
    · cases hl

end Vm

section Traces

variable {start : HalRef → ℤ} {t u : Trace} {r : HalRef}

theorem vmAfter_snoc (e : Happened) : vmAfter start (t ++ [e]) = (vmAfter start t).after e := by
  simp [vmAfter]

theorem vmAfter_append : vmAfter start (t ++ u) = u.foldl Vm.after (vmAfter start t) := by
  simp [vmAfter]

theorem vmAfter_count (start : HalRef → ℤ) (r : HalRef) (t : Trace) :
    (vmAfter start t).count r + moves r t =
    start r + (vmAfter start t).held r + retains r t + leaks r t := by
  induction t using List.reverseRecOn with
  | nil => simp [vmAfter, Vm.held, moves, retains, leaks]
  | append_singleton t e ih =>
    have hstep := (vmAfter start t).after_count e r
    rw [vmAfter_snoc]
    have hmoves : moves r (t ++ [e]) = moves r t + moves r [e] := List.countP_append
    have hretains : retains r (t ++ [e]) = retains r t + retains r [e] := List.countP_append
    have hleaks : leaks r (t ++ [e]) = leaks r t + leaks r [e] := List.countP_append
    rw [hmoves, hretains, hleaks]
    push_cast
    omega

theorem leaks_eq_zero_iff : (∀ r, leaks r t = 0) ↔
    ∀ e ∈ t, ∀ list r, e.call = .vmListPushRefMove list (some r) → ok e = true := by
  constructor
  · intro h e he list r hc
    have hnone := List.countP_eq_zero.mp (h r) e he
    simpa [movesRef, hc] using hnone
  · intro h r
    refine List.countP_eq_zero.mpr fun e he ↦ ?_
    unfold movesRef
    split
    · rename_i list q hc
      simp [h e he list q hc]
    · simp

end Traces

/-- What a call on live lists does to the references: nothing, give up a list, or push one
reference. -/
inductive Touches : Trace → Prop
  | nothing {es : Trace} : (∀ e ∈ es, leavesRefs e.call = true) → Touches es
  | released {e : Happened} {list : Obj} : e.call = .vmListRelease list → Touches [e]
  | pushed {e f : Happened} {es : Trace} {list : Obj} {r : HalRef} : e.call = .retainRef r →
      f.call = .vmListPushRefMove list (some r) → (∀ g ∈ es, g.call = .malloc 16) →
      Touches (e :: f :: es)

theorem leavesRefs_of_malloc {es : Trace} (h : ∀ e ∈ es, e.call = .malloc 16) :
    ∀ e ∈ es, leavesRefs e.call = true := by
  intro e he
  rw [h e he]
  rfl

section Calls

variable {o : Outside} {n : ℕ} {lists : ValueLists}

theorem Touches.of_confined {α : Type} {m : Hrx ValueLists α}
    (hm : Confined (fun _ ↦ ()) (fun c ↦ leavesRefs c = true) m) :
    Touches (m.run o n lists).events :=
  .nothing (hm o n lists).2

theorem onList_leavesRefs (list : ℕ) (push : Obj → Call) (hpush : ∀ v, leavesRefs (push v) = true) :
    Confined (fun _ ↦ ()) (fun c ↦ leavesRefs c = true) (onList list push) := by
  refine .bind .state fun lists ↦ ?_
  split
  · exact .pure _
  · exact .bind (.call (hpush _)) fun _ ↦ hrxStatusFromIree_calls (fun _ ↦ rfl) _

theorem error_leavesRefs (code : HrxStatusCode) (message : String) :
    Confined (fun _ ↦ ()) (fun c ↦ leavesRefs c = true)
      (hrxError code message : Hrx ValueLists HrxStatus) :=
  hrxError_calls (fun _ ↦ rfl) code message

theorem touches_map {m : Hrx ValueLists HrxStatus} (h : Touches (m.run o n lists).events) :
    Touches
      ((return (← m, none) : Hrx ValueLists (HrxStatus × HrxValueList)).run o n lists).events := by
  simpa using h

theorem pushRef_touches {list : ℕ} {arc : Arc HrxValueListS} (hcell : lists.cell list = some arc)
    (r : HalRef) :
    Touches ((pushRef list r).run o n lists).events := by
  have hpush : ((pushRef list r).run o n lists).events = happens o n (.retainRef r) ::
      happens o (n + 1) (.vmListPushRefMove arc.data.vmList (some r)) ::
        payloads o (n + 2) (happens o (n + 1) (.vmListPushRefMove arc.data.vmList (some r))) := by
    simp [pushRef, onList, hcell, run_hrxStatusFromIree_made]
  rw [hpush]
  exact .pushed rfl rfl (payloads_calls o (n + 2) _)

theorem pushChecked_touches {list : HrxValueList}
    (hlive : ∀ a, list = some a → ∃ arc, lists.cell a = some arc) (ref : Option HalRef)
    (message : String) :
    Touches ((pushChecked list ref message).run o n lists).events := by
  unfold pushChecked
  split
  · rename_i l r
    obtain ⟨arc, hcell⟩ := hlive l rfl
    exact pushRef_touches hcell r
  · exact .of_confined (error_leavesRefs _ _)

theorem release_touches (list : ℕ) :
    Touches ((hrxValueListRelease list).run o n lists).events := by
  cases hrel : (lists.release list).1 with
  | none =>
    refine .nothing ?_
    simp [hrxValueListRelease, hrel]
  | some x =>
    have hevents :
        ((hrxValueListRelease list).run o n lists).events =
          [happens o n (.vmListRelease x.vmList)] := by
      simp [hrxValueListRelease, hrel]
    rw [hevents]
    exact .released rfl

theorem create_touches (capacity : ℕ) (list : Bool) :
    Touches ((hrxValueListCreate capacity list).run o n lists).events := by
  refine .of_confined (.ite (.bind (error_leavesRefs _ _) fun _ ↦ .pure _) ?_)
  refine .bind (.call rfl) fun s ↦
    .ite (.bind (hrxStatusFromIree_calls (fun _ ↦ rfl) _) fun _ ↦ .pure _) ?_
  exact .bind (.call rfl) fun _ ↦ .bind .state fun _ ↦ .bind (.update fun _ ↦ rfl) fun _ ↦ .pure _

theorem pushI64_touches (list : HrxValueList) (value : ℤ) :
    Touches ((hrxValueListPushI64 list value).run o n lists).events := by
  cases list with
  | none => exact .of_confined (error_leavesRefs _ _)
  | some l => exact .of_confined (onList_leavesRefs l (.vmListPushValue · value) fun _ ↦ rfl)

theorem pushNullRef_touches (list : HrxValueList) :
    Touches ((hrxValueListPushNullRef list).run o n lists).events := by
  cases list with
  | none => exact .of_confined (error_leavesRefs _ _)
  | some l => exact .of_confined (onList_leavesRefs l (.vmListPushRefMove · none) fun _ ↦ rfl)

theorem ListCall.run_touches {k : ListCall} (hk : k.Live n lists o) :
    Touches (k.run.run o n lists).events := by
  cases k with
  | create capacity list => exact create_touches capacity list
  | retain list => exact .nothing (by simp [run, hrxValueListRetain])
  | release list => simpa [run] using release_touches list
  | pushI64 list value => exact touches_map (pushI64_touches list value)
  | pushNullRef list => exact touches_map (pushNullRef_touches list)
  | pushBuffer list buffer => exact touches_map (pushChecked_touches hk _ _)
  | pushBufferView list view => exact touches_map (pushChecked_touches hk _ _)
  | pushFence list fence => exact touches_map (pushChecked_touches hk _ _)

end Calls

theorem Touches.balanced {es : Trace} (h : Touches es) (r : HalRef) :
    retains r es = moves r es := by
  cases h with
  | nothing hes => rw [retains_of_leavesRefs hes, moves_of_leavesRefs hes]
  | released hc => simp [retains, moves, movesRef, hc]
  | @pushed e f es list q he hf hes =>
    have hr : retains r (e :: f :: es) = (if q = r then 1 else 0) + retains r es := by
      simp [retains, List.countP_cons, he, hf, Nat.add_comm]
    have hm : moves r (e :: f :: es) = (if q = r then 1 else 0) + moves r es := by
      simp [moves, List.countP_cons, movesRef, he, hf, Nat.add_comm]
    have hes' := leavesRefs_of_malloc hes
    rw [hr, hm, retains_of_leavesRefs hes', moves_of_leavesRefs hes']

theorem touches_of_run {lists : ValueLists} {l : ListLog} (h : ListRuns lists l) :
    ∀ e ∈ l, Touches e.result.events := by
  induction h with
  | start =>
    intro e he
    cases he
  | call k o _ hk ih =>
    intro e he
    rcases List.mem_append.mp he with he | he
    · exact ih e he
    · rw [List.mem_singleton.mp he]
      exact ListCall.run_touches hk

theorem balanced_of_touches {l : ListLog} (h : ∀ e ∈ l, Touches e.result.events) (r : HalRef) :
    retains r (trace l) = moves r (trace l) := by
  induction l with
  | nil => rfl
  | cons e l ih =>
    have hcons : trace (e :: l) = e.result.events ++ trace l := by simp [trace]
    have hhead := (h e List.mem_cons_self).balanced r
    have htail := ih fun f hf ↦ h f (List.mem_cons_of_mem e hf)
    have hretains :
        retains r (trace (e :: l)) = retains r e.result.events + retains r (trace l) := by
      rw [hcons]
      exact List.countP_append
    have hmoves : moves r (trace (e :: l)) = moves r e.result.events + moves r (trace l) := by
      rw [hcons]
      exact List.countP_append
    omega

/-- What a run adds to a count beyond the live slots is what its refused pushes kept. -/
theorem count_of_touches (start : HalRef → ℤ) {l : ListLog} (h : ∀ e ∈ l, Touches e.result.events)
    (r : HalRef) :
    (vmAfter start (trace l)).count r =
      start r + (vmAfter start (trace l)).held r + leaks r (trace l) := by
  have hcount := vmAfter_count start r (trace l)
  have hbalanced := balanced_of_touches h r
  omega

theorem leaks_prefix {l₁ l : ListLog} (h : l₁ <+: l) {r : HalRef} (hl : leaks r (trace l) = 0) :
    leaks r (trace l₁) = 0 := by
  obtain ⟨l₂, rfl⟩ := h
  have happend : leaks r (trace l₁) + leaks r (trace l₂) = 0 := by
    rw [← hl, trace_append]
    exact List.countP_append.symm
  omega

theorem foldl_leavesRefs (vm : Vm) {es : Trace} (h : ∀ e ∈ es, leavesRefs e.call = true) :
    es.foldl Vm.after vm = vm := by
  induction es with
  | nil => rfl
  | cons e es ih =>
    rw [List.foldl_cons, vm.after_of_leavesRefs (h e List.mem_cons_self)]
    exact ih fun f hf ↦ h f (List.mem_cons_of_mem e hf)

theorem Touches.refused (vm : Vm) {es : Trace} (h : Touches es)
    (hmoved : ∀ e ∈ es, ∀ list r, e.call = .vmListPushRefMove list (some r) → ok e = true)
    (hrefused : es.any refusedPush = true) : (es.foldl Vm.after vm).count = vm.count := by
  cases h with
  | nothing hes => rw [foldl_leavesRefs vm hes]
  | released hc => simp [refusedPush, hc] at hrefused
  | @pushed e f es list r he hf hes =>
    obtain ⟨g, hg, hpush⟩ := List.any_eq_true.mp hrefused
    rcases List.mem_cons.mp hg with rfl | hg
    · simp [refusedPush, he] at hpush
    rcases List.mem_cons.mp hg with rfl | hg
    · have hok := hmoved g (by simp) list r hf
      simp [refusedPush, hf, hok] at hpush
    · simp [refusedPush, hes g hg] at hpush

/-- The counts are right after every call of a run exactly if no move of a reference is refused. -/
theorem value_lists_conserved_iff {lists : ValueLists} {l : ListLog} (h : ListRuns lists l)
    (start : HalRef → ℤ) :
    RefsConserved start l ↔
      ∀ e ∈ trace l, ∀ list r, e.call = .vmListPushRefMove list (some r) → ok e = true := by
  have htouches := touches_of_run h
  rw [← leaks_eq_zero_iff]
  constructor
  · intro hc r
    have hcount := count_of_touches start htouches r
    have hwant := hc.counts l (List.prefix_refl l) r
    omega
  · intro hleaks
    constructor
    · intro l₁ hl₁ r
      have hcount := count_of_touches start (fun e he ↦ htouches e (hl₁.subset he)) r
      have hnone := leaks_prefix hl₁ (hleaks r)
      omega
    · intro l₁ e l₂ hl hrefused
      have he : e ∈ l := by simp [hl]
      rw [trace_append, trace_single, vmAfter_append]
      refine (htouches e he).refused _ ?_ hrefused
      intro f hf
      exact leaks_eq_zero_iff.mp hleaks f (List.mem_flatMap.mpr ⟨e, he, hf⟩)

def grantsAll : Outside := fun _ _ ↦ {}

def refusesPush : Outside := fun _ c ↦
  match c with
  | .vmListPushRefMove .. => { status := some ⟨8, none⟩ }
  | _ => {}

def pushedAndReleased : List (ListCall × Outside) :=
  [(.create 1 true, grantsAll), (.pushBuffer (some 1) (some ⟨7, 9⟩), grantsAll),
    (.release 1, grantsAll)]

theorem value_lists_conserved_released :
    RefsConserved (fun _ ↦ 1) (play ListCall.run .empty [] pushedAndReleased).2 := by
  have hrun : ListRuns _ (play ListCall.run .empty [] pushedAndReleased).2 :=
    Runs.play .start pushedAndReleased (by
    refine ⟨nofun, ?_, ?_, trivial⟩
    all_goals
      intro a h
      cases h
      exact ⟨_, rfl⟩)
  refine (value_lists_conserved_iff hrun _).mpr ?_
  intro e he _ _ _
  have hok : ∀ e ∈ trace (play ListCall.run .empty [] pushedAndReleased).2, ok e = true := by decide
  exact hok e he

def pushedInVain : List (ListCall × Outside) :=
  [(.create 1 true, grantsAll), (.pushBuffer (some 1) (some ⟨7, 9⟩), refusesPush)]

/-- The reference that a refused push retained is never given back. -/
theorem value_list_push_leaks : ¬ ∀ lists l start, ListRuns lists l → RefsConserved start l := by
  intro h
  have hrun : ListRuns _ (play ListCall.run .empty [] pushedInVain).2 :=
    Runs.play .start pushedInVain (by
    refine ⟨nofun, ?_, trivial⟩
    intro a h
    cases h
    exact ⟨_, rfl⟩)
  have hcount := (h _ _ (fun _ ↦ 1) hrun).counts _ (List.prefix_refl _) (.buffer 9)
  revert hcount
  decide

end HrxSystem.Libhrx
