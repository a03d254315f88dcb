import HrxSystem.Hip.Concurrent
import HrxSystem.Threads.Guarded

namespace HrxSystem.Hip

open External Program Threads

abbrev Exchange := HipRequest × HipAnswer

def HipCall.made : HipCall → Option ℕ
  | .hipMalloc _ size | .hipHostMalloc _ size _ => some size
  | _ => none

namespace HipRequest

def made : HipRequest → Option ℕ
  | .call c => c.made
  | _ => none

def freed : HipRequest → Option Ptr
  | .call c => c.freed
  | _ => none

def memory : HipRequest → Bool
  | .call c => c.isMemory
  | _ => false

/-- The requests that are made without `STATE`. -/
def Passes : HipRequest → Prop
  | .call c => c.isMemory = false
  | .pass .. => True
  | _ => False

theorem memory_iff (r : HipRequest) :
    r.memory = true ↔ (∃ size, r.made = some size) ∨ ∃ p, r.freed = some p := by
  cases r with
  | call c => cases c <;> simp [memory, made, freed, HipCall.isMemory, HipCall.made, HipCall.freed]
  | _ => simp [memory, made, freed]

theorem freed_of_made {r : HipRequest} {size : ℕ} (h : r.made = some size) : r.freed = none := by
  cases r with
  | call c => cases c <;> first | rfl | cases h
  | _ => cases h

theorem freed_of_plain {r : HipRequest} (h : r.memory = false) : r.freed = none := by
  cases r with
  | call c => cases c <;> first | rfl | cases h
  | _ => rfl

theorem made_of_plain {r : HipRequest} (h : r.memory = false) : r.made = none := by
  cases r with
  | call c => cases c <;> first | rfl | cases h
  | _ => rfl

theorem Passes.plain {r : HipRequest} (h : r.Passes) : r.memory = false := by
  cases r with
  | call c => exact h
  | _ => rfl

end HipRequest

/-- A block that one of the memory functions has returned, and that none has been asked to free
since. -/
def Tracked (t : List Exchange) (b : Ptr × ℕ) : Prop :=
  ∃ u e v, t = u ++ e :: v ∧ e.1.made = some b.2 ∧ e.2.ret = 0 ∧ e.2.out.toNat = b.1 ∧
    ∀ f ∈ v, f.1.freed ≠ some b.1

def liveAt (blocks : Blocks) (t : List Exchange) : Set (Ptr × ℕ) :=
  {b | b ∈ blocks (placed 0 t) ∧ Tracked t b}

/-- Nothing but the memory functions frees what they have returned. -/
def SparesTracked (blocks : Blocks) (t : List Exchange) : Prop :=
  ∀ u e v, t = u ++ e :: v → e.1.memory = false → ∀ b, Tracked u b →
    b ∈ blocks (placed 0 u) → b ∈ blocks (placed 0 (u ++ [e]))

/-- What backend and application promise of one request. -/
structure Promised (blocks : Blocks) (t : List Exchange) (e : Exchange) : Prop where
  made : ∀ size, e.1.made = some size → blocks (placed 0 t) ⊆ blocks (placed 0 (t ++ [e])) ∧
    (e.2.ret = 0 → size ≠ 0 → e.2.out.toNat ≠ 0 →
      (e.2.out.toNat, size) ∈ blocks (placed 0 (t ++ [e])) ∧
      ∀ m, (e.2.out.toNat, m) ∉ blocks (placed 0 t))
  freed : ∀ p, e.1.freed = some p → ∀ b ∈ blocks (placed 0 t), b.1 ≠ p →
    b ∈ blocks (placed 0 (t ++ [e]))
  spares : e.1.memory = false → ∀ b, Tracked t b → b ∈ blocks (placed 0 t) →
    b ∈ blocks (placed 0 (t ++ [e]))

section Live

variable {blocks : Blocks} {t : List Exchange} {e : Exchange} {b : Ptr × ℕ}

theorem promised_of_allocates (halloc : Allocates blocks (placed 0 t))
    (hspares : SparesTracked blocks t) :
    ∀ u e v, t = u ++ e :: v → Promised blocks u e := by
  rintro u ⟨r, a⟩ v rfl
  have hsnoc : placed 0 (u ++ [(r, a)]) = placed 0 u ++ [⟨0 + u.length, r, a⟩] := placed_append ..
  have hplaced : placed 0 (u ++ (r, a) :: v) = placed 0 u ++ ⟨0 + u.length, r, a⟩ :: placed
      (0 + u.length + 1) v :=
    placed_append ..
  refine ⟨fun size hmade ↦ ?_, fun p hfreed ↦ ?_, hspares u _ v rfl⟩
  · rw [hsnoc]
    cases r with
    | call c =>
      cases c with
      | hipMalloc p n =>
        obtain rfl := Option.some.inj hmade
        exact halloc.made _ _ _ hplaced p n (.inl rfl)
      | hipHostMalloc p n flags =>
        obtain rfl := Option.some.inj hmade
        exact halloc.made _ _ _ hplaced p n (.inr ⟨flags, rfl⟩)
      | _ => cases hmade
    | _ => cases hmade
  · rw [hsnoc]
    cases r with
    | call c =>
      cases c with
      | hipFree q =>
        obtain rfl := Option.some.inj hfreed
        exact halloc.freed _ _ _ hplaced q (.inl rfl)
      | hipHostFree q =>
        obtain rfl := Option.some.inj hfreed
        exact halloc.freed _ _ _ hplaced q (.inr rfl)
      | _ => cases hfreed
    | _ => cases hfreed

theorem Tracked.snoc (h : Tracked t b) (he : e.1.freed ≠ some b.1) : Tracked (t ++ [e]) b := by
  obtain ⟨u, f, v, rfl, hmade, hret, hout, hv⟩ := h
  refine ⟨u, f, v ++ [e], by simp, hmade, hret, hout, fun g hg ↦ ?_⟩
  obtain hg | hg := List.mem_append.mp hg
  · exact hv g hg
  · rwa [List.mem_singleton.mp hg]

/-- A request frees no other live block than the one it is asked to. -/
theorem liveAt_snoc (h : Promised blocks t e) (hb : b ∈ liveAt blocks t)
    (he : e.1.freed ≠ some b.1) :
    b ∈ liveAt blocks (t ++ [e]) := by
  obtain ⟨hblock, htracked⟩ := hb
  refine ⟨?_, htracked.snoc he⟩
  cases hm : e.1.memory with
  | false => exact h.spares hm b htracked hblock
  | true =>
    obtain ⟨size, hmade⟩ | ⟨p, hfreed⟩ := (HipRequest.memory_iff e.1).mp hm
    · exact (h.made size hmade).1 hblock
    · refine h.freed p hfreed b hblock fun hp ↦ he ?_
      rw [hfreed, hp]

end Live

def Exported.request : Exported → HipRequest
  | .routed c => .call c
  | .direct name args => .pass name args

/-- The tracer as a call has it while the backend is at work: a free takes the entry out first. -/
def Exported.before (x : Exported) (st : Tracer) : Tracer :=
  x.request.freed.elim st fun p ↦ bufferTableRemove p st

abbrev Sound (blocks : Blocks) (st : Tracer) (t : List Exchange) : Prop :=
  Valid (fun _ ↦ liveAt blocks t) st []

/-- What holds while call `x` has the lock, which has found the state `st`. -/
structure Held (blocks : Blocks) (x : Exported) (st : Tracer) (es t : List Exchange) : Prop where
  sound : Sound blocks (x.before st) t
  apart : ∀ p, x.request.freed = some p → ∀ a ∈ (x.before st).buffers.entries, a.ptr ≠ p
  fresh : ∀ size, x.request.made = some size → ∀ e ∈ es, e.2.ret = 0 → size ≠ 0 →
    e.2.out.toNat ≠ 0 →
    (e.2.out.toNat, size) ∈ liveAt blocks t ∧ ∀ a ∈ st.buffers.entries, a.ptr ≠ e.2.out.toNat

section Guarding

variable {blocks : Blocks} {present : Present} {direct : PresentDirect} {x : Exported}
  {st st' : Tracer}
variable {es t : List Exchange} {e : Exchange} {p : Ptr} {size : ℕ} {btype : BufferType}

theorem Exported.request_memory (x : Exported) : x.request.memory = x.isMemory := by
  cases x <;> rfl

theorem before_of_not_freed (h : x.request.freed = none) : x.before st = st := by
  rw [Exported.before, h, Option.elim_none]

theorem Sound.snoc (h : Sound blocks st t) (he : Promised blocks t e)
    (hfreed : ∀ a ∈ st.buffers.entries, e.1.freed ≠ some a.ptr) : Sound blocks st (t ++ [e]) :=
  ⟨fun a ha ↦ liveAt_snoc he (h.allocated a ha) (hfreed a ha), h.distinct, h.nonnull⟩

theorem Held.taken (h : Sound blocks st t) (x : Exported) : Held blocks x st [] t := by
  cases hf : x.request.freed with
  | none =>
    refine ⟨?_, fun p hp ↦ (by cases hf.symm.trans hp), fun _ _ e he ↦ absurd he List.not_mem_nil⟩
    rwa [before_of_not_freed hf]
  | some p =>
    have hbefore : x.before st = bufferTableRemove p st := by
      rw [Exported.before, hf, Option.elim_some]
    refine ⟨?_, fun q hq a ha ↦ ?_, fun _ _ e he ↦ absurd he List.not_mem_nil⟩
    · rw [hbefore]
      exact h.free (p := p) (fun _ hb _ ↦ hb) rfl
    · obtain rfl : p = q := Option.some.inj (hf.symm.trans hq)
      rw [hbefore] at ha
      exact (h.removed p a ha).2

theorem Held.pass (h : Held blocks x st es t) (he : Promised blocks t e)
    (hplain : e.1.memory = false) :
    Held blocks x st es (t ++ [e]) := by
  have hfreed := HipRequest.freed_of_plain hplain
  refine ⟨h.sound.snoc he
    fun a _ ↦ by simp [hfreed], h.apart, fun size hsize f hf hret hne hout ↦ ?_⟩
  obtain ⟨hlive, hentries⟩ := h.fresh size hsize f hf hret hne hout
  exact ⟨liveAt_snoc he hlive (by simp [hfreed]), hentries⟩

theorem Held.own (h : Held blocks x st es t) (he : Promised blocks t e) (hreq : e.1 = x.request) :
    Held blocks x st (es ++ [e]) (t ++ [e]) := by
  refine ⟨h.sound.snoc he fun a ha hfreed ↦ h.apart a.ptr (hreq ▸ hfreed) a ha rfl, h.apart, ?_⟩
  intro size hsize f hf hret hne hout
  have hfreed : e.1.freed = none := hreq ▸ HipRequest.freed_of_made hsize
  obtain hf | hf := List.mem_append.mp hf
  · obtain ⟨hlive, hentries⟩ := h.fresh size hsize f hf hret hne hout
    exact ⟨liveAt_snoc he hlive (by simp [hfreed]), hentries⟩
  obtain rfl := List.mem_singleton.mp hf
  obtain ⟨-, hnew⟩ := he.made size (hreq ▸ hsize)
  obtain ⟨hblock, hother⟩ := hnew hret hne hout
  refine ⟨⟨hblock, t, f, [], rfl, hreq ▸ hsize, hret, rfl, fun g hg ↦ absurd hg List.not_mem_nil⟩,
    fun a ha hptr ↦ ?_⟩
  have hsound := h.sound
  rw [before_of_not_freed (hreq ▸ hfreed)] at hsound
  obtain ⟨hblock', -⟩ := hsound.allocated a ha
  rw [Allocation.block, hptr] at hblock'
  exact hother _ hblock'

/-- What a dump reads lies in a block that the backend has not freed. -/
def ReadsLive (blocks : Blocks) (t : List Exchange) (r : HipRequest) : Prop :=
  ∀ p n, r = .stage p n ∨ r = .read p n → ∃ size, n ≤ size ∧ (p, size) ∈ blocks (placed 0 t)

theorem readsLive_of_memory {r : HipRequest} (h : r.memory = true) : ReadsLive blocks t r := by
  rintro p n (rfl | rfl)
  · cases h
  · cases h

theorem readsLive_of_passes {r : HipRequest} (h : r.Passes) : ReadsLive blocks t r := by
  rintro p n (rfl | rfl)
  · cases h
  · cases h

theorem Held.asked {v : HipAnswer → Flow HipRequest HipAnswer Tracer (Option HipResult)}
    {r : HipRequest} (h : Held blocks x st es t)
    (hreach : (tracerFlow present direct x).Reaches st es (.call r v) st') :
    ReadsLive blocks t r ∧ ∀ a, Promised blocks t (r, a) →
    Held blocks x st (es ++ [(r, a)]) (t ++ [(r, a)]) := by
  obtain ⟨e, he, rfl⟩ := hreach.asks
  rw [tracerFlow_program] at he
  cases hx : x.isMemory with
  | true =>
    obtain ⟨c, rfl⟩ : ∃ c, x = .routed c := by
      cases x with
      | routed c => exact ⟨c, rfl⟩
      | direct => cases hx
    have hreq : e.call = .call c := (memory_requests hx _ _ _).2 e he
    have hmem : e.call.memory = true := hreq ▸ hx
    exact ⟨readsLive_of_memory hmem, fun a ha ↦ h.own ha hreq⟩
  | false =>
    have hnone : x.request.freed = none := HipRequest.freed_of_plain (x.request_memory.trans hx)
    have hmade : x.request.made = none := HipRequest.made_of_plain (x.request_memory.trans hx)
    have hasks := (Exported.run_within hx _ _ st rfl).2 e he
    have hplain : e.call.memory = false := by
      cases hcall : e.call with
      | call c =>
        rw [hcall] at hasks
        obtain rfl | rfl := hasks
        · exact hx
        · rfl
      | _ => rfl
    refine ⟨?_, fun a ha ↦ ?_⟩
    · have hentry : ∀ p n, (∃ a ∈ st.buffers.entries, a.ptr = p ∧ n ≤ a.size) →
          ∃ size, n ≤ size ∧ (p, size) ∈ blocks (placed 0 t) := by
        rintro p n ⟨a, ha, rfl, hn⟩
        have hsound := h.sound
        rw [before_of_not_freed hnone] at hsound
        exact ⟨a.size, hn, (hsound.allocated a ha).1⟩
      rintro p n (hr | hr)
      · rw [hr] at hasks
        exact hentry p n hasks
      · rw [hr] at hasks
        exact hentry p n hasks
    · obtain ⟨hsound, hapart, -⟩ := h.pass ha hplain
      exact ⟨hsound, hapart, fun size hsize ↦ by cases hmade.symm.trans hsize⟩

theorem Sound.added (h : Sound blocks st t) (hne : p ≠ 0)
    (hnew : size ≠ 0 → (p, size) ∈ liveAt blocks t ∧ ∀ a ∈ st.buffers.entries, a.ptr ≠ p)
    (hst : st'.buffers = (bufferTableAdd p size btype st).buffers) : Sound blocks st' t := by
  obtain hsame | ⟨hsize, hperm⟩ := bufferTableAdd_cases p size btype st
  · exact h.congr (hst.trans hsame) fun a _ ha ↦ ha
  obtain ⟨hlive, hother⟩ := hnew hsize
  rw [← hst] at hperm
  refine ⟨fun a ha ↦ ?_, ?_, fun a ha ↦ ?_⟩
  · obtain rfl | ha := List.mem_cons.mp (hperm.subset ha)
    · exact hlive
    · exact h.allocated a ha
  · refine (hperm.map Allocation.ptr).nodup_iff.mpr ?_
    rw [List.map_cons, List.nodup_cons]
    refine ⟨fun hmem ↦ ?_, h.distinct⟩
    obtain ⟨a, ha, hptr⟩ := List.mem_map.mp hmem
    exact hother a ha hptr
  · obtain rfl | ha := List.mem_cons.mp (hperm.subset ha)
    · exact hne
    · exact h.nonnull a ha

theorem Held.made {c : HipCall} (h : Held blocks (.routed c) st es t) (hsize : c.made = some size)
    {o : Backend} {q : Ptr}
    (hes : ((tracedMalloc present c q size btype).run o 0 st).events = placed 0 es) :
    Sound blocks ((tracedMalloc present c q size btype).run o 0 st).state t := by
  have hsound := h.sound
  rw [before_of_not_freed (x := .routed c) (HipRequest.freed_of_made (r := .call c) hsize)]
    at hsound
  cases hr : ((tracedMalloc present c q size btype).run o 0 st).val.isSome with
  | false =>
    obtain ⟨-, hst⟩ := tracedMalloc_aborted (t := []) hr
    rw [List.length_nil] at hst
    rwa [hst]
  | true =>
    obtain ⟨hev, hst⟩ := tracedMalloc_run hr
    split at hst
    case isFalse => exact hsound.congr hst fun a _ ha ↦ ha
    case isTrue hok =>
      have hmem : (HipRequest.call c, o 0 (.call c)) ∈ es := by
        rw [← exchanged_placed 0 es, ← hes, hev]
        exact List.mem_singleton_self _
      exact hsound.added hok.2.2 (fun hne ↦ h.fresh size hsize _ hmem hok.1 hne hok.2.2) hst

theorem Held.freed {c : HipCall} {q : Ptr} (h : Held blocks (.routed c) st es t)
    (hq : c.freed = some q) {o : Backend} :
    Sound blocks ((tracedFree present c q).run o 0 st).state t := by
  have hsound := h.sound
  have hbefore : (Exported.routed c).before st = bufferTableRemove q st := by
    rw [Exported.before, Exported.request, HipRequest.freed, hq, Option.elim_some]
  rw [hbefore] at hsound
  cases hr : ((tracedFree present c q).run o 0 st).val.isSome with
  | false =>
    obtain ⟨-, hst⟩ := tracedFree_aborted (t := []) hr
    rw [List.length_nil] at hst
    rwa [hst]
  | true => exact hsound.congr (tracedFree_run hr).2.1 fun a _ ha ↦ ha

theorem Held.given {a : Option HipResult} (h : Held blocks x st es t)
    (hreach : (tracerFlow present direct x).Reaches st es (.done a) st') : Sound blocks st' t := by
  have hrun := hreach.run_done (answering_placed 0 es)
  rw [tracerFlow_program] at hrun
  have hstate := congrArg Outcome.state hrun
  have hevents := congrArg Outcome.events hrun
  dsimp only at hstate hevents
  rw [← hstate]
  cases hx : x.isMemory with
  | true =>
    cases x with
    | direct => cases hx
    | routed c =>
      cases c with
      | hipMalloc q size => exact h.made rfl hevents
      | hipHostMalloc q size flags => exact h.made rfl hevents
      | hipFree q => exact h.freed rfl
      | hipHostFree q => exact h.freed rfl
      | _ => cases hx
  | false =>
    have hsound := h.sound
    rw [before_of_not_freed (HipRequest.freed_of_plain (x.request_memory.trans hx))] at hsound
    exact hsound.congr (Exported.run_within hx _ _ st rfl).1 fun a _ ha ↦ ha

theorem unwrapped_plain {c : HipCall} (h : Interceptor.tracer.wraps c.symbol = false) :
    c.isMemory = false := by
  cases c <;> first | rfl | cases h

variable (present direct) in
theorem tracerFlow_passing (x : Exported) :
    Bracketed (tracerFlow present direct x) ∨
    Passing HipRequest.Passes (tracerFlow present direct x) := by
  cases x with
  | routed c =>
    cases hw : Interceptor.tracer.wraps c.symbol with
    | true =>
      rw [tracerFlow, if_pos hw]
      exact .inl ⟨(tracerCut present c).fits⟩
    | false =>
      rw [tracerFlow, if_neg (Bool.eq_false_iff.mp hw), realCut]
      refine .inr ?_
      dsimp only
      split
      · exact .call (unwrapped_plain hw) fun _ ↦ .done _
      · exact .done _
  | direct name args =>
    refine .inr ?_
    change Passing _ (if direct name then Flow.call (HipRequest.pass name args) _ else _)
    split
    · exact .call trivial fun _ ↦ .done _
    · exact .done _

variable (blocks present direct) in
def tracerGuard : Guard (tracerFlow present direct) (Promised blocks) (ReadsLive blocks) where
  passes := HipRequest.Passes
  free := Sound blocks
  held := Held blocks
  kind := tracerFlow_passing present direct
  taken x _ _ h := .taken h x
  asked _ _ _ _ _ _ _ h hreach := h.asked hreach
  given _ _ _ _ _ _ h hreach := h.given hreach
  passed _ _ h := readsLive_of_passes h
  passed_free _ _ _ _ h he hsound :=
    hsound.snoc he fun _ _ ↦ by simp [HipRequest.freed_of_plain h.plain]
  passed_held _ _ _ _ _ _ h he hheld := hheld.pass he h.plain

end Guarding

section Main

variable {T : Type} [DecidableEq T] {blocks : Blocks} {present : Present} {direct : PresentDirect}
  {config : TracerConfig}
variable {traceFile ownsFile : Bool}
  {ls : List (T × Finished HipRequest HipAnswer (Option HipResult) Exported)}
variable {p : Turns T HipRequest HipAnswer Tracer (Option HipResult) Exported}

theorem initial_sound : Sound blocks (.initial config traceFile ownsFile) [] := by
  obtain ⟨-, hdistinct, hnonnull⟩ := initial_valid (fun _ ↦ ∅) config traceFile ownsFile
  have hentries : (Tracer.initial config traceFile ownsFile).buffers.entries = [] :=
    (initial_tableInv config traceFile ownsFile).tracks.eq_nil
  refine ⟨fun a ha ↦ ?_, hdistinct, hnonnull⟩
  rw [hentries] at ha
  exact absurd ha List.not_mem_nil

/-- However the threads of an application take turns, the tracer reads no freed memory, as long as
memory from `hipMalloc` and `hipHostMalloc` is freed by nothing but `hipFree` and `hipHostFree`:
what a dump reads lies in a block that the backend has allocated and not freed by then, no matter
who else is about to free it. While nobody has `STATE`, each entry stands for such a block, and no
two for the same address. -/
theorem threads_read_allocated
    (h : Turns.Run (tracerFlow present direct) (.initial config traceFile ownsFile) ls p)
    (halloc : Allocates blocks (placed 0 p.trace)) (hspares : SparesTracked blocks p.trace) :
    (∀ u e v, p.trace = u ++ e :: v → ∀ ptr n, e.1 = .stage ptr n ∨ e.1 = .read ptr n →
      ∃ size, n ≤ size ∧ (ptr, size) ∈ blocks (placed 0 u)) ∧
    (p.owner = none → (∀ a ∈ p.state.buffers.entries, a.block ∈ blocks (placed 0 p.trace)) ∧
      (p.state.buffers.entries.map Allocation.ptr).Nodup) := by
  have hinv : (tracerGuard blocks present direct).Inv p :=
    .of_run initial_sound h (promised_of_allocates halloc hspares)
  refine ⟨hinv.safe, fun hfree ↦ ?_⟩
  have hsound : Sound blocks p.state p.trace := hinv.free hfree
  exact ⟨fun a ha ↦ (hsound.allocated a ha).1, hsound.distinct⟩

end Main

theorem usual_promised {e : Exchange} {t : List Exchange} (he : e.1.memory = true)
    (ht : ∀ f ∈ t, f.1.inert = true) :
    Allocates usualBlocks (placed 0 (e :: t)) ∧ SparesTracked usualBlocks (e :: t) := by
  refine ⟨usualBlocks_allocates fun f hf p size ↦ ?_, fun u f v huv hplain b _ hb ↦ ?_⟩
  · have hexchanged : (f.call, f.answer) ∈ exchanged (placed 1 t) := List.mem_map_of_mem hf
    rw [exchanged_placed] at hexchanged
    exact inert_allocates_nothing (ht _ hexchanged) p size
  · have hf : f.1.inert = true := by
      cases u with
      | nil =>
        obtain rfl := (List.cons.inj huv).1
        cases he.symm.trans hplain
      | cons g u =>
        refine ht f ?_
        rw [(List.cons.inj huv).2]
        simp
    rw [placed_append]
    change b ∈ usualBlocks (placed 0 u ++ [⟨0 + u.length, f.1, f.2⟩])
    rwa [usualBlocks_snoc, blocksAfter_inert hf]

theorem threads_read_allocated_two :
    ∃ ls p u e v, Turns.Run (T := Bool) (tracerFlow (fun _ ↦ true) fun _ ↦ true)
      (.initial dumping true false) ls p ∧
      (∃ w, p.phase false = .busy (.routed (.hipHostFree 4096)) [] w) ∧ p.trace = u ++ e :: v ∧
        e.1 = .read 4096 64 ∧
      ∃ size, 64 ≤ size ∧ (4096, size) ∈ usualBlocks (placed 0 u) := by
  have hfirst :
      (tracerFlow (fun _ ↦ true) (fun _ ↦ true) (.routed (.hipHostMalloc 8 64 0))).program.run
      hostBackend 0
      (.initial dumping true false) = mallocEntry.result := by
    rw [tracerFlow_program, mallocEntry, entryOf]
  have hsecond :
      (tracerFlow (fun _ ↦ true) (fun _ ↦ true) (.routed launchCall)).program.run hostBackend 1
      hostAllocated =
      (launchEntry 1).result := by
    rw [tracerFlow_program, launchEntry, entryOf]
  obtain ⟨v, hv⟩ := launchEntry_reads 1
  have hstart : Turns.Run (T := Bool) (tracerFlow (fun _ ↦ true) fun _ ↦ true)
      (.initial dumping true false) [] _ := .start
  have hmade :=
    hstart.solo false (.routed (.hipHostMalloc 8 64 0)) rfl (tracerFlow_orderly _) hostBackend 0
  rw [hfirst, mallocEntry_state, mallocEntry_events] at hmade
  have hwaits := hmade.begin false (.routed (.hipHostFree 4096)) rfl
  dsimp only at hwaits
  have hread :=
    Turns.Moves.solo hwaits true (.routed launchCall) rfl (tracerFlow_orderly _) hostBackend 1
  have hlater : ∀ f ∈ exchanged (launchEntry 1).result.events, f.1.inert = true := by
    intro f hf
    obtain ⟨g, hg, rfl⟩ := List.mem_map.mp hf
    exact launchEntry_inert 1 g hg
  rw [hsecond, hv] at hread
  rw [hv] at hlater
  obtain ⟨halloc, hspares⟩ :=
    usual_promised (e :=
      (.call (.hipHostMalloc 8 64 0), hostBackend 0 (.call (.hipHostMalloc 8 64 0)))) rfl hlater
  obtain ⟨hreads, -⟩ := threads_read_allocated hread halloc hspares
  exact ⟨_, _, [_, _], _, _, hread, ⟨_, rfl⟩, rfl, rfl, hreads [_, _] _ _ rfl 4096 64 (.inr rfl)⟩

end HrxSystem.Hip
