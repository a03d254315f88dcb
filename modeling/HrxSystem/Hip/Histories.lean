import HrxSystem.Hip.Concurrent

namespace HrxSystem.Hip

open External Program Threads

namespace Interceptor

variable {present : Present} {direct : PresentDirect} {i : Interceptor} {x : Exported} {o : Backend}
  {n : ℕ}

def flow (present : Present) (direct : PresentDirect) :
    (i : Interceptor) → Exported → Flow HipRequest HipAnswer i.State (Option HipResult)
  | noop, .routed c => (realCut (P := Stateless) present c).flow
  | noop, .direct name args =>
    (directCut (P := Stateless) (realTable present) direct name args).flow
  | logging, x => loggingFlow present direct x
  | tracer, x => tracerFlow present direct x

theorem flow_program (i : Interceptor) (x : Exported) :
    (i.flow present direct x).program = x.through (i.activeTable present) direct := by
  cases i with
  | noop =>
    cases x with
    | routed c => exact (realCut (P := Stateless) present c).program
    | direct name args =>
      exact (directCut (P := Stateless) (realTable present) direct name args).program
  | logging => exact loggingFlow_program x
  | tracer =>
    refine (tracerFlow_program x).trans ?_
    cases x <;> rfl

theorem flow_orderly (i : Interceptor) (x : Exported) :
    Orderly false (i.flow present direct x) := by
  cases i with
  | noop =>
    cases x with
    | routed c => exact (realCut (P := Stateless) present c).fits.orderly
    | direct name args =>
      exact (directCut (P := Stateless) (realTable present) direct name args).fits.orderly
  | logging => exact (loggingFlow_writes x).orderly
  | tracer => exact tracerFlow_orderly x

def plain (present : Present) (direct : PresentDirect) (x : Exported) (o : Backend) (n : ℕ) :
    Outcome HipRequest HipAnswer Unit (Option HipResult) :=
  (x.through (realTable present) direct).run o n ()

/-- A library can serve a call with these answers: the backend has the function if the library wraps
it, and what its wrapper reads of the answers is terminated. -/
def Serves (i : Interceptor) (present : Present) (x : Exported)
    (answers : List (HipRequest × HipAnswer)) : Prop :=
  ∀ c, x = .routed c → (i.wraps c.symbol = true → present c.symbol = true) ∧
    ∀ e ∈ answers, ∀ c', e.1 = .call c' → i.readable c' e.2 = true

theorem serves_routed_iff {c : HipCall} :
    i.Serves present (.routed c) (exchanged (bare present c o n).events) ↔
      i.Passes present c o n := by
  simp [Serves, Passes, ReadableEvent, exchanged]

theorem plain_routed (c : HipCall) : plain present direct (.routed c) o n = bare present c o n :=
  rfl

theorem plain_direct (name : String) (args : List Ptr) :
    plain present direct (.direct name args) o n =
      if direct name then
      ⟨some (.error (o n (.pass name args)).ret), (), [happens o n (.pass name args)]⟩
    else ⟨some (.error 1), (), []⟩ := by
  rw [plain, Exported.through]
  split <;> simp [happens]

theorem plain_val (x : Exported) (o : Backend) (n : ℕ) :
    ∃ r, (plain present direct x o n).val = some r := by
  cases x with
  | routed c => exact bare_val c o n
  | direct name args =>
    rw [plain_direct]
    split
    · exact ⟨_, rfl⟩
    · exact ⟨_, rfl⟩

/-- A library serves a call as it would be served without it, or aborts. -/
theorem through_spec (i : Interceptor) (present : Present) (direct : PresentDirect) (x : Exported)
    (o : Backend) (n : ℕ) {st : i.State} (hst : i.Ready st) :
    i.Ready ((x.through (i.activeTable present) direct).run o n st).state ∧
      (i.Serves present x (exchanged (plain present direct x o n).events) →
        ((x.through (i.activeTable present) direct).run o n st).val =
          (plain present direct x o n).val ∧
        ((x.through (i.activeTable present) direct).run o n st).events =
          (plain present direct x o n).events) ∧
      (¬ i.Serves present x (exchanged (plain present direct x o n).events) →
        ((x.through (i.activeTable present) direct).run o n st).val = none) := by
  cases x with
  | routed c =>
    rw [plain_routed, serves_routed_iff]
    exact i.export_spec c o n hst
  | direct name args =>
    have hserves : ∀ es, i.Serves present (.direct name args) es := fun _ c hc ↦ by cases hc
    have hrun : ((Exported.direct name args).through (i.activeTable present) direct).run o n st =
        ⟨(plain present direct (.direct name args) o n).val, st,
          (plain present direct (.direct name args) o n).events⟩ := by
      rw [plain_direct, Exported.through]
      split <;> simp [happens]
    rw [hrun]
    exact ⟨hst, fun _ ↦ ⟨rfl, rfl⟩, fun h ↦ absurd (hserves _) h⟩

variable {T : Type} [DecidableEq T] {st₀ : i.State}
  {p : Turns T HipRequest HipAnswer i.State (Option HipResult) Exported}
variable {ls : List (T × Finished HipRequest HipAnswer (Option HipResult) Exported)}

def MadeFrom (i : Interceptor) (present : Present) (direct : PresentDirect)
    (f : Finished HipRequest HipAnswer (Option HipResult) Exported) (o : Backend) (n : ℕ)
    (st : i.State) : Prop :=
  f.answers = exchanged ((f.call.through (i.activeTable present) direct).run o n st).events ∧
    f.val = ((f.call.through (i.activeTable present) direct).run o n st).val

theorem madeFrom_of_runs {s : i.State}
    {l : List (Entry HipRequest HipAnswer i.State (Option HipResult) Exported)}
    (h : Runs (fun x ↦ (i.flow present direct x).program) (fun _ _ _ _ ↦ True) st₀ s l)
    (hst : i.Ready st₀) :
    i.Ready s ∧ ∀ e ∈ l, ∃ o n st, i.Ready st ∧ i.MadeFrom present direct e.finished o n st := by
  simp only [flow_program] at h
  refine h.keeps (I := fun s l ↦ i.Ready s ∧ ∀ e ∈ l, ∃ o n st, i.Ready st ∧
    i.MadeFrom present direct e.finished o n st)
    ⟨hst, fun e he ↦ absurd he List.not_mem_nil⟩ fun s l x o hI _ ↦
    ⟨(i.through_spec present direct x o _ hI.1).1, fun e he ↦ ?_⟩
  obtain he | he := List.mem_append.mp he
  · exact hI.2 e he
  · obtain rfl := List.mem_singleton.mp he
    exact ⟨o, _, s, hI.1, rfl, rfl⟩

theorem madeFrom_of_run (h : Turns.Run (i.flow present direct) st₀ ls p) (hst : i.Ready st₀) :
    ∀ x ∈ ls, ∃ o n st, i.Ready st ∧ i.MadeFrom present direct x.2 o n st := by
  intro x hx
  have hatomic : (∀ y, Bracketed (i.flow present direct y) ∨ Stateless (i.flow present direct y)) →
      ∃ o n st, i.Ready st ∧ i.MadeFrom present direct x.2 o n st := by
    intro hkind
    obtain ⟨s, hseq⟩ := Sequential.of_run hkind h
    obtain ⟨l, hl, hls⟩ := hseq.run
    have hmem : x.2 ∈ l.map Entry.finished := hls ▸ List.mem_map_of_mem hx
    obtain ⟨e, he, hex⟩ := List.mem_map.mp hmem
    rw [← hex]
    exact (madeFrom_of_runs hl hst).2 e he
  cases i with
  | noop => 
    refine hatomic fun y ↦ .inr ?_
    cases y with
    | routed c => exact (realCut (P := Stateless) present c).fits
    | direct name args =>
      exact (directCut (P := Stateless) (realTable present) direct name args).fits
  | logging =>
    obtain ⟨marks, r, hmerged⟩ := Merged.of_run loggingFlow_writes h
    obtain ⟨s, t, hi, -⟩ := hmerged.each x.1
    obtain ⟨l, hl, hls⟩ := hi.run
    have hmem : x.2 ∈ l.map Entry.finished := by
      rw [hls, own]
      exact List.mem_map_of_mem (List.mem_filter.mpr ⟨hx, decide_eq_true rfl⟩)
    obtain ⟨e, he, hex⟩ := List.mem_map.mp hmem
    rw [← hex]
    exact (madeFrom_of_runs (i := .logging) hl hst).2 e he
  | tracer => exact hatomic fun y ↦ tracerFlow_kind y

theorem run_of_madeFrom (hst : i.Ready st₀)
    (h : ∀ x ∈ ls, ∀ st, i.Ready st → ∃ o n, i.MadeFrom present direct x.2 o n st) :
    ∃ p, Turns.Run (i.flow present direct) st₀ ls p := by
  obtain ⟨s, t, -, hs⟩ := Turns.Run.of_solo i.flow_orderly hst fun x hx st hready ↦ by
    obtain ⟨o, n, hanswers, hval⟩ := h x hx st hready
    rw [flow_program]
    exact ⟨o, n, (i.through_spec present direct x.2.call o n hready).1, hanswers, hval⟩
  exact ⟨_, hs⟩

theorem MadeFrom.plain {f : Finished HipRequest HipAnswer (Option HipResult) Exported}
    {st : i.State} (h : i.MadeFrom present direct f o n st) (hst : i.Ready st)
    (hval : f.val.isSome) :
    i.Serves present f.call f.answers ∧ noop.MadeFrom present direct f o n () := by
  obtain ⟨-, hserves, haborts⟩ := i.through_spec present direct f.call o n hst
  by_cases hs : i.Serves present f.call
    (exchanged (Interceptor.plain present direct f.call o n).events)
  · obtain ⟨hv, he⟩ := hserves hs
    obtain ⟨hanswers, hresult⟩ := h
    rw [he] at hanswers
    rw [hv] at hresult
    exact ⟨hanswers ▸ hs, hanswers, hresult⟩
  · rw [h.2, haborts hs] at hval
    cases hval

theorem MadeFrom.served {f : Finished HipRequest HipAnswer (Option HipResult) Exported}
    (h : noop.MadeFrom present direct f o n ()) (hs : i.Serves present f.call f.answers)
    {st : i.State} (hst : i.Ready st) :
    i.MadeFrom present direct f o n st := by
  obtain ⟨hanswers, hval⟩ := h
  rw [hanswers] at hs
  obtain ⟨-, hserves, -⟩ := i.through_spec present direct f.call o n hst
  obtain ⟨hv, he⟩ := hserves hs
  exact ⟨he ▸ hanswers, hv ▸ hval⟩

/-- With the logger, the no-op library or the tracer with `HIP_TRACE_SYNC` off, threads can make
exactly the calls that they can make without a library, if the backend has what is wrapped and what
is read is terminated. -/
theorem histories_iff (hst : i.Ready st₀) :
    ((∃ p, Turns.Run (i.flow present direct) st₀ ls p) ∧ ∀ x ∈ ls, x.2.val.isSome) ↔
      (∃ p, Turns.Run (noop.flow present direct) () ls p) ∧
        ∀ x ∈ ls, i.Serves present x.2.call x.2.answers := by
  constructor
  · intro ⟨⟨p, hrun⟩, hsome⟩
    have hplain : ∀ x ∈ ls, ∃ o n, i.Serves present x.2.call x.2.answers ∧
        noop.MadeFrom present direct x.2 o n () := by
      intro x hx
      obtain ⟨o, n, st, hready, hmade⟩ := madeFrom_of_run hrun hst x hx
      exact ⟨o, n, hmade.plain hready (hsome x hx)⟩
    refine ⟨run_of_madeFrom trivial fun x hx _ _ ↦ ?_, fun x hx ↦ ?_⟩
    · obtain ⟨o, n, -, hmade⟩ := hplain x hx
      exact ⟨o, n, hmade⟩
    · obtain ⟨o, n, hserves, -⟩ := hplain x hx
      exact hserves
  · intro ⟨⟨p, hrun⟩, hserves⟩
    have hplain : ∀ x ∈ ls, ∃ o n, noop.MadeFrom present direct x.2 o n () := by
      intro x hx
      obtain ⟨o, n, st, -, hmade⟩ := madeFrom_of_run hrun trivial x hx
      exact ⟨o, n, hmade⟩
    refine ⟨run_of_madeFrom hst fun x hx st hready ↦ ?_, fun x hx ↦ ?_⟩
    · obtain ⟨o, n, hmade⟩ := hplain x hx
      exact ⟨o, n, hmade.served (hserves x hx) hready⟩
    · obtain ⟨o, n, hmade⟩ := hplain x hx
      obtain ⟨r, hr⟩ := @plain_val present direct x.2.call o n
      rw [hmade.2.trans hr]
      rfl

/-- However the threads of an application take turns, a library goes unnoticed: the calls that
return are calls that return without it, in the same order and with the same answers and results,
and the other way round, except that a call which the library cannot serve aborts. Where the backend
answers the calls that it is given, whatever it answers, no call waits for more than the thread that
has the lock. -/
theorem library_unnoticed (hst : i.Ready st₀) :
    (((∃ p, Turns.Run (i.flow present direct) st₀ ls p) ∧ ∀ x ∈ ls, x.2.val.isSome) ↔
      (∃ p, Turns.Run (noop.flow present direct) () ls p) ∧
        ∀ x ∈ ls, i.Serves present x.2.call x.2.answers) ∧
    ∀ p t k es w, Turns.Run (i.flow present direct) st₀ ls p → p.phase t = .busy k es w →
      ∀ o : Backend, ∃ ms fs gs a p',
        Turns.Moves (i.flow present direct) ls p (ls ++ ms ++ [(t, ⟨k, es ++ fs, a⟩)]) p' ∧
          p'.trace = p.trace ++ gs ∧ Answered o p.trace gs ∧ ∀ x ∈ ms, p.owner = some x.1 :=
  ⟨histories_iff hst, fun _ _ _ _ _ h hbusy o ↦ h.returns i.flow_orderly hbusy o⟩

theorem library_unnoticed_tracer :
    ∃ p, Turns.Run (T := Bool) (tracer.flow (fun _ ↦ true) fun _ ↦ true)
      (Tracer.initial {} true false)
      [(true,
        ⟨.direct "hipStreamGetFlags" [5, 6], [(.pass "hipStreamGetFlags" [5, 6], { ret := 1 })],
          some (.error 1)⟩),
        (false, ⟨.routed (.hipInit 0), [(.call (.hipInit 0), { ret := 3 })], some (.error 3)⟩)]
          p := by
  have hstart : Turns.Run (T := Bool) (noop.flow (fun _ ↦ true) fun _ ↦ true) () [] _ := .start
  have hfirst := hstart.begin false (.routed (.hipInit 0)) rfl
  have hsecond := hfirst.begin true (.direct "hipStreamGetFlags" [5, 6]) rfl
  have hpassed := hsecond.step (i := true) rfl (.call { ret := 1 })
  have hcalled := hpassed.step (i := false) rfl (.call { ret := 3 })
  have hready : tracer.Ready (Tracer.initial {} true false) := rfl
  obtain ⟨hsame, -⟩ := library_unnoticed (T := Bool) hready
  exact (hsame.mpr ⟨⟨_, hcalled⟩, fun x _ c hc ↦ ⟨fun _ ↦ rfl, fun _ _ _ _ ↦ rfl⟩⟩).1

end Interceptor

end HrxSystem.Hip
