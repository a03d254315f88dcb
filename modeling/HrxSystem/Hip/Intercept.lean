import HrxSystem.Hip.Table
import Mathlib.Data.List.Basic

namespace HrxSystem.Hip

inductive Interceptor
  | noop | logging | tracer
deriving DecidableEq

/-- A boxed function table: the library its wrappers live in, if it has any, and whether the box was
dropped. -/
structure TableBox where
  wrappers : Option Interceptor
  freed : Bool
deriving DecidableEq

/-- What `intercept_init` depends on: whether the backend opens, `HIP_INTERCEPTION_LIBRARY`, and the
library that `dlopen` finds at a path. -/
structure Environment where
  backendOpens : Bool
  interceptionLibrary : Option String
  dlopen : String → Option Interceptor

/-- The statics of the interception layer, the pointer that the tracer keeps to its wrapper table,
the boxed tables, and how often each interceptor library is open. -/
structure Process where
  once : Bool := false
  gBackendLib : Bool := false
  gInterceptorLib : Option Interceptor := none
  gActiveTable : Option ℕ := none
  gInterceptorShutdown : Option Interceptor := none
  gRealTable : Option ℕ := none
  wrapper : Option ℕ := none
  tables : List TableBox := []
  handles : Interceptor → ℕ := fun _ ↦ 0

def hipInterceptorInit (p : Process) : Interceptor → Option ℕ × Process
  | .noop => (none, p)
  | .logging => (some p.tables.length, { p with tables := p.tables ++ [⟨some .logging, false⟩] })
  | .tracer =>
    (some p.tables.length,
      { p with tables := p.tables ++ [⟨some .tracer, false⟩], wrapper := some p.tables.length })

def hipInterceptorShutdown (p : Process) : Interceptor → Process
  | .noop | .logging => p
  | .tracer =>
    match p.wrapper with
    | none => p
    | some t =>
      { p with tables := p.tables.modify t fun b ↦ { b with freed := true }, wrapper := none }

/-- The third part of `intercept_init`, once the library is open. -/
def loadInterceptor (p : Process) (lib : Interceptor) : Process :=
  let p := { p with
    gInterceptorLib := some lib
    handles := Function.update p.handles lib (p.handles lib + 1) }
  let (table, p) := hipInterceptorInit p lib
  let p := match table with
    | none => p
    | some t => { p with gActiveTable := some t }
  { p with gInterceptorShutdown := some lib }

/-- `intercept_init`. Without a backend the process aborts. -/
def interceptInit (env : Environment) (p : Process) : Option Process :=
  if env.backendOpens then
    let p := { p with
      gBackendLib := true
      tables := p.tables ++ [⟨none, false⟩]
      gRealTable := some p.tables.length
      gActiveTable := some p.tables.length }
    match env.interceptionLibrary with
    | none => some p
    | some path =>
      if path = "" then some p
      else match env.dlopen path with
      | none => some p
      | some lib => some (loadInterceptor p lib)
  else none

def ensureInit (env : Environment) (p : Process) : Option Process :=
  if p.once then some p else interceptInit env { p with once := true }

def active (env : Environment) (p : Process) : Option (Option ℕ × Process) :=
  match p.gActiveTable with
  | some t => some (some t, p)
  | none => (ensureInit env p).map fun p ↦ (p.gActiveTable, p)

/-- The first half of `intercept_fini`. -/
def shutdownInterceptor (p : Process) : Process :=
  match p.gInterceptorShutdown with
  | none => p
  | some lib => hipInterceptorShutdown p lib

/-- The second half of `intercept_fini`: `dlclose`. -/
def closeInterceptor (p : Process) : Process :=
  match p.gInterceptorLib with
  | none => p
  | some lib => { p with handles := Function.update p.handles lib (p.handles lib - 1) }

def interceptFini (p : Process) : Process := closeInterceptor (shutdownInterceptor p)

inductive ProcessStep
  | exported (x : Exported)
  | getRealTable
  | getActiveTable
  | fini
deriving DecidableEq

structure TableUse where
  step : ProcessStep
  table : Option ℕ
  state : Process

def processStep (env : Environment) (p : Process) (s : ProcessStep) :
    Option (Process × Option TableUse) :=
  match s with
  | .exported (.routed _) | .getActiveTable => do
    let p ← ensureInit env p
    let (table, p) ← active env p
    return (p, some ⟨s, table, p⟩)
  | .exported (.direct ..) | .getRealTable => do
    let p ← ensureInit env p
    return (p, none)
  | .fini => some (interceptFini p, none)

def tableUses (env : Environment) : Process → List ProcessStep → List TableUse
  | _, [] => []
  | p, s :: ss =>
    match processStep env p s with
    | none => []
    | some (p', use) => use.toList ++ tableUses env p' ss

/-- The box has not been dropped, and the library of its wrappers has not been closed. -/
def Process.Live (p : Process) (t : ℕ) : Prop :=
  ∃ b, p.tables[t]? = some b ∧ b.freed = false ∧ ∀ lib, b.wrappers = some lib → 0 < p.handles lib

def TableUse.Live (u : TableUse) : Prop := ∃ t, u.table = some t ∧ u.state.Live t

namespace ProcessStep

def usesActive : ProcessStep → Bool
  | exported (.routed _) | getActiveTable => true
  | _ => false

def dereferences : ProcessStep → Bool
  | exported (.routed _) => true
  | _ => false

end ProcessStep

def afterFini : List ProcessStep → List ProcessStep
  | [] => []
  | .fini :: ss => ss
  | _ :: ss => afterFini ss

def Environment.interceptor (env : Environment) : Option Interceptor :=
  env.interceptionLibrary.bind fun path ↦ if path = "" then none else env.dlopen path

def Environment.Wraps (env : Environment) : Prop := ∃ lib, env.interceptor = some lib ∧ lib ≠ .noop

def Process.Direct (p : Process) : Prop :=
  p.once = true ∧ ∃ t, p.gActiveTable = some t ∧ p.tables[t]? = some ⟨none, false⟩ ∧
    p.wrapper ≠ some t

def Process.Wrapped (p : Process) : Prop :=
  p.once = true ∧ ∃ t lib, p.gActiveTable = some t ∧ p.tables[t]? = some ⟨some lib, false⟩ ∧
    p.handles lib = 1 ∧
    p.gInterceptorLib = some lib

def Process.Closed (p : Process) : Prop :=
  p.once = true ∧ ∃ t lib freed, p.gActiveTable = some t ∧ p.tables[t]? = some ⟨some lib, freed⟩ ∧
    p.handles lib = 0

section Steps

variable {env : Environment} {p : Process} {s : ProcessStep} {t : ℕ}

theorem processStep_loaded (honce : p.once = true) (hactive : p.gActiveTable = some t) :
    processStep env p s = some (if s = .fini then interceptFini p else p,
      if s.usesActive then some ⟨s, some t, p⟩ else none) := by
  have hinit : ensureInit env p = some p := if_pos honce
  have hget : active env p = some (some t, p) := by rw [active, hactive]
  match s with
  | .exported (.routed c) => simp [processStep, hinit, hget, ProcessStep.usesActive]
  | .exported (.direct name args) => simp [processStep, hinit, ProcessStep.usesActive]
  | .getRealTable => simp [processStep, hinit, ProcessStep.usesActive]
  | .getActiveTable => simp [processStep, hinit, hget, ProcessStep.usesActive]
  | .fini => simp [processStep, ProcessStep.usesActive]

theorem tableUses_cons (honce : p.once = true) (hactive : p.gActiveTable = some t)
    (ss : List ProcessStep) :
    tableUses env p (s :: ss) = (if s.usesActive then [⟨s, some t, p⟩] else []) ++
      tableUses env (if s = .fini then interceptFini p else p) ss := by
  rw [tableUses, processStep_loaded honce hactive]
  cases s.usesActive <;> rfl

theorem closeInterceptor_eq : closeInterceptor p = { p with
    handles :=
  fun lib ↦ if p.gInterceptorLib = some lib then p.handles lib - 1 else p.handles lib } := by
  rw [closeInterceptor]
  split
  case h_1 h =>
    simp only [h, reduceCtorEq, if_false]
    rw [← h]
  case h_2 lib h =>
    congr
    funext lib'
    by_cases hl : lib' = lib
    · simp [h, hl]
    · simp [h, hl, Ne.symm hl]

theorem shutdownInterceptor_cases :
    shutdownInterceptor p = p ∨ ∃ w, p.wrapper = some w ∧ shutdownInterceptor p =
    { p with tables := p.tables.modify w fun b ↦ { b with freed := true }, wrapper := none } := by
  rw [shutdownInterceptor]
  split
  · exact .inl rfl
  case h_2 lib _ =>
    match lib, hw : p.wrapper with
    | .noop, _ | .logging, _ => exact .inl rfl
    | .tracer, none => exact .inl (by rw [hipInterceptorShutdown, hw])
    | .tracer, some w => exact .inr ⟨w, rfl, by rw [hipInterceptorShutdown, hw]⟩

theorem interceptFini_cases :
    ∃ q, (q = p ∨ ∃ w, p.wrapper = some w ∧
        q = { p with tables := p.tables.modify w fun b ↦
          { b with freed := true }, wrapper := none }) ∧
      interceptFini p = { q with
        handles :=
          fun lib ↦ if p.gInterceptorLib = some lib then p.handles lib - 1
            else p.handles lib } := by
  refine ⟨shutdownInterceptor p, shutdownInterceptor_cases, ?_⟩
  rw [interceptFini, closeInterceptor_eq]
  obtain h | ⟨w, -, h⟩ := @shutdownInterceptor_cases p
  · rw [h]
  · rw [h]

theorem Process.Direct.fini (h : p.Direct) : (interceptFini p).Direct := by
  obtain ⟨honce, t, hactive, htable, hw⟩ := h
  obtain ⟨q, rfl | ⟨w, hpw, rfl⟩, hq⟩ := @interceptFini_cases p
  · rw [hq]
    exact ⟨honce, t, hactive, htable, hw⟩
  · rw [hq]
    have hne : w ≠ t := fun heq ↦ hw (heq ▸ hpw)
    exact ⟨honce, t, hactive, by simp [htable, hne], by simp⟩

theorem interceptFini_wrappers {lib : Interceptor} {freed : Bool}
    (h : p.tables[t]? = some ⟨some lib, freed⟩) :
    ∃ freed', (interceptFini p).tables[t]? = some ⟨some lib, freed'⟩ := by
  obtain ⟨q, rfl | ⟨w, -, rfl⟩, hq⟩ := @interceptFini_cases p
  · exact ⟨freed, by rw [hq]; exact h⟩
  · rw [hq]
    by_cases hwt : w = t
    · exact ⟨true, by simp [h, hwt]⟩
    · exact ⟨freed, by simp [h, hwt]⟩

theorem interceptFini_statics :
    (interceptFini p).once = p.once ∧ (interceptFini p).gActiveTable = p.gActiveTable ∧
    ∀ lib, (interceptFini p).handles lib = if p.gInterceptorLib = some lib
      then p.handles lib - 1 else p.handles lib := by
  obtain ⟨q, rfl | ⟨w, -, rfl⟩, hq⟩ := @interceptFini_cases p
  all_goals
    rw [hq]
    exact ⟨rfl, rfl, fun _ ↦ rfl⟩

theorem Process.Wrapped.fini (h : p.Wrapped) : (interceptFini p).Closed := by
  obtain ⟨honce, t, lib, hactive, htable, hhandles, hlib⟩ := h
  obtain ⟨hs₁, hs₂, hs₃⟩ := @interceptFini_statics p
  obtain ⟨freed, htable'⟩ := interceptFini_wrappers htable
  refine ⟨hs₁.trans honce, t, lib, freed, hs₂.trans hactive, htable', ?_⟩
  rw [hs₃, if_pos hlib, hhandles]

theorem Process.Closed.fini (h : p.Closed) : (interceptFini p).Closed := by
  obtain ⟨honce, t, lib, freed, hactive, htable, hhandles⟩ := h
  obtain ⟨hs₁, hs₂, hs₃⟩ := @interceptFini_statics p
  obtain ⟨freed', htable'⟩ := interceptFini_wrappers htable
  refine ⟨hs₁.trans honce, t, lib, freed', hs₂.trans hactive, htable', ?_⟩
  rw [hs₃, hhandles, Nat.zero_sub, ite_self]

end Steps

section Runs

variable {env : Environment} {p : Process} {ss : List ProcessStep} {q : ProcessStep → Bool}

theorem Process.Direct.uses_live (h : p.Direct) : ∀ u ∈ tableUses env p ss, u.Live := by
  induction ss generalizing p with
  | nil => exact fun u hu ↦ absurd hu List.not_mem_nil
  | cons s ss ih =>
    have hnext : (if s = .fini then interceptFini p else p).Direct := by
      split
      · exact h.fini
      · exact h
    obtain ⟨honce, t, hactive, htable, -⟩ := h
    rw [tableUses_cons honce hactive]
    intro u hu
    obtain hu | hu := List.mem_append.mp hu
    · split at hu
      · obtain rfl := List.mem_singleton.mp hu
        exact ⟨t, rfl, _, htable, rfl, fun lib hlib ↦ by cases hlib⟩
      · exact absurd hu List.not_mem_nil
    · exact ih hnext u hu

theorem Process.Closed.uses_live_iff (h : p.Closed) :
    (∀ u ∈ tableUses env p ss, q u.step = true → u.Live) ↔
    ∀ s ∈ ss, s.usesActive = true → q s = false := by
  induction ss generalizing p with
  | nil => simp [tableUses]
  | cons s ss ih =>
    have hnext : (if s = .fini then interceptFini p else p).Closed := by
      split
      · exact h.fini
      · exact h
    obtain ⟨honce, t, lib, freed, hactive, htable, hhandles⟩ := h
    have hdead : ¬ (⟨s, some t, p⟩ : TableUse).Live := by
      rintro ⟨t', ht', b, hb, -, hlive⟩
      obtain rfl := Option.some.inj ht'
      rw [htable] at hb
      have := hlive lib (by rw [← Option.some.inj hb])
      exact absurd hhandles (Nat.pos_iff_ne_zero.mp this)
    rw [tableUses_cons honce hactive, List.forall_mem_cons, ← ih hnext, List.forall_mem_append]
    refine and_congr ?_ Iff.rfl
    cases s.usesActive with
    | false => simp
    | true => simp [hdead]

theorem Process.Wrapped.uses_live_iff (h : p.Wrapped) :
    (∀ u ∈ tableUses env p ss, q u.step = true → u.Live) ↔
    ∀ s ∈ afterFini ss, s.usesActive = true → q s = false := by
  induction ss with
  | nil => simp [tableUses, afterFini]
  | cons s ss ih =>
    have hclosed := h.fini
    obtain ⟨honce, t, lib, hactive, htable, hhandles, -⟩ := h
    rw [tableUses_cons honce hactive]
    by_cases hs : s = .fini
    · rw [hs]
      exact hclosed.uses_live_iff
    · have hafter : afterFini (s :: ss) = afterFini ss := by
        cases s <;> first | rfl | exact absurd rfl hs
      have hlive : (⟨s, some t, p⟩ : TableUse).Live :=
        ⟨t, rfl, _, htable, rfl, fun lib' hlib' ↦ by
          obtain rfl := Option.some.inj hlib'
          rw [hhandles]
          exact Nat.one_pos⟩
      rw [if_neg hs, hafter, ← ih, List.forall_mem_append, and_iff_right_iff_imp]
      intro _ u hu _
      split at hu
      · rw [List.mem_singleton.mp hu]
        exact hlive
      · exact absurd hu List.not_mem_nil

theorem interceptInit_eq (p : Process) : interceptInit env p =
    if env.backendOpens then
      let q := { p with
        gBackendLib := true
        tables := p.tables ++ [⟨none, false⟩]
        gRealTable := some p.tables.length
        gActiveTable := some p.tables.length }
      some (env.interceptor.elim q (loadInterceptor q))
    else none := by
  rw [interceptInit, Environment.interceptor]
  cases env.interceptionLibrary with
  | none => rfl
  | some path =>
    by_cases hpath : path = ""
    · simp [hpath]
    · cases hopen : env.dlopen path <;> simp [hpath, hopen]

theorem ensureInit_load (h : ensureInit env {} = some p) :
    (env.Wraps → p.Wrapped) ∧ (¬ env.Wraps → p.Direct) := by
  rw [ensureInit, if_neg Bool.false_ne_true, interceptInit_eq] at h
  split at h
  case isFalse => cases h
  case isTrue =>
    obtain rfl := Option.some.inj h
    rw [Environment.Wraps]
    match env.interceptor with
    | none => exact ⟨fun ⟨_, h, _⟩ ↦ (by cases h), fun _ ↦ ⟨rfl, 0, rfl, rfl, by simp⟩⟩
    | some .noop =>
      refine ⟨fun ⟨_, h, hne⟩ ↦ absurd (Option.some.inj h).symm hne, fun _ ↦ ⟨rfl, 0, rfl, rfl, ?_⟩⟩
      simp [loadInterceptor, hipInterceptorInit]
    | some .logging =>
      exact ⟨fun _ ↦ ⟨rfl, 1, .logging, rfl, rfl, rfl, rfl⟩, fun h ↦ absurd ⟨_, rfl, by decide⟩ h⟩
    | some .tracer =>
      exact ⟨fun _ ↦ ⟨rfl, 1, .tracer, rfl, rfl, rfl, rfl⟩, fun h ↦ absurd ⟨_, rfl, by decide⟩ h⟩

/-- The uses of the active table that `q` asks about are all of a live one if and only if they do
not come after `intercept_fini` with a wrapper in place. -/
theorem load_uses_live_iff (h : ensureInit env {} = some p) (ss : List ProcessStep)
    (q : ProcessStep → Bool) :
    (∀ u ∈ tableUses env p ss, q u.step = true → u.Live) ↔
      (env.Wraps → ∀ s ∈ afterFini ss, s.usesActive = true → q s = false) := by
  obtain ⟨hwrapped, hdirect⟩ := ensureInit_load h
  by_cases hw : env.Wraps
  · rw [(hwrapped hw).uses_live_iff]
    exact ⟨fun h _ ↦ h, fun h ↦ h hw⟩
  · exact ⟨fun _ hw' ↦ absurd hw' hw, fun _ u hu _ ↦ (hdirect hw).uses_live u hu⟩

/-- Every pointer that `active` returns is to a live table if and only if no interceptor wraps or
`active` is not called after `intercept_fini`; every pointer that an exported function dereferences
is, if and only if no interceptor wraps or no table-routed function is called after it. -/
theorem active_table_live_iff (h : ensureInit env {} = some p) (ss : List ProcessStep) :
    ((∀ u ∈ tableUses env p ss, u.Live) ↔ (env.Wraps → ∀ s ∈ afterFini ss, s.usesActive = false)) ∧
      ((∀ u ∈ tableUses env p ss, u.step.dereferences = true → u.Live) ↔
        (env.Wraps → ∀ s ∈ afterFini ss, s.dereferences = false)) := by
  have hall := load_uses_live_iff h ss fun _ ↦ true
  have hderef := load_uses_live_iff h ss ProcessStep.dereferences
  have huses : ∀ s : ProcessStep, s.dereferences = true → s.usesActive = true := by
    rintro (⟨_ | _⟩ | _ | _ | _) hs
    all_goals first | rfl | cases hs
  refine ⟨?_, ?_⟩
  · simpa using hall
  · rw [hderef]
    refine imp_congr_right fun _ ↦ forall₂_congr fun s _ ↦ ⟨fun hs ↦ ?_, fun hs _ ↦ hs⟩
    by_contra hd
    rw [Bool.not_eq_false] at hd
    exact absurd (hs (huses s hd)) (by simp [hd])

end Runs

def tracing : Environment := ⟨true, some "libhip_buffer_tracer.so", fun _ ↦ some .tracer⟩

theorem active_table_live_until_fini :
    ∃ p, ensureInit tracing {} = some p ∧
      (tableUses tracing p [.exported (.routed .hipDeviceReset), .fini]).length = 1 ∧
      ∀ u ∈ tableUses tracing p [.exported (.routed .hipDeviceReset), .fini], u.Live := by
  refine ⟨_, rfl, rfl, (active_table_live_iff rfl _).1.mpr ?_⟩
  simp [afterFini]

/-- A call from a later destructor goes through the table that the tracer has dropped. -/
theorem dropped_table_dereferenced :
    ∃ p, ensureInit tracing {} = some p ∧
      ∃ u ∈ tableUses tracing p [.fini, .exported (.routed .hipDeviceReset)],
      u.step.dereferences = true ∧
      (∃ t b, u.table = some t ∧ u.state.tables[t]? = some b ∧ b.freed = true) ∧
        ¬ u.Live := by
  refine ⟨_, rfl, _, List.mem_singleton.mpr rfl, rfl, ⟨1, _, rfl, rfl, rfl⟩, ?_⟩
  rintro ⟨t, ht, b, hb, hfreed, -⟩
  obtain rfl := Option.some.inj ht
  obtain rfl := Option.some.inj hb
  cases hfreed

end HrxSystem.Hip
