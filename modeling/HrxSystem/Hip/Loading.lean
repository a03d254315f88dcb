import HrxSystem.Hip.Intercept
import HrxSystem.Threads.Once

namespace HrxSystem.Hip

open External Program Threads

/-- The process of several threads, and whether `INIT` is complete. -/
structure Loading where
  process : Process
  complete : Bool

abbrev LoadFlow (α : Type) := Flow Empty Unit Loading α

def storing (f : Process → Process) (k : LoadFlow (Option Unit)) : LoadFlow (Option Unit) :=
  .update (fun s ↦ { s with process := f s.process }) k

/-- `INIT` is complete when `intercept_init` returns. -/
def completing : LoadFlow (Option Unit) :=
  .update (fun s ↦ { s with complete := true }) (.done (some ()))

def loadInterceptorFlow (lib : Interceptor) : LoadFlow (Option Unit) :=
  storing (fun p ↦ { p with
    gInterceptorLib := some lib
    handles := Function.update p.handles lib (p.handles lib + 1) }) <|
  .state fun s ↦
  storing (fun p ↦ (hipInterceptorInit p lib).2) <|
  storing (fun p ↦ (hipInterceptorInit s.process lib).1.elim p fun t ↦
    { p with gActiveTable := some t }) <|
  storing (fun p ↦ { p with gInterceptorShutdown := some lib })
  completing

/-- The steps of `intercept_init`. The real table is active for a while before the interceptor's
is. -/
def interceptInitFlow (env : Environment) : LoadFlow (Option Unit) :=
  storing (fun p ↦ { p with once := true }) <|
  if env.backendOpens then
    storing (fun p ↦ { p with gBackendLib := true }) <|
    storing
      (fun p ↦
        { p with tables := p.tables ++ [⟨none, false⟩], gRealTable := some p.tables.length }) <|
    storing (fun p ↦ { p with gActiveTable := p.gRealTable }) <|
    match env.interceptionLibrary with
    | none => completing
    | some path =>
      if path = "" then completing
      else match env.dlopen path with
      | none => completing
      | some lib => loadInterceptorFlow lib
  else .done none

inductive Lookup
  | exported (x : Exported)
  | getRealTable
  | getActiveTable

inductive Found
  | active (t : Option ℕ)
  | real (t : Option ℕ)
  | backend (loaded : Bool)

namespace Lookup

def afterInit (env : Environment) : Lookup → LoadFlow (Option Found)
  | exported (.routed _) | getActiveTable => .state fun s ↦
    if s.process.gActiveTable.isSome then .done (some (.active s.process.gActiveTable))
    else callOnce Loading.complete (interceptInitFlow env)
      (.state fun s ↦ .done (some (.active s.process.gActiveTable)))
  | exported (.direct ..) =>
    callOnce Loading.complete (interceptInitFlow env)
      (.state fun s ↦ .done (some (.backend s.process.gBackendLib)))
  | getRealTable => .state fun s ↦ .done (some (.real s.process.gRealTable))

def flow (env : Environment) (x : Lookup) : LoadFlow (Option Found) :=
  callOnce Loading.complete (interceptInitFlow env) (x.afterInit env)

variable {env : Environment} {s : Loading}

end Lookup

variable {env : Environment}

end HrxSystem.Hip
