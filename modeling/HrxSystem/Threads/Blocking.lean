import HrxSystem.Threads.Locked
import HrxSystem.Threads.Turns
import Mathlib.Algebra.Order.BigOperators.Group.Finset

namespace HrxSystem.Threads

open External Function Relation

variable {T C A σ α κ : Type}

/-- Whatever it is answered, a flow that has been given the answers `es` ends with `P`. -/
inductive Ends (P : List (C × A) → σ → Prop) : List (C × A) → Flow C A σ α → σ → Prop
  | done {es : List (C × A)} {a : α} {s : σ} : P es s → Ends P es (.done a) s
  | call {es : List (C × A)} {c : C} {k : A → Flow C A σ α} {s : σ} :
      (∀ a, Ends P (es ++ [(c, a)]) (k a) s) → Ends P es (.call c k) s
  | state {es : List (C × A)} {k : σ → Flow C A σ α} {s : σ} : Ends P es (k s) s →
      Ends P es (.state k) s
  | update {es : List (C × A)} {f : σ → σ} {k : Flow C A σ α} {s : σ} :
      Ends P es k (f s) → Ends P es (.update f k) s

theorem Unlocked.ends [Inhabited A] {P : List (C × A) → σ → Prop} {w v : Flow C A σ α} {s t : σ}
    {es : List (C × A)} (hv : Unlocked v) (hreach : w.Reaches s es v t)
    (h : ∀ o, P (exchanged (w.program.run o 0 s).events) (w.program.run o 0 s).state) :
    Ends P es v t := by
  induction hv generalizing es t with
  | done a =>
    have hend := h (answering 0 es)
    rw [hreach.run_done (answering_placed 0 es), exchanged_placed] at hend
    exact .done hend
  | call _ ih => exact .call fun a ↦ ih a (.call a hreach)
  | state _ ih => exact .state (ih _ (.state hreach))
  | update _ ih => exact .update (ih (.update hreach))

def AfterOne (R : σ → Prop) (es : List (C × A)) (s : σ) : Prop := es.length = 1 ∧ R s

/-- A flow that makes one call, under the lock or without it. -/
inductive Single (R : σ → Prop) : Bool → Flow C A σ α → Prop
  | guarded {u : Flow C A σ α} : Unlocked u → (∀ s, R s → Ends (AfterOne R) [] u s) →
      Single R true (.acquire (unlocking u))
  | aside {c : C} {v : A → α} : Single R false (.call c fun a ↦ .done (v a))

/-- Whether the next step of a thread returns, given how many steps of each thread have returned. -/
abbrev Returns (T : Type) := (T → ℕ) → T → Prop

section Systems

variable [DecidableEq T] (flow : κ → Flow C A σ α) (guarded : κ → Bool)
  (programs : T → List (Option κ))
variable (r : Returns T)

/-- Threads that run programs. A step is a call, or `none`, which is a step of the thread's own. -/
def bareSystem : System T (T → ℕ) where
  place s i :=
    ((programs i)[s i]?).elim .finished fun x ↦ if x.any guarded then .inside else .outside
  next i s s' := s i < (programs i).length ∧ r s i ∧ s' = update s i (s i + 1)
  frame := by
    rintro i j s s' ⟨-, -, rfl⟩ hj
    rw [update_of_ne hj]
  stops := by
    rintro i s s' ⟨hlt, -, -⟩
    rw [List.getElem?_eq_getElem hlt, Option.elim_some]
    split <;> simp

/-- Threads that run programs through flows, with the steps of each thread that have returned. -/
structure Stage (T C A σ α κ : Type) where
  turns : Turns T C A σ α κ
  returned : T → ℕ

inductive Doing (steps : List (Option κ)) (n : ℕ) :
    Phase C A σ α κ → κ → List (C × A) → Flow C A σ α → Prop
  | idle {k : κ} {w : Flow C A σ α} :
    steps[n]? = some (some k) → w = flow k → Doing steps n .idle k [] w
  | busy {k : κ} {es : List (C × A)} {w : Flow C A σ α} : Doing steps n (.busy k es w) k es w

/-- A step of thread `i`. It may wait for its own steps and for the calls that it makes, and for the
lock. -/
inductive Goes (i : T) : Stage T C A σ α κ → Stage T C A σ α κ → Prop
  | host {x : Stage T C A σ α κ} :
    x.turns.phase i = .idle → (programs i)[x.returned i]? = some none →
      r x.returned i → Goes i x { x with returned := update x.returned i (x.returned i + 1) }
  | call {x : Stage T C A σ α κ} {k : κ} {es : List (C × A)} {c : C}
      {w : A → Flow C A σ α} (a : A) :
      Doing flow (programs i) (x.returned i) (x.turns.phase i) k es (.call c w) → r x.returned i →
      Goes i x
        ⟨⟨x.turns.state, x.turns.owner, update x.turns.phase i (settle k (es ++ [(c, a)]) (w a)).1,
        x.turns.trace ++ [(c, a)]⟩, update x.returned i (x.returned i + 1)⟩
  | quiet {x : Stage T C A σ α κ} {k : κ} {es : List (C × A)} {w w' : Flow C A σ α}
      {o : Option T} {s : σ} :
      Doing flow (programs i) (x.returned i) (x.turns.phase i) k es w →
      Turns.Step i x.turns.owner x.turns.state w [] o s w' →
      Goes i x ⟨⟨s, o, update x.turns.phase i (settle k es w').1, x.turns.trace⟩, x.returned⟩

def Phase.isIdle : Phase C A σ α κ → Bool
  | .idle => true
  | .busy .. => false

/-- The programs of the threads, with each call cut into the steps of its flow. -/
def flowSystem : System T (Stage T C A σ α κ) where
  place x i :=
    if (x.turns.phase i).isIdle ∧ (programs i).length ≤ x.returned i then .finished else .outside
  next := Goes flow programs r
  frame := by
    rintro i j x y hgo hj
    cases hgo with
    | host => simp [update_of_ne hj]
    | call => simp [update_of_ne hj]
    | quiet => simp [update_of_ne hj]
  stops := by
    rintro i x y hgo hfinished
    obtain ⟨hidle, hlt⟩ : (x.turns.phase i).isIdle ∧ (programs i).length ≤ x.returned i := by
      by_contra hnot
      rw [if_neg hnot] at hfinished
      cases hfinished
    have hdoing :
        ∀ {k es w}, ¬ Doing flow (programs i) (x.returned i) (x.turns.phase i) k es w := by
      intro k es w hd
      generalize x.turns.phase i = ph at hd hidle
      cases hd with
      | idle hstep _ => simp [List.getElem?_eq_none hlt] at hstep
      | busy => cases hidle
    cases hgo with
    | host _ hstep _ => simp [List.getElem?_eq_none hlt] at hstep
    | call _ hd _ => exact hdoing hd
    | quiet hd _ => exact hdoing hd

end Systems

variable [DecidableEq T] {flow : κ → Flow C A σ α} {guarded : κ → Bool}
  {programs : T → List (Option κ)}
variable {r : Returns T} {R : σ → Prop} {s₀ : σ} {x y : Stage T C A σ α κ} {h h' : Option T} {i : T}

theorem bareSystem_wellFounded [Fintype T] :
    WellFounded fun s' s ↦ (bareSystem guarded programs r).Step s s' := by
  refine Subrelation.wf ?_ (measure fun s : T → ℕ ↦ ∑ i, ((programs i).length - s i)).wf
  rintro s' s ⟨i, hlt, -, rfl⟩
  have hle :
      ∀ j ∈ Finset.univ, (programs j).length - update s i (s i + 1) j ≤
        (programs j).length - s j := by
    intro j _
    by_cases hj : j = i
    · rw [hj, update_self]
      omega
    · rw [update_of_ne hj]
  have hone : (programs i).length - update s i (s i + 1) i < (programs i).length - s i := by
    rw [update_self]
    omega
  exact Finset.sum_lt_sum hle ⟨i, Finset.mem_univ i, hone⟩

def Stage.initial (s₀ : σ) : Stage T C A σ α κ := ⟨⟨s₀, none, fun _ ↦ .idle, []⟩, fun _ ↦ 0⟩

section Simulation

/-- Where a thread stands that has the lock if `holds`, and whose call under the lock has yet to
return if `inside`. -/
inductive Stands (R : σ → Prop) (guarded : κ → Bool) (steps : List (Option κ)) (n : ℕ) (t : σ)
    (holds inside : Prop) : Phase C A σ α κ → Prop
  | idle : ¬ holds → ¬ inside → Stands R guarded steps n t holds inside .idle
  | before {k : κ} {u w : Flow C A σ α} : holds → inside → steps[n]? = some (some k) →
      guarded k = true →
      Unlocked u → Ends (AfterOne R) [] u t → w = unlocking u →
      Stands R guarded steps n t holds inside (.busy k [] w)
  | after {k : κ} {e : C × A} {u w : Flow C A σ α} : holds → ¬ inside → Unlocked u →
      Ends (AfterOne R) [e] u t →
      w = unlocking u → Stands R guarded steps n t holds inside (.busy k [e] w)

theorem Stands.eq_idle {steps : List (Option κ)} {n : ℕ} {t : σ} {holds inside : Prop}
    {ph : Phase C A σ α κ} (hs : Stands R guarded steps n t holds inside ph) (hnot : ¬ holds) :
    ph = .idle := by
  cases hs with
  | idle => rfl
  | before hholds => exact absurd hholds hnot
  | after hholds => exact absurd hholds hnot

/-- The threads stand where they stand in the system whose calls are single steps, where `h` has the
lock: it is given back there as soon as the call returns. -/
structure Related (R : σ → Prop) (guarded : κ → Bool) (programs : T → List (Option κ))
    (h : Option T) (x : Stage T C A σ α κ) : Prop where
  stands : ∀ i, Stands R guarded (programs i) (x.returned i) x.turns.state (x.turns.owner = some i)
    (h = some i) (x.turns.phase i)
  free : x.turns.owner = none → R x.turns.state

namespace Related

omit [DecidableEq T] in
theorem initial (hR : R s₀) :
    Related R guarded programs none (Stage.initial s₀ : Stage T C A σ α κ) :=
  ⟨fun _ ↦ .idle nofun nofun, fun _ ↦ hR⟩

omit [DecidableEq T] in
theorem owner (hr : Related R guarded programs h x) (hi : h = some i) : x.turns.owner = some i := by
  have hs := hr.stands i
  generalize x.turns.phase i = ph at hs
  cases hs with
  | idle _ hnot => exact absurd hi hnot
  | before hholds => exact hholds
  | after hholds => exact hholds

theorem past (hr : Related R guarded programs h x) (hidle : x.turns.phase i = .idle) (n : ℕ)
    (ms : List (C × A)) :
    Related R guarded programs h
      ⟨⟨x.turns.state, x.turns.owner, update x.turns.phase i .idle, ms⟩,
        update x.returned i n⟩ := by
  rw [← hidle, update_eq_self]
  refine ⟨fun j ↦ ?_, hr.free⟩
  by_cases hj : j = i
  · subst hj
    have hs := hr.stands j
    rw [hidle] at hs ⊢
    cases hs with
    | idle hnot hnot' => exact .idle hnot hnot'
  · simpa [hj] using hr.stands j

theorem turn {n : T → ℕ} {ph : Phase C A σ α κ} {o : Option T} {t : σ} {ms : List (C × A)}
    (hr : Related R guarded programs h x) (hothers : ∀ j, j ≠ i → x.turns.owner ≠ some j)
    (hi : Stands R guarded (programs i) (n i) t (o = some i) (h' = some i) ph)
    (ho : ∀ j, j ≠ i → o ≠ some j) (hh : ∀ j, j ≠ i → h' ≠ some j) (hfree : o = none → R t) :
    Related R guarded programs h' ⟨⟨t, o, update x.turns.phase i ph, ms⟩, n⟩ := by
  refine ⟨fun j ↦ ?_, hfree⟩
  by_cases hj : j = i
  · subst hj
    simpa using hi
  · have hidle := (hr.stands j).eq_idle (hothers j hj)
    simpa [hj, hidle] using .idle (ho j hj) (hh j hj)

end Related

theorem bareSystem_place {n : T → ℕ} {z : Option κ} (hz : (programs i)[n i]? = some z) :
    (bareSystem guarded programs r).place n i = if z.any guarded then .inside else .outside := by
  simp [bareSystem, hz]

theorem bareSystem_next {n : T → ℕ} {z : Option κ} (hz : (programs i)[n i]? = some z)
    (hret : r n i) :
    (bareSystem guarded programs r).next i n (update n i (n i + 1)) :=
  ⟨(List.getElem?_eq_some_iff.mp hz).1, hret, rfl⟩

theorem exists_inside {n : T → ℕ} (h : (bareSystem guarded programs r).place n i = .inside) :
    ∃ k, (programs i)[n i]? = some (some k) ∧ guarded k = true := by
  cases hz : (programs i)[n i]? with
  | none => simp [bareSystem, hz] at h
  | some z =>
    rw [bareSystem_place hz] at h
    cases z with
    | none => simp at h
    | some k => exact ⟨k, rfl, by simpa using h⟩

theorem exists_outside {n : T → ℕ} (h : (bareSystem guarded programs r).place n i = .outside) :
    ∃ z, (programs i)[n i]? = some z ∧ z.any guarded = false := by
  cases hz : (programs i)[n i]? with
  | none => simp [bareSystem, hz] at h
  | some z =>
    rw [bareSystem_place hz] at h
    exact ⟨z, rfl, by simpa using h⟩

omit [DecidableEq T] in
theorem Ends.length_le [Inhabited A] {es : List (C × A)} {w : Flow C A σ α} {t : σ}
    (hw : Ends (AfterOne R) es w t) : es.length ≤ 1 := by
  induction hw with
  | done hend => exact hend.1.le
  | call _ ih =>
    have hmore := ih default
    rw [List.length_append, List.length_singleton] at hmore
    omega
  | state _ ih => exact ih
  | update _ ih => exact ih

omit [DecidableEq T] in
theorem some_ne_some {j : T} (hj : j ≠ i) : some i ≠ some j :=
  fun hij ↦ hj (Option.some.inj hij).symm

variable [Inhabited A] {k : κ} {es : List (C × A)}

omit [DecidableEq T] in
theorem Stands.first {steps : List (Option κ)} {n : ℕ} {t : σ} {holds inside : Prop} {c : C}
    {w : A → Flow C A σ α} (hs : Stands R guarded steps n t holds inside (.busy k es (.call c w))) :
    es = [] := by
  cases hs with
  | before => rfl
  | after _ _ hu hends hw =>
    cases hu with
    | call =>
      cases hends with
      | call hends => exact absurd (hends default).length_le (by simp)
    | _ => cases hw

theorem Related.called {c : C} {w : A → Flow C A σ α}
    (hsingle : ∀ i k, some k ∈ programs i → Single R (guarded k) (flow k))
    (hr : Related R guarded programs h x)
    (hdoing : Doing flow (programs i) (x.returned i) (x.turns.phase i) k es (.call c w))
    (hret : r x.returned i) (a : A) :
    ∃ h', Related R guarded programs h' ⟨⟨x.turns.state, x.turns.owner,
        update x.turns.phase i (settle k (es ++ [(c, a)]) (w a)).1, x.turns.trace ++ [(c, a)]⟩,
        update x.returned i (x.returned i + 1)⟩ ∧
      (bareSystem guarded programs r).LockedNext i (x.returned, h)
        (update x.returned i (x.returned i + 1), h') := by
  have hi := hr.stands i
  generalize hphase : x.turns.phase i = ph at hdoing hi
  cases hdoing with
  | idle hstep hw =>
    have hkind := hsingle i k (List.mem_of_getElem? hstep)
    rw [← hw] at hkind
    generalize hg : guarded k = g at hkind
    cases hkind with
    | aside =>
      refine ⟨h, hr.past hphase _ _, .outside ?_ (bareSystem_next hstep hret)⟩
      rw [bareSystem_place hstep]
      simp [hg]
  | busy =>
    obtain rfl := hi.first
    cases hi with
    | before howner hin hstep hg hu hends hw =>
      subst hin
      cases hu with
      | call hk =>
        obtain ⟨rfl, rfl⟩ := Flow.call.inj hw
        cases hends with
        | call hends =>
          have hothers : ∀ j, j ≠ i → x.turns.owner ≠ some j := fun j hj ↦ howner ▸ some_ne_some hj
          refine ⟨none, hr.turn hothers ?_ hothers (fun _ _ ↦ nofun) fun hnone ↦ ?_,
            .call ?_ (bareSystem_next hstep hret)⟩
          · rw [settle_releasing]
            exact .after howner nofun (hk a) (hends a) rfl
          · rw [hnone] at howner
            cases howner
          · rw [bareSystem_place hstep]
            simp [hg]
      | _ => cases hw

omit [Inhabited A] in
theorem Related.quiet {w w' : Flow C A σ α} {o : Option T} {t : σ}
    (hsingle : ∀ i k, some k ∈ programs i → Single R (guarded k) (flow k))
    (hr : Related R guarded programs h x)
    (hdoing : Doing flow (programs i) (x.returned i) (x.turns.phase i) k es w)
    (hquiet : Turns.Step i x.turns.owner x.turns.state w [] o t w') :
    ∃ h', Related R guarded programs h'
      ⟨⟨t, o, update x.turns.phase i (settle k es w').1, x.turns.trace⟩, x.returned⟩ ∧
      ((x.turns.owner = none ∧ (bareSystem guarded programs r).LockedNext i (x.returned, h)
        (x.returned, h')) ∨
        (h' = h ∧ x.turns.owner = some i ∧ ∀ k es c v,
          x.turns.phase i ≠ .busy k es (.call c v))) := by
  have hi := hr.stands i
  have hfree := hr.free
  have howners := fun j ↦ hr.owner (i := j)
  generalize hphase : x.turns.phase i = ph at hdoing hi ⊢
  generalize hown : x.turns.owner = own at hquiet hi hfree howners ⊢
  generalize hstate : x.turns.state = st at hquiet hi hfree
  cases hdoing with
  | idle hstep hw =>
    have hkind := hsingle i k (List.mem_of_getElem? hstep)
    rw [← hw] at hkind
    generalize hg : guarded k = g at hkind
    cases hkind with
    | aside => cases hquiet
    | guarded hu hends =>
      cases hquiet with
      | acquire =>
        obtain rfl : h = none :=
          Option.eq_none_iff_forall_ne_some.mpr fun j hj ↦ by cases howners j hj
        refine ⟨some i, hr.turn (fun j _ ↦ by simp [hown]) ?_ (fun _ ↦ some_ne_some)
          (fun _ ↦ some_ne_some) (fun hnone ↦ by cases hnone), .inl ⟨rfl, .acquire ?_⟩⟩
        · rw [unlocking, settle_releasing]
          exact .before rfl rfl hstep hg hu (hends _ (hfree rfl)) rfl
        · rw [bareSystem_place hstep]
          simp [hg]
  | busy =>
    cases hi with
    | before howner hin hstep hg hu hends hw =>
      subst howner hin hw
      have hothers : ∀ j, j ≠ i → x.turns.owner ≠ some j := fun j hj ↦ hown ▸ some_ne_some hj
      cases hu with
      | done =>
        cases hends with
        | done hend => exact absurd hend.1 (by simp)
      | call => cases hquiet
      | state hk =>
        cases hquiet with
        | state =>
          cases hends with
          | state hends =>
            refine ⟨_, hr.turn hothers ?_ (fun _ ↦ some_ne_some) (fun _ ↦ some_ne_some)
              (fun hnone ↦ by cases hnone), .inr ⟨rfl, rfl, fun _ _ _ _ hcall ↦ by cases hcall⟩⟩
            rw [settle_releasing]
            exact .before rfl rfl hstep hg (hk _) hends rfl
      | update hk =>
        cases hquiet with
        | update =>
          cases hends with
          | update hends =>
            refine ⟨_, hr.turn hothers ?_ (fun _ ↦ some_ne_some) (fun _ ↦ some_ne_some)
              (fun hnone ↦ by cases hnone), .inr ⟨rfl, rfl, fun _ _ _ _ hcall ↦ by cases hcall⟩⟩
            rw [settle_releasing]
            exact .before rfl rfl hstep hg hk hends rfl
    | after howner hnot hu hends hw =>
      subst howner hw
      have hothers : ∀ j, j ≠ i → x.turns.owner ≠ some j := fun j hj ↦ hown ▸ some_ne_some hj
      have hnobody : ∀ j, j ≠ i → h ≠ some j := fun j hj hh ↦ some_ne_some hj (howners j hh)
      cases hu with
      | done =>
        cases hquiet with
        | release =>
          cases hends with
          | done hend =>
            exact ⟨h, hr.turn hothers (.idle (by simp) hnot) (fun _ _ ↦ by simp) hnobody
              fun _ ↦ hend.2, .inr ⟨rfl, rfl, fun _ _ _ _ hcall ↦ by cases hcall⟩⟩
      | call => cases hquiet
      | state hk =>
        cases hquiet with
        | state =>
          cases hends with
          | state hends =>
            refine ⟨h, hr.turn hothers ?_ (fun _ ↦ some_ne_some) hnobody
              (fun hnone ↦ by cases hnone), .inr ⟨rfl, rfl, fun _ _ _ _ hcall ↦ by cases hcall⟩⟩
            rw [settle_releasing]
            exact .after rfl hnot (hk _) hends rfl
      | update hk =>
        cases hquiet with
        | update =>
          cases hends with
          | update hends =>
            refine ⟨h, hr.turn hothers ?_ (fun _ ↦ some_ne_some) hnobody
              (fun hnone ↦ by cases hnone), .inr ⟨rfl, rfl, fun _ _ _ _ hcall ↦ by cases hcall⟩⟩
            rw [settle_releasing]
            exact .after rfl hnot hk hends rfl

omit [DecidableEq T] [Inhabited A] in
theorem Stands.inside_iff {steps : List (Option κ)} {n : ℕ} {t : σ} {holds inside : Prop}
    {ph : Phase C A σ α κ} (hs : Stands R guarded steps n t holds inside ph) :
    inside ↔ ∃ k w, ph = .busy k [] w := by
  cases hs with
  | idle _ hnot => exact iff_of_false hnot nofun
  | before _ hin => exact iff_of_true hin ⟨_, _, rfl⟩
  | after _ hnot => exact iff_of_false hnot nofun

omit [DecidableEq T] [Inhabited A] in
theorem Related.unique (hr : Related R guarded programs h x)
    (hr' : Related R guarded programs h' x) : h = h' :=
  Option.ext fun i ↦ (hr.stands i).inside_iff.trans (hr'.stands i).inside_iff.symm

omit [Inhabited A] in
theorem flowSystem_unfinished
    (hi : (bareSystem guarded programs r).place x.returned i ≠ .finished) :
    (flowSystem flow programs r).place x i ≠ .finished := by
  intro hfinished
  have hle : (programs i).length ≤ x.returned i := by
    by_contra hlt
    simp [flowSystem, hlt] at hfinished
  exact hi (by simp [bareSystem, List.getElem?_eq_none hle])

omit [Inhabited A] in
theorem Related.unfinished (hr : Related R guarded programs h x)
    (hcall : ∀ j, x.turns.owner = some j → ∃ k c v, x.turns.phase j = .busy k [] (.call c v))
    (hi : (flowSystem flow programs r).place x i ≠ .finished) :
    (bareSystem guarded programs r).place x.returned i ≠ .finished := by
  have hlt : x.returned i < (programs i).length := by
    by_contra hle
    have hs := hr.stands i
    by_cases howner : x.turns.owner = some i
    · obtain ⟨k, c, v, hphase⟩ := hcall i howner
      rw [hphase] at hs
      cases hs with
      | before _ _ hstep => exact hle (List.getElem?_eq_some_iff.mp hstep).1
    · refine hi ?_
      simp [flowSystem, hs.eq_idle howner, Phase.isIdle, Nat.not_lt.mp hle]
  rw [bareSystem_place (List.getElem?_eq_getElem hlt)]
  split <;> simp

variable (hsingle : ∀ i k, some k ∈ programs i → Single R (guarded k) (flow k))

include hsingle

/-- A step through a flow is a step of the system whose calls are single steps, or it does not show
there. -/
theorem Related.step (hr : Related R guarded programs h x) (hgo : Goes flow programs r i x y) :
    ∃ h', Related R guarded programs h' y ∧
      ((bareSystem guarded programs r).LockedNext i (x.returned, h) (y.returned, h') ∨
        (y.returned = x.returned ∧ h' = h ∧ x.turns.owner = some i ∧
          ∀ k es c v, x.turns.phase i ≠ .busy k es (.call c v))) := by
  cases hgo with
  | host hidle hstep hret =>
    refine ⟨h, ?_, .inl (.outside (bareSystem_place hstep) (bareSystem_next hstep hret))⟩
    simpa [← hidle] using hr.past hidle (x.returned i + 1) x.turns.trace
  | call a hdoing hret =>
    obtain ⟨h', hr', hnext⟩ := hr.called hsingle hdoing hret a
    exact ⟨h', hr', .inl hnext⟩
  | quiet hdoing hquiet =>
    obtain ⟨h', hr', ⟨-, hnext⟩ | hsilent⟩ := hr.quiet (r := r) hsingle hdoing hquiet
    · exact ⟨h', hr', .inl hnext⟩
    · exact ⟨h', hr', .inr ⟨rfl, hsilent⟩⟩

omit [Inhabited A] in
theorem Related.silent {w w' : Flow C A σ α} {o : Option T} {t : σ}
    (hr : Related R guarded programs h x) (howner : x.turns.owner = some i)
    (hphase : x.turns.phase i = .busy k es w)
    (hstep : Turns.Step i (some i) x.turns.state w [] o t w') :
    ∃ y, (flowSystem flow programs r).Reaches x y ∧ Related R guarded programs h y ∧
      y.returned = x.returned ∧ y.turns.owner = o ∧ y.turns.phase i = (settle k es w').1 := by
  rw [← howner] at hstep
  have hdoing : Doing flow (programs i) (x.returned i) (x.turns.phase i) k es w := by
    rw [hphase]
    exact .busy
  obtain ⟨h', hr', ⟨hnone, -⟩ | ⟨rfl, -⟩⟩ := hr.quiet (r := r) hsingle hdoing hstep
  · rw [howner] at hnone
    cases hnone
  · exact ⟨_, .single ⟨i, .quiet hdoing hstep⟩, hr', rfl, rfl, update_self ..⟩

theorem Related.finish {u : Flow C A σ α} (hu : Unlocked u) (hr : Related R guarded programs h x)
    (howner : x.turns.owner = some i) (hphase : x.turns.phase i = .busy k es (unlocking u)) :
    ∃ y, (flowSystem flow programs r).Reaches x y ∧ Related R guarded programs h y ∧
      y.returned = x.returned ∧ ∀ j, y.turns.owner = some j →
      ∃ k c v, y.turns.phase j = .busy k [] (.call c v) := by
  induction hu generalizing x with
  | done a =>
    obtain ⟨y, hreach, hr', hret, hnone, -⟩ := hr.silent (r := r) hsingle howner hphase .release
    exact ⟨y, hreach, hr', hret, fun j hj ↦ by rw [hnone] at hj; cases hj⟩
  | call =>
    have hi := hr.stands i
    rw [hphase] at hi
    obtain rfl := hi.first
    refine ⟨x, .refl, hr, rfl, fun j hj ↦ ?_⟩
    obtain rfl := Option.some.inj (howner.symm.trans hj)
    exact ⟨_, _, _, hphase⟩
  | state _ ih =>
    obtain ⟨y, hreach, hr', hret, howner', hphase'⟩ :=
      hr.silent (r := r) hsingle howner hphase .state
    rw [settle_releasing] at hphase'
    obtain ⟨z, hreach', hr'', hret', hcall⟩ := ih _ hr' howner' hphase'
    exact ⟨z, hreach.trans hreach', hr'', hret'.trans hret, hcall⟩
  | update _ ih =>
    obtain ⟨y, hreach, hr', hret, howner', hphase'⟩ :=
      hr.silent (r := r) hsingle howner hphase .update
    rw [settle_releasing] at hphase'
    obtain ⟨z, hreach', hr'', hret', hcall⟩ := ih hr' howner' hphase'
    exact ⟨z, hreach.trans hreach', hr'', hret'.trans hret, hcall⟩

/-- Whoever has the lock can go on until it waits for its call, or nobody has the lock any more. -/
theorem Related.advance (hr : Related R guarded programs h x) :
    ∃ y, (flowSystem flow programs r).Reaches x y ∧ Related R guarded programs h y ∧
      y.returned = x.returned ∧ ∀ j, y.turns.owner = some j →
      ∃ k c v, y.turns.phase j = .busy k [] (.call c v) := by
  cases howner : x.turns.owner with
  | none => exact ⟨x, .refl, hr, rfl, fun j hj ↦ by rw [howner] at hj; cases hj⟩
  | some i =>
    have hi := hr.stands i
    generalize hphase : x.turns.phase i = ph at hi
    cases hi with
    | idle hnot => exact absurd howner hnot
    | before _ _ _ _ hu _ hw =>
      subst hw
      exact hr.finish hsingle hu howner hphase
    | after _ _ hu _ hw =>
      subst hw
      exact hr.finish hsingle hu howner hphase

/-- A step of the system whose calls are single steps can be made through the flows. -/
theorem Related.back {b : (T → ℕ) × Option T} (hr : Related R guarded programs h x)
    (hnext : (bareSystem guarded programs r).LockedNext i (x.returned, h) b) :
    ∃ y, (flowSystem flow programs r).Reaches x y ∧ Related R guarded programs b.2 y ∧
      y.returned = b.1 := by
  obtain ⟨y, hreach, hr', hret, hcall⟩ := hr.advance (r := r) hsingle
  rw [← hret] at hnext
  -- The thread waits for what its next step in the other system waits for.
  have hgo : ∃ z, Goes flow programs r i y z := by
    have hbefore : ∀ j, y.turns.owner = some j →
        h = some j ∧ ∃ k, (programs j)[y.returned j]? = some (some k) ∧ guarded k = true := by
      intro j howner
      obtain ⟨k, c, v, hphase⟩ := hcall j howner
      have hj := hr'.stands j
      rw [hphase] at hj
      cases hj with
      | before _ hin hstep hguarded => exact ⟨hin, k, hstep, hguarded⟩
    cases hnext with
    | acquire hplace =>
      obtain ⟨k, hk, hg⟩ := exists_inside hplace
      have hnone : y.turns.owner = none :=
        Option.eq_none_iff_forall_ne_some.mpr fun j hj ↦ by cases (hbefore j hj).1
      have hidle := (hr'.stands i).eq_idle (by simp [hnone])
      have hkind := hsingle i k (List.mem_of_getElem? hk)
      rw [hg] at hkind
      generalize hflow : flow k = w at hkind
      cases hkind with
      | @guarded u hu hends =>
        have hdoing : Doing flow (programs i) (y.returned i) (y.turns.phase i) k []
            (.acquire (unlocking u)) := by
          rw [hidle]
          exact .idle hk hflow.symm
        have hstep : Turns.Step i none y.turns.state _ [] _ _ _ := .acquire (k := unlocking u)
        rw [← hnone] at hstep
        exact ⟨_, .quiet hdoing hstep⟩
    | call hplace hnext =>
      obtain ⟨k, c, v, hphase⟩ := hcall i (hr'.owner rfl)
      have hdoing : Doing flow (programs i) (y.returned i) (y.turns.phase i) k [] (.call c v) := by
        rw [hphase]
        exact .busy
      exact ⟨_, .call default hdoing hnext.2.1⟩
    | outside hplace hnext =>
      obtain ⟨z, hz, hg⟩ := exists_outside hplace
      have hidle : y.turns.phase i = .idle := by
        refine (hr'.stands i).eq_idle fun howner ↦ ?_
        obtain ⟨-, k, hk, hguarded⟩ := hbefore i howner
        obtain rfl := Option.some.inj (hz.symm.trans hk)
        rw [Option.any_some, hguarded] at hg
        cases hg
      cases z with
      | none => exact ⟨_, .host hidle hz hnext.2.1⟩
      | some k =>
        have hkind := hsingle i k (List.mem_of_getElem? hz)
        rw [Option.any_some] at hg
        rw [hg] at hkind
        generalize hflow : flow k = w at hkind
        cases hkind with
        | @aside c v =>
          have hdoing : Doing flow (programs i) (y.returned i) (y.turns.phase i) k []
              (.call c fun a ↦ .done (v a)) := by
            rw [hidle]
            exact .idle hz hflow.symm
          exact ⟨_, .call default hdoing hnext.2.1⟩
  have huniq : ∀ s s' s'', (bareSystem guarded programs r).next i s s' →
      (bareSystem guarded programs r).next i s s'' → s' = s'' :=
    fun _ _ _ hs hs' ↦ hs.2.2.trans hs'.2.2.symm
  obtain ⟨z, hz⟩ := hgo
  obtain ⟨h', hr'', hnext' | ⟨-, -, howner, hnot⟩⟩ := hr'.step hsingle hz
  · obtain rfl := System.locked_next_unique huniq hnext hnext'
    exact ⟨z, hreach.tail ⟨i, hz⟩, hr'', rfl⟩
  · obtain ⟨k, c, v, hphase⟩ := hcall i howner
    exact absurd hphase (hnot k [] c v)

theorem exists_related {b : (T → ℕ) × Option T} (hR : R s₀)
    (hb : (bareSystem guarded programs r).locked.Reaches (fun _ ↦ 0, none) b) :
    ∃ x, (flowSystem flow programs r).Reaches (.initial s₀) x ∧ Related R guarded programs b.2 x ∧
      x.returned = b.1 := by
  induction hb with
  | refl => exact ⟨_, .refl, .initial hR, rfl⟩
  | @tail b c _ hstep ih =>
    obtain ⟨x, hx, hr, hret⟩ := ih
    obtain ⟨j, hj⟩ := hstep
    obtain ⟨n, h⟩ := b
    obtain rfl : x.returned = n := hret
    obtain ⟨y, hy, hr', hret'⟩ := hr.back (r := r) hsingle hj
    exact ⟨y, hx.trans hy, hr', hret'⟩

theorem related_of_reaches (hR : R s₀) (hx : (flowSystem flow programs r).Reaches (.initial s₀) x) :
    ∃ h, Related R guarded programs h x ∧
      (bareSystem guarded programs r).locked.Reaches (fun _ ↦ 0, none) (x.returned, h) := by
  induction hx with
  | refl => exact ⟨none, .initial hR, .refl⟩
  | @tail x y _ hstep ih =>
    obtain ⟨h, hr, hreach⟩ := ih
    obtain ⟨j, hj⟩ := hstep
    obtain ⟨h', hr', hnext | ⟨hret, rfl, -⟩⟩ := hr.step (r := r) hsingle hj
    · exact ⟨h', hr', hreach.tail ⟨j, hnext⟩⟩
    · exact ⟨h', hr', hret ▸ hreach⟩

/-- Where each call takes the lock around one call or makes one without it, there is a deadlock
between the steps of the flows if and only if there is one where each call is a single step. -/
theorem flowSystem_deadlockFree_iff (hR : R s₀) :
    (flowSystem flow programs r).DeadlockFree (.initial s₀) ↔
      (bareSystem guarded programs r).locked.DeadlockFree (fun _ ↦ 0, none) := by
  constructor
  · rintro hfree ⟨n, h⟩ hreach ⟨⟨i, hi⟩, hstuck⟩
    obtain ⟨x, hx, hr, rfl⟩ := exists_related (r := r) hsingle hR hreach
    obtain ⟨y, hy, hr', hret, hcall⟩ := hr.advance (r := r) hsingle
    rw [System.locked, ← hret] at hi
    refine hfree y (hx.trans hy) ⟨⟨i, flowSystem_unfinished hi⟩, ?_⟩
    rintro z ⟨j, hz⟩
    obtain ⟨h', -, hnext | ⟨-, -, howner, hnot⟩⟩ := hr'.step hsingle hz
    · exact hstuck _ ⟨j, hret ▸ hnext⟩
    · obtain ⟨k, c, v, hphase⟩ := hcall j howner
      exact hnot k [] c v hphase
  · rintro hfree x hreach ⟨⟨i, hi⟩, hstuck⟩
    have hstays : ∀ {y}, (flowSystem flow programs r).Reaches x y → y = x := by
      intro y hy
      obtain rfl | ⟨z, hz, -⟩ := hy.cases_head
      · rfl
      · exact absurd hz (hstuck z)
    obtain ⟨h, hr, hlocked⟩ := related_of_reaches (r := r) hsingle hR hreach
    obtain ⟨y, hy, -, -, hcall⟩ := hr.advance (r := r) hsingle
    obtain rfl := hstays hy
    refine hfree _ hlocked ⟨⟨i, hr.unfinished hcall hi⟩, ?_⟩
    rintro b ⟨j, hb⟩
    obtain ⟨z, hz, hr', hret⟩ := hr.back (r := r) hsingle hb
    obtain rfl := hstays hz
    obtain ⟨n, h'⟩ := b
    obtain rfl : z.returned = n := hret
    obtain rfl := hr.unique hr'
    cases hb with
    | outside _ hnext => exact absurd (congrFun hnext.2.2 j) (by simp)

end Simulation

end HrxSystem.Threads
