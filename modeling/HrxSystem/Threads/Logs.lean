import HrxSystem.Threads.Turns

namespace HrxSystem.Threads

open External Function

variable {T C A σ α β κ L X : Type}

/-- From state `s` on a flow makes no calls, passes only states with `P` and ends in one with
`Q`. -/
inductive Quiet (P Q : σ → Prop) : Flow C A σ α → σ → Prop
  | done {a : α} {s : σ} : P s → Q s → Quiet P Q (.done a) s
  | state {k : σ → Flow C A σ α} {s : σ} : P s → Quiet P Q (k s) s → Quiet P Q (.state k) s
  | update {f : σ → σ} {k : Flow C A σ α} {s : σ} : P s → Quiet P Q k (f s) →
      Quiet P Q (.update f k) s

namespace Quiet

variable {P Q : σ → Prop} {u : Flow C A σ β} {s t : σ}

theorem here (hu : Quiet P Q u s) : P s := by
  cases hu with
  | done hs _ => exact hs
  | state hs _ => exact hs
  | update hs _ => exact hs

theorem reaches {w : Flow C A σ α} {v : β → Flow C A σ α} {es : List (C × A)} (hu : Quiet P Q u t)
    (h : w.Reaches s es (u.bind v) t) : ∃ b t', P t' ∧ Q t' ∧ w.Reaches s es (v b) t' := by
  induction hu with
  | done hs hend => exact ⟨_, _, hs, hend, h⟩
  | state _ _ ih => exact ih (.state h)
  | update _ _ ih => exact ih (.update h)

end Quiet

/-- A section that appends to a log. What it has appended in the end depends on a part of the state
that it leaves alone. -/
def Appends (conf : σ → X) (out : σ → List L) (new : X → List L) (u : Flow C A σ Unit) : Prop :=
  ∀ s, Quiet (fun t ↦ conf t = conf s ∧ out s <+: out t) (fun t ↦ out t = out s ++ new (conf s)) u s

/-- A flow that takes the lock for sections that append to the log, and uses the state for nothing
else. -/
inductive Writes (conf : σ → X) (out : σ → List L) : Flow C A σ α → Prop
  | done (a : α) : Writes conf out (.done a)
  | call {c : C} {k : A → Flow C A σ α} : (∀ a, Writes conf out (k a)) → Writes conf out (.call c k)
  | write {new : X → List L} {u : Flow C A σ Unit} {v : Flow C A σ α} : Unlocked u →
      Appends conf out new u →
      Writes conf out v → Writes conf out (.acquire (u.bind fun _ ↦ .release v))

namespace Writes

variable {conf : σ → X} {out : σ → List L}

theorem bind {w : Flow C A σ α} {v : α → Flow C A σ β} (hw : Writes conf out w)
    (hv : ∀ a, Writes conf out (v a)) :
    Writes conf out (w.bind v) := by
  induction hw with
  | done a => exact hv a
  | call _ ih => exact .call ih
  | write hu hnew _ ih =>
    rw [Flow.bind, Flow.bind_assoc]
    exact .write hu hnew ih

instance (conf : σ → X) (out : σ → List L) : Closed (C := C) (A := A) (Writes conf out) :=
  ⟨.done, .call, .bind⟩

def cut {new : X → List L} {m : Program C A σ Unit} (u : Cut Unlocked m)
    (hu : Appends conf out new u.flow) :
    Cut (Writes conf out) m where
  flow := .acquire (unlocking u.flow)
  fits := .write u.fits hu (.done ())
  program := by
    rw [Flow.program, unlocking, Flow.program_bind, u.program]
    exact Program.ext_run fun o n s ↦ by simp [Flow.program]

theorem orderly {w : Flow C A σ α} (hw : Writes conf out w) : Orderly false w := by
  induction hw with
  | done a => exact .done a
  | call _ ih => exact .call ih
  | write hu _ _ ih => exact .acquire (hu.orderly fun _ ↦ .release ih)

end Writes

def own [DecidableEq T] (i : T) (xs : List (T × α)) : List α :=
  (xs.filter fun x ↦ x.1 = i).map Prod.snd

section Own

variable [DecidableEq T] {i j : T}

@[simp] theorem own_nil : own i ([] : List (T × α)) = [] := rfl

@[simp] theorem own_append (xs ys : List (T × α)) :
    own i (xs ++ ys) = own i xs ++ own i ys := by simp [own]

@[simp] theorem own_self (xs : List α) : own i (xs.map (Prod.mk i)) = xs := by
  rw [own, List.filter_eq_self.mpr, List.map_map]
  · exact List.map_id xs
  · simp

theorem own_other (hij : j ≠ i) (xs : List α) : own j (xs.map (Prod.mk i)) = [] := by
  rw [own, List.filter_eq_nil_iff.mpr]
  · rfl
  · simp [hij.symm]

end Own

/-- What is known of a thread that alone would have come from state `s` to state `t`. A section that
it began in state `r`, and in which the shared state is `q`, it would have begun in `t`. -/
inductive Alone (flow : κ → Flow C A σ α) (conf : σ → X) (out : σ → List L) (s t r q : σ)
    (holds : Prop) :
    Phase C A σ α κ → Prop
  | idle : ¬ holds → s = t → Alone flow conf out s t r q holds .idle
  | outside {k : κ} {es : List (C × A)} {w : Flow C A σ α} : ¬ holds → Writes conf out w →
      (flow k).Reaches s es w t → Alone flow conf out s t r q holds (.busy k es w)
  | inside {k : κ} {es : List (C × A)} {new : X → List L} {u u' : Flow C A σ Unit}
      {v : Flow C A σ α} : holds →
      Appends conf out new u → Writes conf out v →
      (flow k).Reaches s es (u.bind fun _ ↦ .release v) t →
      Quiet (fun x ↦ conf x = conf r ∧ out r <+: out x)
        (fun x ↦ out x = out r ++ new (conf r)) u' q →
      Alone flow conf out s t r q holds (.busy k es (u'.bind fun _ ↦ .release v))

variable {flow : κ → Flow C A σ α} {conf : σ → X} {out : σ → List L} {s₀ s t r r' q q' : σ}
  {holds holds' : Prop}
variable {x : Phase C A σ α κ} {fs : List (Finished C A α κ)} {lines : List L}

theorem Alone.elsewhere (h : Alone flow conf out s t r q holds x) (hnot : ¬ holds)
    (hnot' : ¬ holds') :
    Alone flow conf out s t r' q' holds' x := by
  cases h with
  | idle _ heq => exact .idle hnot' heq
  | outside _ hw hreach => exact .outside hnot' hw hreach
  | inside hholds => exact absurd hholds hnot

/-- The calls that have returned, made alone, lead to state `s`, and what has been written since
leads to state `t`. -/
structure Private (flow : κ → Flow C A σ α) (conf : σ → X) (out : σ → List L) (s₀ : σ)
    (fs : List (Finished C A α κ)) (lines : List L) (s t : σ) : Prop where
  run : ∃ l, Runs (fun k ↦ (flow k).program) (fun _ _ _ _ ↦ True) s₀ s l ∧ l.map Entry.finished = fs
  kept : conf t = conf s₀
  logs : out t = out s₀ ++ lines

variable [DecidableEq T] [Inhabited A] {ls : List (T × Finished C A α κ)} {p : Turns T C A σ α κ}
variable {marks : List (T × L)} {ms : List (C × A)}

theorem Private.settle {k : κ} {es : List (C × A)} {w : Flow C A σ α}
    (h : Private flow conf out s₀ fs lines s t) (hnot : ¬ holds) (hw : Writes conf out w)
    (hreach : (flow k).Reaches s es w t) :
    ∃ s', Private flow conf out s₀ (fs ++ (settle k es w).2) lines s' t ∧
      Alone flow conf out s' t r q holds (settle k es w).1 := by
  obtain ⟨l, hl, hls⟩ := h.run
  obtain ⟨a, rfl, hsettle⟩ | hsettle := settle_cases k es w
  · rw [hsettle]
    obtain ⟨l', hl', hls'⟩ := hl.flow hreach
    exact ⟨t, ⟨⟨l', hl', by rw [hls', hls]⟩, h.kept, h.logs⟩, .idle hnot rfl⟩
  · rw [hsettle, List.append_nil]
    exact ⟨s, h, .outside hnot hw hreach⟩

/-- When the lock was last free the state was `r`, and the log was put together from lines of the
threads, each of which gets on as if it were alone. -/
structure Merged (flow : κ → Flow C A σ α) (conf : σ → X) (out : σ → List L) (s₀ : σ)
    (ls : List (T × Finished C A α κ)) (p : Turns T C A σ α κ) (marks : List (T × L)) (r : σ) :
    Prop where
  kept : conf r = conf s₀
  logs : out r = out s₀ ++ marks.map Prod.snd
  each : ∀ i, ∃ s t, Private flow conf out s₀ (own i ls) (own i marks) s t ∧
    Alone flow conf out s t r p.state (p.owner = some i) (p.phase i)
  free : p.owner = none → p.state = r

/-- A thread outside its sections gets on, and the lock stays as it is. -/
theorem Merged.outside {i : T} {k : κ} {es : List (C × A)} {w : Flow C A σ α}
    (h : Merged flow conf out s₀ ls p marks r) (hnot : p.owner ≠ some i)
    (hi : Private flow conf out s₀ (own i ls) (own i marks) s t) (hw : Writes conf out w)
    (hreach : (flow k).Reaches s es w t) :
    Merged flow conf out s₀ (ls ++ (settle k es w).2.map (Prod.mk i))
      { p with phase := Function.update p.phase i (settle k es w).1, trace := ms } marks r := by
  refine ⟨h.kept, h.logs, fun j ↦ ?_, h.free⟩
  by_cases hj : j = i
  · subst hj
    obtain ⟨s', hs', halone⟩ := hi.settle (r := r) (q := p.state) hnot hw hreach
    exact ⟨s', t, by simpa using hs', by simpa using halone⟩
  · simpa [hj, own_other hj] using h.each j

theorem Merged.begin {i : T} {k : κ} (hflow : Writes conf out (flow k))
    (h : Merged flow conf out s₀ ls p marks r) (hidle : p.phase i = .idle) :
    Merged flow conf out s₀ (ls ++ (settle k [] (flow k)).2.map (Prod.mk i))
      { p with phase := Function.update p.phase i (settle k [] (flow k)).1 } marks r := by
  obtain ⟨s, t, hi, halone⟩ := h.each i
  rw [hidle] at halone
  cases halone with
  | idle hnot heq =>
    subst heq
    exact h.outside hnot hi hflow .refl

omit [Inhabited A] in
theorem Merged.inside {i : T} {k : κ} {es : List (C × A)} {new : X → List L}
    {u u' : Flow C A σ Unit} {v : Flow C A σ α} (h : Merged flow conf out s₀ ls p marks r)
    (hothers : ∀ j, j ≠ i → p.owner ≠ some j)
    (hi : Private flow conf out s₀ (own i ls) (own i marks) s t) (hu : Appends conf out new u)
    (hv : Writes conf out v) (hreach : (flow k).Reaches s es (u.bind fun _ ↦ .release v) t)
    (hq : Quiet (fun x ↦ conf x = conf r ∧ out r <+: out x)
      (fun x ↦ out x = out r ++ new (conf r)) u' q) :
    Merged flow conf out s₀ (ls ++ (settle k es (u'.bind fun _ ↦ .release v)).2.map (Prod.mk i))
      ⟨q, some i, Function.update p.phase i (settle k es (u'.bind fun _ ↦ .release v)).1, ms⟩
        marks r := by
  rw [settle_releasing]
  refine ⟨h.kept, h.logs, fun j ↦ ?_, nofun⟩
  by_cases hj : j = i
  · subst hj
    exact ⟨s, t, by simpa using hi, by simpa using .inside trivial hu hv hreach hq⟩
  · obtain ⟨s', t', hs', halone⟩ := h.each j
    have hnot : some i ≠ some j := fun hij ↦ hj (Option.some.inj hij).symm
    exact ⟨s', t', by simpa using hs', by simpa [hj] using halone.elsewhere (hothers j hj) hnot⟩

theorem Merged.over {i : T} {k : κ} {es : List (C × A)} {new : X → List L} {u : Flow C A σ Unit}
    {v : Flow C A σ α} (h : Merged flow conf out s₀ ls p marks r) (howner : p.owner = some i)
    (hi : Private flow conf out s₀ (own i ls) (own i marks) s t) (hu : Appends conf out new u)
    (hv : Writes conf out v) (hreach : (flow k).Reaches s es (u.bind fun _ ↦ .release v) t)
    (hconf : conf q = conf r) (hout : out q = out r ++ new (conf r)) :
    Merged flow conf out s₀ (ls ++ (settle k es v).2.map (Prod.mk i))
      ⟨q, none, Function.update p.phase i (settle k es v).1, ms⟩
        (marks ++ (new (conf s₀)).map (Prod.mk i)) q := by
  rw [h.kept] at hout
  refine ⟨hconf.trans h.kept, by simp [hout, h.logs, Function.comp_def], fun j ↦ ?_, fun _ ↦ rfl⟩
  by_cases hj : j = i
  · subst hj
    -- Alone, the thread would have gone through the same section from the state that it would have
    -- been in.
    obtain ⟨-, t', ⟨hconf', -⟩, hout', hreach'⟩ := (hu t).reaches hreach
    rw [hi.kept, hi.logs, List.append_assoc] at hout'
    have hafter : Private flow conf out s₀ (own j ls) (own j marks ++ new (conf s₀)) s t' :=
      ⟨hi.run, hconf'.trans hi.kept, hout'⟩
    obtain ⟨s', hs', halone⟩ := hafter.settle (r := q) (q := q) not_false hv (.release hreach')
    exact ⟨s', t', by simpa using hs', by simpa using halone⟩
  · obtain ⟨s', t', hs', halone⟩ := h.each j
    have hnot : p.owner ≠ some j := fun hij ↦ hj (Option.some.inj (hij.symm.trans howner))
    exact ⟨s',
      t', by simpa [own_other hj] using hs', by simpa [hj] using halone.elsewhere hnot nofun⟩

theorem Merged.step {i : T} {k : κ} {es fs : List (C × A)} {w w' : Flow C A σ α} {o : Option T}
    (h : Merged flow conf out s₀ ls p marks r) (hbusy : p.phase i = .busy k es w)
    (hstep : Turns.Step i p.owner p.state w fs o q w') :
    ∃ marks' r', Merged flow conf out s₀ (ls ++ (settle k (es ++ fs) w').2.map (Prod.mk i))
      ⟨q, o, Function.update p.phase i (settle k (es ++ fs) w').1, p.trace ++ fs⟩ marks' r' := by
  obtain ⟨s, t, hi, halone⟩ := h.each i
  rw [hbusy] at halone
  have hfree := h.free
  obtain ⟨q₀, owner, phase, ms⟩ := p
  dsimp only at hstep halone hfree
  cases halone with
  | outside hnot hw hreach =>
    cases hw with
    | done => cases hstep
    | call hk =>
      cases hstep with
      | call a => exact ⟨_, _, h.outside hnot hi (hk a) (.call a hreach)⟩
    | write hu hnew hv =>
      cases hstep with
      | acquire =>
        obtain rfl := hfree rfl
        rw [List.append_nil]
        exact ⟨_, _, h.inside (fun j _ ↦ nofun) hi hnew hv (.acquire hreach) (hnew _)⟩
  | inside howner hu hv hreach hq =>
    subst howner
    have hothers : ∀ j, j ≠ i → some i ≠ some j := fun j hj hij ↦ hj (Option.some.inj hij).symm
    cases hq with
    | done hs hend =>
      cases hstep with
      | release =>
        rw [List.append_nil]
        exact ⟨_, _, h.over rfl hi hu hv hreach hs.1 hend⟩
    | state _ hk =>
      cases hstep with
      | state =>
        rw [List.append_nil]
        exact ⟨_, _, h.inside hothers hi hu hv hreach hk⟩
    | update _ hk =>
      cases hstep with
      | update =>
        rw [List.append_nil]
        exact ⟨_, _, h.inside hothers hi hu hv hreach hk⟩

/-- Where threads share only a log, each of them writes its lines as if it were alone. -/
theorem Merged.of_run (hflow : ∀ k, Writes conf out (flow k)) (h : Turns.Run flow s₀ ls p) :
    ∃ marks r, Merged flow conf out s₀ ls p marks r := by
  induction h with
  | start =>
    exact ⟨[], s₀, rfl, (List.append_nil _).symm,
      fun i ↦ ⟨s₀, s₀, ⟨⟨[], .start, rfl⟩, rfl, (List.append_nil _).symm⟩,
      .idle nofun rfl⟩, fun _ ↦ rfl⟩
  | begin i k _ hidle ih =>
    obtain ⟨marks, r, hm⟩ := ih
    exact ⟨marks, r, hm.begin (hflow k) hidle⟩
  | step _ hbusy hstep ih =>
    obtain ⟨marks, r, hm⟩ := ih
    exact hm.step hbusy hstep

omit [Inhabited A] in
theorem Merged.log (h : Merged flow conf out s₀ ls p marks r) :
    ∃ marks' : List (T × L), out p.state = out s₀ ++ marks'.map Prod.snd ∧
      ∀ i, p.phase i = .idle → own i marks' = own i marks := by
  cases howner : p.owner with
  | none => exact ⟨marks, by rw [h.free howner, h.logs], fun _ _ ↦ rfl⟩
  | some j =>
    obtain ⟨s, t, -, halone⟩ := h.each j
    cases hphase : p.phase j with
    | idle =>
      rw [hphase] at halone
      cases halone with
      | idle hnot => exact absurd howner hnot
    | busy k es w =>
      rw [hphase] at halone
      cases halone with
      | outside hnot => exact absurd howner hnot
      | inside _ _ _ _ hq =>
        obtain ⟨-, new, hnew⟩ := hq.here
        refine ⟨marks ++ new.map
          (Prod.mk j), by simp [← hnew, h.logs, Function.comp_def], fun i hidle ↦ ?_⟩
        have hij : i ≠ j := by
          rintro rfl
          rw [hidle] at hphase
          cases hphase
        simp [own_other hij]

end HrxSystem.Threads
