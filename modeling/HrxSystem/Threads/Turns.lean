import HrxSystem.External.Flows
import Mathlib.Data.List.Induction
import Mathlib.Logic.Function.Basic

namespace HrxSystem.Threads

open External Function

variable {T C A σ α β κ : Type}

/-- Where a thread is: between two calls, or in one, in which the calls `es` have been answered. -/
inductive Phase (C A σ α κ : Type)
  | idle
  | busy (k : κ) (es : List (C × A)) (w : Flow C A σ α)

def settle (k : κ) (es : List (C × A)) : Flow C A σ α → Phase C A σ α κ × List (Finished C A α κ)
  | .done a => (.idle, [⟨k, es, a⟩])
  | w => (.busy k es w, [])

@[simp] theorem settle_state (k : κ) (es : List (C × A)) (f : σ → Flow C A σ α) :
    settle k es (.state f) = (.busy k es (.state f), []) := rfl

@[simp] theorem settle_acquire (k : κ) (es : List (C × A)) (w : Flow C A σ α) :
    settle k es (.acquire w) = (.busy k es (.acquire w), []) := rfl

/-- Threads that share a state and one lock, and the requests they have made with the answers to
them. -/
structure Turns (T C A σ α κ : Type) where
  state : σ
  owner : Option T
  phase : T → Phase C A σ α κ
  trace : List (C × A)

namespace Turns

/-- One step of thread `i`. Who holds the lock waits for nobody, and who wants it waits until it is
free. -/
inductive Step (i : T) :
    Option T → σ → Flow C A σ α → List (C × A) → Option T → σ → Flow C A σ α → Prop
  | call {o : Option T} {s : σ} {c : C} {k : A → Flow C A σ α} (a : A) :
    Step i o s (.call c k) [(c, a)] o s (k a)
  | state {o : Option T} {s : σ} {k : σ → Flow C A σ α} : Step i o s (.state k) [] o s (k s)
  | update {o : Option T} {s : σ} {f : σ → σ} {k : Flow C A σ α} : Step i o s (.update f k)
      [] o (f s) k
  | acquire {s : σ} {k : Flow C A σ α} : Step i none s (.acquire k) [] (some i) s k
  | release {s : σ} {k : Flow C A σ α} : Step i (some i) s (.release k) [] none s k

variable [DecidableEq T]

/-- Threads make calls and take turns in any order. The calls that returned are listed with their
threads. -/
inductive Moves (flow : κ → Flow C A σ α) (ls₀ : List (T × Finished C A α κ))
    (p₀ : Turns T C A σ α κ) :
    List (T × Finished C A α κ) → Turns T C A σ α κ → Prop
  | start : Moves flow ls₀ p₀ ls₀ p₀
  | begin {ls : List (T × Finished C A α κ)} {p : Turns T C A σ α κ} (i : T) (k : κ) :
      Moves flow ls₀ p₀ ls p → p.phase i = .idle →
      Moves flow ls₀ p₀ (ls ++ (settle k [] (flow k)).2.map (Prod.mk i))
        { p with phase := update p.phase i (settle k [] (flow k)).1 }
  | step {ls : List (T × Finished C A α κ)} {p : Turns T C A σ α κ} {i : T} {k : κ}
      {es fs : List (C × A)}
      {w w' : Flow C A σ α} {o : Option T} {s : σ} :
      Moves flow ls₀ p₀ ls p → p.phase i = .busy k es w → Step i p.owner p.state w fs o s w' →
      Moves flow ls₀ p₀ (ls ++ (settle k (es ++ fs) w').2.map (Prod.mk i))
        ⟨s, o, update p.phase i (settle k (es ++ fs) w').1, p.trace ++ fs⟩

/-- What threads can come to that have made no calls yet. -/
abbrev Run (flow : κ → Flow C A σ α) (s₀ : σ) :
    List (T × Finished C A α κ) → Turns T C A σ α κ → Prop :=
  Moves flow [] ⟨s₀, none, fun _ ↦ .idle, []⟩

end Turns

inductive Unlocked : Flow C A σ α → Prop
  | done (a : α) : Unlocked (.done a)
  | call {c : C} {k : A → Flow C A σ α} : (∀ a, Unlocked (k a)) → Unlocked (.call c k)
  | state {k : σ → Flow C A σ α} : (∀ s, Unlocked (k s)) → Unlocked (.state k)
  | update {f : σ → σ} {k : Flow C A σ α} : Unlocked k → Unlocked (.update f k)

inductive Stateless : Flow C A σ α → Prop
  | done (a : α) : Stateless (.done a)
  | call {c : C} {k : A → Flow C A σ α} : (∀ a, Stateless (k a)) → Stateless (.call c k)

theorem Unlocked.bind {w : Flow C A σ α} {v : α → Flow C A σ β} (hw : Unlocked w)
    (hv : ∀ a, Unlocked (v a)) :
    Unlocked (w.bind v) := by
  induction hw with
  | done a => exact hv a
  | call _ ih => exact .call ih
  | state _ ih => exact .state ih
  | update _ ih => exact .update ih

instance : Closed (C := C) (A := A) (σ := σ) Unlocked := ⟨.done, .call, .bind⟩

theorem Stateless.bind {w : Flow C A σ α} {v : α → Flow C A σ β} (hw : Stateless w)
    (hv : ∀ a, Stateless (v a)) :
    Stateless (w.bind v) := by
  induction hw with
  | done a => exact hv a
  | call _ ih => exact .call ih

instance : Closed (C := C) (A := A) (σ := σ) Stateless := ⟨.done, .call, .bind⟩

namespace Unlocked

def stateCut {k : σ → Program C A σ β} (v : ∀ s, Cut Unlocked (k s)) :
    Cut Unlocked (Program.state >>= k) where
  flow := .state fun s ↦ (v s).flow
  fits := .state fun s ↦ (v s).fits
  program := congrArg (Program.state >>= ·) (funext fun s ↦ (v s).program)

def updateCut (f : σ → σ) : Cut Unlocked (Program.update f : Program C A σ Unit) where
  flow := .update f (.done ())
  fits := .update (.done ())
  program := rfl

end Unlocked

def unlocking (w : Flow C A σ α) : Flow C A σ α := w.bind fun a ↦ .release (.done a)

/-- A flow that takes the lock first and gives it back last. -/
inductive Bracketed : Flow C A σ α → Prop
  | mk {w : Flow C A σ α} : Unlocked w → Bracketed (.acquire (unlocking w))

theorem settle_releasing (k : κ) (es : List (C × A)) (w : Flow C A σ β) (v : β → Flow C A σ α) :
    settle k es (w.bind fun b ↦ .release (v b)) =
      (.busy k es (w.bind fun b ↦ .release (v b)), []) := by cases w <;> rfl

theorem Bracketed.settle {w : Flow C A σ α} (h : Bracketed w) (k : κ) :
    settle k [] w = (.busy k [] w, []) := by
  cases h
  rfl

theorem settle_cases (k : κ) (es : List (C × A)) (w : Flow C A σ α) :
    (∃ a, w = .done a ∧ settle k es w = (.idle, [⟨k, es, a⟩])) ∨
      settle k es w = (.busy k es w, []) := by
  cases w with
  | done a => exact .inl ⟨a, rfl, rfl⟩
  | _ => exact .inr rfl

section Solo

namespace Turns

inductive Steps (i : T) :
    Option T → σ → Flow C A σ α → List (C × A) → Option T → σ → Flow C A σ α → Prop
  | refl {o : Option T} {s : σ} {w : Flow C A σ α} : Steps i o s w [] o s w
  | head {o o' o'' : Option T} {s s' s'' : σ} {w w' w'' : Flow C A σ α} {fs gs : List (C × A)} :
      Step i o s w fs o' s' w' → Steps i o' s' w' gs o'' s'' w'' →
      Steps i o s w (fs ++ gs) o'' s'' w''

theorem Steps.trans {i : T} {o o' o'' : Option T} {s s' s'' : σ} {w w' w'' : Flow C A σ α}
    {fs gs : List (C × A)} (h : Steps i o s w fs o' s' w') (h' : Steps i o' s' w' gs o'' s'' w'') :
    Steps i o s w (fs ++ gs) o'' s'' w'' := by
  induction h with
  | refl => exact h'
  | head hstep _ ih =>
    rw [List.append_assoc]
    exact .head hstep (ih h')

end Turns

/-- A flow that takes the lock where it does not hold it, and gives it back before it ends. -/
inductive Orderly : Bool → Flow C A σ α → Prop
  | done (a : α) : Orderly false (.done a)
  | call {b : Bool} {c : C} {k : A → Flow C A σ α} : (∀ a, Orderly b (k a)) → Orderly b (.call c k)
  | state {b : Bool} {k : σ → Flow C A σ α} : (∀ s, Orderly b (k s)) → Orderly b (.state k)
  | update {b : Bool} {f : σ → σ} {k : Flow C A σ α} : Orderly b k → Orderly b (.update f k)
  | acquire {k : Flow C A σ α} : Orderly true k → Orderly false (.acquire k)
  | release {k : Flow C A σ α} : Orderly false k → Orderly true (.release k)

theorem Unlocked.orderly {b : Bool} {w : Flow C A σ α} {v : α → Flow C A σ β} (hw : Unlocked w)
    (hv : ∀ a, Orderly b (v a)) : Orderly b (w.bind v) := by
  induction hw with
  | done a => exact hv a
  | call _ ih => exact .call ih
  | state _ ih => exact .state ih
  | update _ ih => exact .update ih

theorem Stateless.orderly {w : Flow C A σ α} (hw : Stateless w) : Orderly false w := by
  induction hw with
  | done a => exact .done a
  | call _ ih => exact .call ih

theorem Bracketed.orderly {w : Flow C A σ α} (hw : Bracketed w) : Orderly false w := by
  obtain ⟨hw⟩ := hw
  exact .acquire (hw.orderly fun a ↦ .release (.done a))

/-- A thread that has the lock, or finds it free, comes to the end of its flow, as its program
does. -/
theorem Orderly.steps {b : Bool} {w : Flow C A σ α} (hw : Orderly b w) (i : T) (o : Oracle C A)
    (n : ℕ) (s : σ) :
    Turns.Steps i (if b then some i else none) s w (exchanged (w.program.run o n s).events) none
      (w.program.run o n s).state (.done (w.program.run o n s).val) := by
  induction hw generalizing n s with
  | done a => exact .refl
  | call _ ih => exact .head (.call _) (ih _ _ _)
  | state _ ih => exact .head .state (ih _ _ _)
  | update _ ih => exact .head .update (ih _ _)
  | acquire _ ih => exact .head .acquire (ih _ _)
  | release _ ih => exact .head .release (ih _ _)

variable [DecidableEq T] {flow : κ → Flow C A σ α} {s₀ : σ} {ls : List (T × Finished C A α κ)}

def Answered (o : Oracle C A) (t es : List (C × A)) : Prop :=
  ∀ e ∈ placed t.length es, o e.pos e.call = e.answer

theorem Answered.append {o : Oracle C A} {t es fs : List (C × A)} (h : Answered o t es)
    (h' : Answered o (t ++ es) fs) :
    Answered o t (es ++ fs) := by
  intro e he
  rw [placed_append] at he
  obtain he | he := List.mem_append.mp he
  · exact h e he
  · rw [← List.length_append] at he
    exact h' e he

theorem Answered.of_run {o : Oracle C A} (t : List (C × A)) (m : Program C A σ α) (s : σ) :
    Answered o t (exchanged (m.run o t.length s).events) := by
  intro e he
  rw [placed_exchanged (m.ordered o t.length s)] at he
  exact (m.answered o t.length s e he).symm

namespace Turns.Moves

variable {ls₀ ls' : List (T × Finished C A α κ)} {p₀ p p' : Turns T C A σ α κ}

theorem trans (h : Moves flow ls₀ p₀ ls p) (h' : Moves flow ls p ls' p') :
    Moves flow ls₀ p₀ ls' p' := by
  induction h' with
  | start => exact h
  | begin i k _ hidle ih => exact ih.begin i k hidle
  | step _ hbusy hstep ih => exact ih.step hbusy hstep

/-- A thread that goes on by itself to the end of its call. -/
theorem steps {i : T} {k : κ} {es gs : List (C × A)} {w : Flow C A σ α} {o o' : Option T} {s s' : σ}
    {a : α} {f : T → Phase C A σ α κ} {t : List (C × A)}
    (hsteps : Turns.Steps i o s w gs o' s' (.done a))
    (h : Moves flow ls₀ p₀ (ls ++ (settle k es w).2.map (Prod.mk i))
      ⟨s, o, update f i (settle k es w).1, t⟩) :
    Moves flow ls₀ p₀ (ls ++ [(i, ⟨k, es ++ gs, a⟩)]) ⟨s', o', update f i .idle, t ++ gs⟩ := by
  generalize hend : Flow.done a = v at hsteps
  induction hsteps generalizing es t with
  | refl =>
    subst hend
    rwa [List.append_nil, List.append_nil]
  | @head o₁ o₂ o₃ s₁ s₂ s₃ w₁ w₂ w₃ fs gs hstep _ ih =>
    rw [← List.append_assoc, ← List.append_assoc]
    refine ih ?_ hend
    obtain ⟨b, rfl, -⟩ | hsettle := settle_cases k es w₁
    · cases hstep
    · rw [hsettle] at h
      have hphase : update f i (Phase.busy k es w₁) i = .busy k es w₁ := update_self ..
      have hnext := h.step hphase hstep
      simpa using hnext

theorem solo {s : σ} {f : T → Phase C A σ α κ} {t : List (C × A)}
    (h : Moves flow ls₀ p₀ ls ⟨s, none, f, t⟩) (i : T) (k : κ) (hidle : f i = .idle)
    (hk : Orderly false (flow k)) (o : Oracle C A) (n : ℕ) :
    Moves flow ls₀ p₀
      (ls ++ [(i,
        ⟨k, exchanged ((flow k).program.run o n s).events, ((flow k).program.run o n s).val⟩)])
      ⟨((flow k).program.run o n s).state, none, f,
        t ++ exchanged ((flow k).program.run o n s).events⟩ := by
  have hrun := steps (hk.steps i o n s) (h.begin i k hidle)
  rwa [List.nil_append, ← hidle, update_eq_self] at hrun

end Turns.Moves

namespace Turns.Run

/-- Calls that single threads can make in a row are the calls of some run. -/
theorem of_solo {R : σ → Prop} (hflow : ∀ k, Orderly false (flow k)) (hs : R s₀)
    (hls : ∀ x ∈ ls, ∀ s, R s → ∃ o n, R ((flow x.2.call).program.run o n s).state ∧
      x.2.answers = exchanged ((flow x.2.call).program.run o n s).events ∧
      x.2.val = ((flow x.2.call).program.run o n s).val) :
    ∃ s t, R s ∧ Turns.Run flow s₀ ls ⟨s, none, fun _ ↦ .idle, t⟩ := by
  induction ls using List.reverseRecOn with
  | nil => exact ⟨s₀, _, hs, .start⟩
  | append_singleton ls x ih =>
    obtain ⟨s, t, hR, hrun⟩ := ih fun y hy ↦ hls y (List.mem_append_left _ hy)
    obtain ⟨o, n, hR', hanswers, hval⟩ :=
      hls x (List.mem_append_right _ (List.mem_singleton_self x)) s hR
    obtain ⟨i, k, es, a⟩ := x
    dsimp only at hR' hanswers hval
    subst hanswers hval
    exact ⟨_, _, hR', hrun.solo i k rfl (hflow k) o n⟩

end Turns.Run

/-- What is known of a thread that has the lock if `holds`. -/
inductive InPlace (holds : Prop) : Phase C A σ α κ → Prop
  | idle : ¬ holds → InPlace holds .idle
  | busy {b : Bool} {k : κ} {es : List (C × A)} {w : Flow C A σ α} : (b = true ↔ holds) →
      Orderly b w →
      settle k es w = (.busy k es w, []) → InPlace holds (.busy k es w)

theorem Orderly.inPlace {b : Bool} {w : Flow C A σ α} {holds : Prop} (hw : Orderly b w)
    (hb : b = true ↔ holds) (k : κ) (es : List (C × A)) : InPlace holds (settle k es w).1 := by
  obtain ⟨a, rfl, hsettle⟩ | hsettle := settle_cases k es w
  · rw [hsettle]
    cases hw with
    | done => exact .idle fun h ↦ Bool.false_ne_true (hb.mpr h)
  · rw [hsettle]
    exact .busy hb hw hsettle

omit [DecidableEq T] in
theorem Orderly.next {b : Bool} {i : T} {w w' : Flow C A σ α} {o o' : Option T} {s s' : σ}
    {fs : List (C × A)} (hw : Orderly b w) (hb : b = true ↔ o = some i)
    (hstep : Turns.Step i o s w fs o' s' w') :
    (∃ b', Orderly b' w' ∧ (b' = true ↔ o' = some i)) ∧ ∀ j, j ≠ i →
      (o' = some j ↔ o = some j) := by
  cases hstep with
  | call a =>
    cases hw with
    | call hk => exact ⟨⟨b, hk a, hb⟩, fun _ _ ↦ Iff.rfl⟩
  | state =>
    cases hw with
    | state hk => exact ⟨⟨b, hk s, hb⟩, fun _ _ ↦ Iff.rfl⟩
  | update =>
    cases hw with
    | update hk => exact ⟨⟨b, hk, hb⟩, fun _ _ ↦ Iff.rfl⟩
  | acquire =>
    cases hw with
    | acquire hk => exact ⟨⟨true, hk, by simp⟩, fun j hj ↦ by simp [hj.symm]⟩
  | release =>
    cases hw with
    | release hk => exact ⟨⟨false, hk, by simp⟩, fun j hj ↦ by simp [hj.symm]⟩

namespace Turns.Run

variable {p : Turns T C A σ α κ}

theorem inPlace (hflow : ∀ k, Orderly false (flow k)) (h : Turns.Run flow s₀ ls p) :
    ∀ i, InPlace (p.owner = some i) (p.phase i) := by
  induction h with
  | start => exact fun i ↦ .idle nofun
  | @begin ls p i k _ hidle ih =>
    intro j
    by_cases hj : j = i
    · subst hj
      have hnot := ih j
      rw [hidle] at hnot
      cases hnot with
      | idle hnot => simpa using (hflow k).inPlace (by simpa using hnot) k []
    · simpa [hj] using ih j
  | @step ls p i k es fs w w' o s _ hbusy hstep ih =>
    have hi := ih i
    rw [hbusy] at hi
    cases hi with
    | busy hb hw _ =>
      obtain ⟨⟨b', hw', hb'⟩, hothers⟩ := hw.next hb hstep
      intro j
      by_cases hj : j = i
      · subst hj
        simpa using hw'.inPlace hb' k (es ++ fs)
      · simpa [hj, hothers j hj] using ih j

/-- A thread that has the lock, or finds it free, can return, whatever the world answers. -/
theorem finish (ls : List (T × Finished C A α κ)) {i : T} {k : κ} {es : List (C × A)}
    {w : Flow C A σ α} {b : Bool} (hbusy : p.phase i = .busy k es w)
    (hsettle : settle k es w = (.busy k es w, [])) (hw : Orderly b w)
    (howner : p.owner = if b then some i else none) (o : Oracle C A) :
    ∃ fs a s, Moves flow ls p (ls ++ [(i, ⟨k, es ++ fs, a⟩)])
      ⟨s, none, update p.phase i .idle, p.trace ++ fs⟩ ∧
      Answered o p.trace fs := by
  obtain ⟨s, owner, f, t⟩ := p
  dsimp only at hbusy howner ⊢
  subst howner
  have hphase : update f i (settle k es w).1 = f := by rw [hsettle, ← hbusy, update_eq_self]
  have hbegun :
      Moves flow ls ⟨s, if b then some i else none, f, t⟩ (ls ++ (settle k es w).2.map (Prod.mk i))
      ⟨s, if b then some i else none, update f i (settle k es w).1, t⟩ := by
    rw [hphase, hsettle, List.map_nil, List.append_nil]
    exact .start
  exact ⟨_, _, _, hbegun.steps (hw.steps i o t.length s), .of_run t w.program s⟩

/-- No call waits for ever, if the world answers: from where they are, and whatever the answers, the
threads can go on until any call that has begun returns, after the one that has the lock. -/
theorem returns {i : T} {k : κ} {es : List (C × A)} {w : Flow C A σ α}
    (hflow : ∀ k, Orderly false (flow k)) (h : Turns.Run flow s₀ ls p)
    (hbusy : p.phase i = .busy k es w) (o : Oracle C A) :
    ∃ ms fs gs a p', Moves flow ls p (ls ++ ms ++ [(i, ⟨k, es ++ fs, a⟩)]) p' ∧
      p'.trace = p.trace ++ gs ∧
      Answered o p.trace gs ∧ ∀ x ∈ ms, p.owner = some x.1 := by
  have hi := h.inPlace hflow i
  rw [hbusy] at hi
  cases hi with
  | @busy b _ _ _ hb hw hsettle =>
    have hfinish : p.owner = (if b then some i else none) →
        ∃ ms fs gs a p', Moves flow ls p (ls ++ ms ++ [(i, ⟨k, es ++ fs, a⟩)]) p' ∧
        p'.trace = p.trace ++ gs ∧
          Answered o p.trace gs ∧ ∀ x ∈ ms, p.owner = some x.1 := by
      intro howner
      obtain ⟨fs, a, s, hrun, hanswers⟩ := finish ls hbusy hsettle hw howner o
      exact ⟨[], fs, fs, a, _, by simpa using hrun, rfl, hanswers, by simp⟩
    cases howner : p.owner with
    | none =>
      obtain rfl : b = false := by simpa [howner] using hb
      simpa [howner] using hfinish howner
    | some j =>
      by_cases hj : j = i
      · subst hj
        obtain rfl : b = true := hb.mpr howner
        simpa [howner] using hfinish howner
      · -- The owner returns first.
        obtain rfl : b = false := by simpa [howner, hj] using hb
        have hown := h.inPlace hflow j
        cases hx : p.phase j with
        | idle =>
          rw [hx] at hown
          cases hown with
          | idle hnot => exact absurd howner hnot
        | busy k' es' w' =>
          rw [hx] at hown
          cases hown with
          | @busy c _ _ _ hc hw' hsettle' =>
            obtain rfl : c = true := hc.mpr howner
            obtain ⟨fs', a', s', hrun', hanswers'⟩ := finish ls hx hsettle' hw' howner o
            have hwaits : update p.phase j .idle i = .busy k es w := by
              rw [update_of_ne (Ne.symm hj), hbusy]
            obtain ⟨fs, a, s, hrun, hanswers⟩ :=
              finish (p := ⟨s', none, update p.phase j .idle, p.trace ++ fs'⟩)
              (ls ++ [(j, ⟨k', es' ++ fs', a'⟩)]) hwaits hsettle hw rfl o
            refine ⟨_, fs, fs' ++ fs, a, _, hrun'.trans hrun, List.append_assoc ..,
              hanswers'.append hanswers, ?_⟩
            simp

end Turns.Run

end Solo

section Atomic

/-- What is known of a thread, where the calls that are over have led to state `s` and the shared
state is `t`. -/
inductive Fits (flow : κ → Flow C A σ α) (s t : σ) (holds : Prop) : Phase C A σ α κ → Prop
  | idle : ¬ holds → Fits flow s t holds .idle
  | waiting {k : κ} {w : Flow C A σ α} : ¬ holds → flow k = w → Bracketed w →
      Fits flow s t holds (.busy k [] w)
  | aside {k : κ} {es : List (C × A)} {w : Flow C A σ α} : ¬ holds → Stateless w →
      (∀ r, (flow k).Reaches r es w r) →
      Fits flow s t holds (.busy k es w)
  | holding {k : κ} {es : List (C × A)} {w : Flow C A σ α} : holds → Unlocked w →
      (flow k).Reaches s es (unlocking w) t →
      Fits flow s t holds (.busy k es (unlocking w))

variable {flow : κ → Flow C A σ α} {s s' s₀ t t' : σ} {holds holds' : Prop} {x : Phase C A σ α κ}

/-- Who does not hold the lock does not notice what becomes of the state. -/
theorem Fits.elsewhere (h : Fits flow s t holds x) (hnot : ¬ holds) (hnot' : ¬ holds') :
    Fits flow s' t' holds' x := by
  cases h with
  | idle => exact .idle hnot'
  | waiting _ hflow hw => exact .waiting hnot' hflow hw
  | aside _ hw hreach => exact .aside hnot' hw hreach
  | holding hholds => exact absurd hholds hnot

variable [DecidableEq T] [Inhabited A] {ls : List (T × Finished C A α κ)} {p : Turns T C A σ α κ}
  {ms : List (C × A)}

/-- The calls that have returned are a run, one call after the other, and only who holds the lock
has got further. -/
structure Sequential (flow : κ → Flow C A σ α) (s₀ : σ) (ls : List (T × Finished C A α κ))
    (p : Turns T C A σ α κ) (s : σ) : Prop where
  run : ∃ l, Runs (fun k ↦ (flow k).program) (fun _ _ _ _ ↦ True) s₀ s l ∧
    l.map Entry.finished = ls.map Prod.snd
  fits : ∀ i, Fits flow s p.state (p.owner = some i) (p.phase i)
  free : p.owner = none → p.state = s

theorem Sequential.aside {i : T} {k : κ} {es : List (C × A)} {w : Flow C A σ α}
    (h : Sequential flow s₀ ls p s) (hnot : p.owner ≠ some i) (hw : Stateless w)
    (hreach : ∀ r, (flow k).Reaches r es w r) :
    Sequential flow s₀ (ls ++ (settle k es w).2.map (Prod.mk i))
      { p with phase := Function.update p.phase i (settle k es w).1, trace := ms } s := by
  obtain ⟨l, hl, hls⟩ := h.run
  obtain ⟨a, rfl, hsettle⟩ | hsettle := settle_cases k es w
  · rw [hsettle]
    obtain ⟨l', hl', hls'⟩ := hl.flow (hreach s)
    refine ⟨⟨l', hl', by rw [hls', hls, List.map_append]; rfl⟩, fun j ↦ ?_, h.free⟩
    by_cases hj : j = i
    · subst hj
      simpa using .idle hnot
    · simpa [hj] using h.fits j
  · rw [hsettle]
    refine ⟨⟨l, hl, by simpa using hls⟩, fun j ↦ ?_, h.free⟩
    by_cases hj : j = i
    · subst hj
      simpa using .aside hnot hw hreach
    · simpa [hj] using h.fits j

theorem Sequential.begin {i : T} {k : κ} (hflow : Bracketed (flow k) ∨ Stateless (flow k))
    (h : Sequential flow s₀ ls p s) (hidle : p.phase i = .idle) :
    Sequential flow s₀ (ls ++ (settle k [] (flow k)).2.map (Prod.mk i))
      { p with phase := Function.update p.phase i (settle k [] (flow k)).1 } s := by
  have hnot : p.owner ≠ some i := by
    have hfits := h.fits i
    rw [hidle] at hfits
    cases hfits with
    | idle hnot => exact hnot
  obtain hw | hw := hflow
  · rw [hw.settle]
    refine ⟨by simpa using h.run, fun j ↦ ?_, h.free⟩
    by_cases hj : j = i
    · subst hj
      simpa using .waiting hnot rfl hw
    · simpa [hj] using h.fits j
  · exact h.aside hnot hw fun _ ↦ .refl

omit [Inhabited A] in
theorem Sequential.inside {i : T} {k : κ} {es : List (C × A)} {w : Flow C A σ α}
    (h : Sequential flow s₀ ls p s) (hnot : ∀ j, j ≠ i → p.owner ≠ some j) (hw : Unlocked w)
    (hreach : (flow k).Reaches s es (unlocking w) t) :
    Sequential flow s₀ (ls ++ (settle k es (unlocking w)).2.map (Prod.mk i))
      ⟨t, some i, Function.update p.phase i (settle k es (unlocking w)).1, ms⟩ s := by
  rw [unlocking, settle_releasing]
  refine ⟨by simpa using h.run, fun j ↦ ?_, fun hnone ↦ by cases hnone⟩
  by_cases hj : j = i
  · subst hj
    simpa using .holding trivial hw hreach
  · simpa [hj] using (h.fits j).elsewhere (hnot j hj) fun hij ↦ hj (Option.some.inj hij).symm

theorem Sequential.over {i : T} {k : κ} {es : List (C × A)} {a : α} (h : Sequential flow s₀ ls p s)
    (howner : p.owner = some i) (hreach : (flow k).Reaches s es (.done a) p.state) :
    Sequential flow s₀ (ls ++ (settle k es (.done a : Flow C A σ α)).2.map (Prod.mk i))
      ⟨p.state, none, Function.update p.phase i (settle k es (.done a : Flow C A σ α)).1, ms⟩
        p.state := by
  obtain ⟨l, hl, hls⟩ := h.run
  obtain ⟨l', hl', hls'⟩ := hl.flow hreach
  refine ⟨⟨l', hl', by rw [hls', hls, List.map_append]; rfl⟩, fun j ↦ ?_, fun _ ↦ rfl⟩
  by_cases hj : j = i
  · subst hj
    simpa [settle] using .idle nofun
  · have hnot : p.owner ≠ some j := fun hij ↦ hj (Option.some.inj (hij.symm.trans howner))
    simpa [hj] using (h.fits j).elsewhere hnot nofun

theorem Sequential.step {i : T} {k : κ} {es fs : List (C × A)} {w w' : Flow C A σ α} {o : Option T}
    (h : Sequential flow s₀ ls p s) (hbusy : p.phase i = .busy k es w)
    (hstep : Turns.Step i p.owner p.state w fs o t w') :
    ∃ s', Sequential flow s₀ (ls ++ (settle k (es ++ fs) w').2.map (Prod.mk i))
      ⟨t, o, Function.update p.phase i (settle k (es ++ fs) w').1, p.trace ++ fs⟩ s' := by
  have hfits := h.fits i
  rw [hbusy] at hfits
  obtain ⟨r, owner, phase, ms⟩ := p
  dsimp only at hstep hfits
  cases hfits with
  | waiting hnot hflow hw =>
    obtain ⟨hw⟩ := hw
    cases hstep with
    | acquire =>
      have hrefl : (flow k).Reaches s [] (flow k) s := .refl
      refine ⟨s, h.inside (fun j _ ↦ nofun) hw ?_⟩
      obtain rfl := h.free rfl
      rw [hflow] at hrefl ⊢
      exact .acquire hrefl
  | aside hnot hw hreach =>
    cases hw with
    | done => cases hstep
    | call hk =>
      cases hstep with
      | call a => exact ⟨s, h.aside hnot (hk a) fun r ↦ .call a (hreach r)⟩
  | holding howner hw hreach =>
    subst howner
    have hnot : ∀ j, j ≠ i → some i ≠ some j := fun j hj hij ↦ hj (Option.some.inj hij).symm
    cases hw with
    | done a =>
      cases hstep with
      | release =>
        rw [List.append_nil]
        exact ⟨_, h.over rfl (.release hreach)⟩
    | call hk =>
      cases hstep with
      | call a => exact ⟨s, h.inside hnot (hk a) (.call a hreach)⟩
    | state hk =>
      cases hstep with
      | state =>
        rw [List.append_nil]
        exact ⟨s, h.inside hnot (hk _) (.state hreach)⟩
    | update hk =>
      cases hstep with
      | update =>
        rw [List.append_nil]
        exact ⟨s, h.inside hnot hk (.update hreach)⟩

/-- Where each call takes the lock first and gives it back last, or never touches the state, threads
do what one thread does that makes their calls one after the other, in the order in which they
return. -/
theorem Sequential.of_run (hflow : ∀ k, Bracketed (flow k) ∨ Stateless (flow k))
    (h : Turns.Run flow s₀ ls p) :
    ∃ s, Sequential flow s₀ ls p s := by
  induction h with
  | start => exact ⟨s₀, ⟨[], .start, rfl⟩, fun _ ↦ .idle nofun, fun _ ↦ rfl⟩
  | begin i k _ hidle ih =>
    obtain ⟨s, hs⟩ := ih
    exact ⟨s, hs.begin (hflow k) hidle⟩
  | step _ hbusy hstep ih =>
    obtain ⟨s, hs⟩ := ih
    exact hs.step hbusy hstep

end Atomic

end HrxSystem.Threads
