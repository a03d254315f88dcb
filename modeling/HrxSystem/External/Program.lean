import Mathlib.Algebra.BigOperators.Group.List.Basic
import Mathlib.Algebra.Ring.Int.Defs
import Mathlib.Data.List.Basic
import Mathlib.Data.List.Nodup

namespace HrxSystem.External

/-- A call that left the program, its place in the whole run, and the answer
it got. The place doubles as the identity of an object the call created. -/
structure Event (C A : Type) where
  pos : ℕ
  call : C
  answer : A
deriving DecidableEq

abbrev Oracle (C A : Type) := ℕ → C → A

def happens {C A : Type} (o : Oracle C A) (n : ℕ) (c : C) : Event C A := ⟨n, c, o n c⟩

@[simp] theorem happens_pos {C A : Type} (o : Oracle C A) (n : ℕ) (c : C) :
    (happens o n c).pos = n := rfl

@[simp] theorem happens_call {C A : Type} (o : Oracle C A) (n : ℕ) (c : C) :
    (happens o n c).call = c := rfl

structure Outcome (C A σ α : Type) where
  val : α
  state : σ
  events : List (Event C A)

/-- A program over a state `σ` that calls out. It is run from a place in the
trace, and every event it logs carries the next place in order and the answer
of the outside. -/
structure Program (C A σ α : Type) where
  run : Oracle C A → ℕ → σ → Outcome C A σ α
  ordered : ∀ o n s, (run o n s).events.map Event.pos = List.range' n (run o n s).events.length
  answered : ∀ o n s, ∀ e ∈ (run o n s).events, e.answer = o e.pos e.call

variable {C A σ τ α β : Type}

def Outcome.after (es : List (Event C A)) (r : Outcome C A σ α) : Outcome C A σ α :=
  ⟨r.val, r.state, es ++ r.events⟩

@[simp] theorem Outcome.after_val (es : List (Event C A)) (r : Outcome C A σ α) :
    (r.after es).val = r.val := rfl

@[simp] theorem Outcome.after_state (es : List (Event C A)) (r : Outcome C A σ α) :
    (r.after es).state = r.state := rfl

@[simp] theorem Outcome.after_events (es : List (Event C A)) (r : Outcome C A σ α) :
    (r.after es).events = es ++ r.events := rfl

@[simp] theorem Outcome.after_mk (es fs : List (Event C A)) (a : α) (s : σ) :
    Outcome.after es ⟨a, s, fs⟩ = ⟨a, s, es ++ fs⟩ := rfl

@[simp] theorem Outcome.after_nil (r : Outcome C A σ α) : r.after [] = r := rfl

@[simp] theorem Outcome.after_after (es fs : List (Event C A)) (r : Outcome C A σ α) :
    (r.after fs).after es = r.after (es ++ fs) := by
  simp [Outcome.after]

namespace Program

theorem ext_run {m m' : Program C A σ α} (h : ∀ o n s, m.run o n s = m'.run o n s) : m = m' := by
  obtain ⟨run, _, _⟩ := m
  obtain ⟨run', _, _⟩ := m'
  obtain rfl : run = run' := funext fun o ↦ funext fun n ↦ funext fun s ↦ h o n s
  rfl

def ret (a : α) : Program C A σ α where
  run _ _ s := ⟨a, s, []⟩
  ordered _ _ _ := rfl
  answered _ _ _ _ := nofun

def andThen (m : Program C A σ α) (f : α → Program C A σ β) : Program C A σ β where
  run o n s :=
    let r := m.run o n s
    ((f r.val).run o (n + r.events.length) r.state).after r.events
  ordered o n s := by
    simp only [Outcome.after_events, List.map_append, List.length_append, m.ordered, (f _).ordered,
      List.range'_append_1]
  answered o n s e he := (List.mem_append.mp he).elim (m.answered o n s e) ((f _).answered o _ _ e)

instance : Monad (Program C A σ) where
  pure := ret
  bind := andThen

def call (c : C) : Program C A σ (Event C A) where
  run o n s := ⟨happens o n c, s, [happens o n c]⟩
  ordered _ _ _ := rfl
  answered _ _ _ _ he := by rw [List.mem_singleton.mp he]; rfl

def state : Program C A σ σ where
  run _ _ s := ⟨s, s, []⟩
  ordered _ _ _ := rfl
  answered _ _ _ _ := nofun

def update (f : σ → σ) : Program C A σ Unit where
  run _ _ s := ⟨(), f s, []⟩
  ordered _ _ _ := rfl
  answered _ _ _ _ := nofun

/-- Run a program over a part `x` of the state and store the part it leaves. -/
def focus (x : σ) (put : σ → τ → τ) (m : Program C A σ α) : Program C A τ α where
  run o n s :=
    let r := m.run o n x
    ⟨r.val, put r.state s, r.events⟩
  ordered o n _ := m.ordered o n x
  answered o n _ := m.answered o n x

@[simp] theorem run_pure (a : α) (o : Oracle C A) (n : ℕ) (s : σ) :
    (pure a : Program C A σ α).run o n s = ⟨a, s, []⟩ := rfl

@[simp] theorem run_bind (m : Program C A σ α) (f : α → Program C A σ β)
    (o : Oracle C A) (n : ℕ) (s : σ) :
    (m >>= f).run o n s =
      ((f (m.run o n s).val).run o (n + (m.run o n s).events.length) (m.run o n s).state).after
        (m.run o n s).events := rfl

@[simp] theorem run_map (m : Program C A σ α) (f : α → β) (o : Oracle C A) (n : ℕ) (s : σ) :
    (f <$> m).run o n s =
      ⟨f (m.run o n s).val, (m.run o n s).state, (m.run o n s).events⟩ := by
  change (m >>= (pure ∘ f)).run o n s = _
  simp

@[simp] theorem run_call (c : C) (o : Oracle C A) (n : ℕ) (s : σ) :
    (call c : Program C A σ _).run o n s = ⟨happens o n c, s, [happens o n c]⟩ := rfl

@[simp] theorem run_state (o : Oracle C A) (n : ℕ) (s : σ) :
    (state : Program C A σ σ).run o n s = ⟨s, s, []⟩ := rfl

@[simp] theorem run_update (f : σ → σ) (o : Oracle C A) (n : ℕ) (s : σ) :
    (update f : Program C A σ Unit).run o n s = ⟨(), f s, []⟩ := rfl

@[simp] theorem run_focus (x : σ) (put : σ → τ → τ) (m : Program C A σ α)
    (o : Oracle C A) (n : ℕ) (s : τ) :
    (focus x put m).run o n s =
      ⟨(m.run o n x).val, put (m.run o n x).state s, (m.run o n x).events⟩ := rfl

@[simp] theorem run_ite (c : Prop) [Decidable c] (m m' : Program C A σ α)
    (o : Oracle C A) (n : ℕ) (s : σ) :
    (if c then m else m').run o n s = if c then m.run o n s else m'.run o n s := by
  split <;> rfl

/-- A program that leaves the part `f` of its state alone and makes only calls with `P`. -/
def Confined (f : σ → τ) (P : C → Prop) (m : Program C A σ α) : Prop :=
  ∀ o n s, f (m.run o n s).state = f s ∧ ∀ e ∈ (m.run o n s).events, P e.call

abbrev Aside (P : C → Prop) (m : Program C A σ α) : Prop := Confined id P m

namespace Confined

variable {f : σ → τ} {P : C → Prop} {m m' : Program C A σ α} {k : α → Program C A σ β}

theorem pure (a : α) : Confined f P (Pure.pure a : Program C A σ α) := by
  intro o n s
  simp

theorem call {c : C} (hc : P c) : Confined f P (Program.call c : Program C A σ _) := by
  intro o n s
  simp [hc]

theorem state : Confined f P (Program.state : Program C A σ σ) := by
  intro o n s
  simp

theorem update {g : σ → σ} (hg : ∀ s, f (g s) = f s) :
    Confined f P (Program.update g : Program C A σ Unit) := by
  intro o n s
  simp [hg]

theorem bind (hm : Confined f P m) (hk : ∀ a, Confined f P (k a)) : Confined f P (m >>= k) := by
  intro o n s
  obtain ⟨hs, he⟩ := hm o n s
  obtain ⟨hs', he'⟩ := hk (m.run o n s).val o (n + (m.run o n s).events.length) (m.run o n s).state
  refine ⟨by rw [run_bind, Outcome.after_state, hs', hs], ?_⟩
  intro e h
  rw [run_bind, Outcome.after_events, List.mem_append] at h
  exact h.elim (he e) (he' e)

theorem ite {c : Prop} [Decidable c] (hm : Confined f P m) (hm' : Confined f P m') :
    Confined f P (if c then m else m') := by
  split
  · exact hm
  · exact hm'

theorem calls {Q : C → Prop} (hm : Confined f P m) (hPQ : ∀ c, P c → Q c) :
    Confined (fun _ ↦ ()) Q m := fun o n s ↦ ⟨rfl, fun e he ↦ hPQ _ ((hm o n s).2 e he)⟩

end Confined

def Yields (P : α → Prop) (m : Program C A σ α) : Prop := ∀ o n s, P (m.run o n s).val

namespace Yields

variable {P : α → Prop} {m m' : Program C A σ α}

theorem pure {a : α} (h : P a) : Yields P (Pure.pure a : Program C A σ α) := fun _ _ _ ↦ h

theorem bind {m : Program C A σ β} {k : β → Program C A σ α} (hk : ∀ b, Yields P (k b)) :
    Yields P (m >>= k) :=
  fun o _ _ ↦ hk _ o _ _

theorem ite {c : Prop} [Decidable c] (hm : c → Yields P m) (hm' : ¬ c → Yields P m') :
    Yields P (if c then m else m') := by
  split
  · exact hm ‹_›
  · exact hm' ‹_›

end Yields

end Program

end HrxSystem.External
