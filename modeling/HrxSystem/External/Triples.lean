import HrxSystem.External.Program

namespace HrxSystem.External.Program

variable {C A σ τ α β : Type}

/-- Whenever a program starts with `P` of what was logged before and of its state, it ends with `Q`,
as far as the outside is one of `ok`. -/
def Triple (ok : Oracle C A → Prop) (P : List (Event C A) → σ → Prop) (m : Program C A σ α)
    (Q : α → List (Event C A) → σ → Prop) : Prop :=
  ∀ o t s, ok o → P t s →
    Q (m.run o t.length s).val (t ++ (m.run o t.length s).events) (m.run o t.length s).state

namespace Triple

variable {ok : Oracle C A → Prop} {P P' : List (Event C A) → σ → Prop}
variable {Q Q' : α → List (Event C A) → σ → Prop} {R : β → List (Event C A) → σ → Prop}
variable {m m' : Program C A σ α} {k : α → Program C A σ β}

theorem pure {a : α} (h : ∀ t s, P t s → Q a t s) : Triple ok P (Pure.pure a) Q := by
  intro o t s _ hP
  simpa using h t s hP

theorem bind (hm : Triple ok P m Q) (hk : ∀ a, Triple ok (Q a) (k a) R) :
    Triple ok P (m >>= k) R := by
  intro o t s ho hP
  have h := hk _ o _ _ ho (hm o t s ho hP)
  rw [List.length_append] at h
  simpa only [run_bind, Outcome.after_val, Outcome.after_state, Outcome.after_events,
    List.append_assoc] using h

theorem call {c : C} {Q : Event C A → List (Event C A) → σ → Prop}
    (h : ∀ e t s, P t s → e.pos = t.length → e.call = c → Q e (t ++ [e]) s) :
    Triple ok P (Program.call c) Q := by
  intro o t s _ hP
  exact h _ t s hP rfl rfl

theorem state {Q : σ → List (Event C A) → σ → Prop} (h : ∀ t s, P t s → Q s t s) :
    Triple ok P Program.state Q := by
  intro o t s _ hP
  simpa using h t s hP

theorem update {f : σ → σ} {Q : Unit → List (Event C A) → σ → Prop}
    (h : ∀ t s, P t s → Q () t (f s)) :
    Triple ok P (Program.update f) Q := by
  intro o t s _ hP
  simpa using h t s hP

theorem ite {c : Prop} [Decidable c] (hm : c → Triple ok P m Q) (hm' : ¬ c → Triple ok P m' Q) :
    Triple ok P (if c then m else m') Q := by
  split
  · exact hm ‹_›
  · exact hm' ‹_›

theorem focus {x : τ} {put : τ → σ → σ} {m : Program C A τ α}
    (hm : ∀ s, Triple ok (fun t y ↦ y = x ∧ P t s) m (fun a t y ↦ Q a t (put y s))) :
    Triple ok P (Program.focus x put m) Q := by
  intro o t s ho hP
  exact hm s o t x ho ⟨rfl, hP⟩

theorem mono (hm : Triple ok P m Q) (hP : ∀ t s, P' t s → P t s)
    (hQ : ∀ a t s, Q a t s → Q' a t s) :
    Triple ok P' m Q' := fun o t s ho h ↦ hQ _ _ _ (hm o t s ho (hP t s h))

theorem assume {p : Prop} (hm : p → Triple ok P m Q) : Triple ok (fun t s ↦ p ∧ P t s) m Q :=
  fun o t s ho h ↦ hm h.1 o t s ho h.2

theorem of_exists {ι : Type} {P : ι → List (Event C A) → σ → Prop} (hm : ∀ i, Triple ok (P i) m Q) :
    Triple ok (fun t s ↦ ∃ i, P i t s) m Q := by
  rintro o t s ho ⟨i, hP⟩
  exact hm i o t s ho hP

/-- What single events that satisfy `p` keep, as long as the part `f` of the state stays, a program
keeps that leaves this part alone and makes only such calls. -/
theorem of_confined {f : σ → τ} {p : C → Prop} {I : List (Event C A) → τ → Prop}
    (hm : Confined f p m) (hI : ∀ t e x, I t x → e.pos = t.length → p e.call → I (t ++ [e]) x) :
    Triple ok (fun t s ↦ I t (f s)) m (fun _ t s ↦ I t (f s)) := by
  intro o t s _ hP
  obtain ⟨hstate, hcalls⟩ := hm o t.length s
  have hpos := m.ordered o t.length s
  rw [hstate]
  clear hstate
  generalize (m.run o t.length s).events = es at hcalls hpos ⊢
  induction es generalizing t with
  | nil => simpa using hP
  | cons e es ih =>
    simp only [List.map_cons, List.length_cons, List.range'_succ, List.cons.injEq] at hpos
    have h := ih (t ++ [e]) (hI t e _ hP hpos.1 (hcalls e (by simp)))
      (fun e' he' ↦ hcalls e' (by simp [he'])) (by simpa using hpos.2)
    simpa using h

end Triple

/-- A program that does the same, and leaves the same, when the state was changed by `f` before. -/
def Indifferent (f : σ → σ) (m : Program C A σ α) : Prop :=
  ∀ o n s, m.run o n (f s) = ⟨(m.run o n s).val, f (m.run o n s).state, (m.run o n s).events⟩

namespace Indifferent

variable {f : σ → σ} {m : Program C A σ α} {k : α → Program C A σ β}

theorem pure (a : α) : Indifferent f (Pure.pure a : Program C A σ α) := fun _ _ _ ↦ rfl

theorem call (c : C) : Indifferent f (Program.call c : Program C A σ _) := fun _ _ _ ↦ rfl

theorem bind (hm : Indifferent f m) (hk : ∀ a, Indifferent f (k a)) : Indifferent f (m >>= k) := by
  intro o n s
  rw [run_bind, hm o n s, run_bind]
  simp only [hk _ o _ _]
  rfl

theorem through {ok : Oracle C A → Prop} {P : List (Event C A) → σ → Prop}
    {Q : α → List (Event C A) → σ → Prop} (hf : Indifferent f m) (hm : Triple ok P m Q) :
    Triple ok (fun t s ↦ P t (f s)) m (fun a t s ↦ Q a t (f s)) := by
  intro o t s ho hP
  have hQ := hm o t (f s) ho hP
  rw [hf] at hQ
  exact hQ

end Indifferent

end HrxSystem.External.Program
