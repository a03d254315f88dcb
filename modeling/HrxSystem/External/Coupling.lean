import HrxSystem.External.Program

namespace HrxSystem.External.Program

variable {C A σ α β γ δ : Type}

/-- Two programs, run against the same outside but from different places, keep
the relation `R` between what each has logged and reached, and return related
values. -/
def Couples (ok : Oracle C A → Prop) (R : List (Event C A) → σ → List (Event C A) → σ → Prop)
    (V : α → β → Prop) (m : Program C A σ α) (m' : Program C A σ β) : Prop :=
  ∀ o n n' t s t' s', ok o → R t s t' s' → V (m.run o n s).val (m'.run o n' s').val ∧
    R (t ++ (m.run o n s).events) (m.run o n s).state (t' ++ (m'.run o n' s').events)
      (m'.run o n' s').state

namespace Couples

variable {ok : Oracle C A → Prop} {R : List (Event C A) → σ → List (Event C A) → σ → Prop}
variable {V : α → β → Prop} {W : γ → δ → Prop}
variable {m m₁ : Program C A σ α} {m' m₁' : Program C A σ β}
variable {f : α → Program C A σ γ} {f' : β → Program C A σ δ}

theorem pure {a : α} {b : β} (h : V a b) :
    Couples ok R V (Pure.pure a : Program C A σ α) (Pure.pure b) := by
  intro o n n' t s t' s' _ hR
  simpa using ⟨h, hR⟩

theorem bind (hm : Couples ok R V m m') (hf : ∀ a b, V a b → Couples ok R W (f a) (f' b)) :
    Couples ok R W (m >>= f) (m' >>= f') := by
  intro o n n' t s t' s' ho hR
  obtain ⟨hV, hR'⟩ := hm o n n' t s t' s' ho hR
  have h := hf _ _ hV o (n + (m.run o n s).events.length) (n' + (m'.run o n' s').events.length)
    _ _ _ _ ho hR'
  simpa only [run_bind, Outcome.after_val, Outcome.after_state, Outcome.after_events,
    List.append_assoc] using h

theorem ite {c c' : Prop} [Decidable c] [Decidable c'] (hc : c ↔ c') (hm : Couples ok R V m m')
    (hm₁ : Couples ok R V m₁ m₁') :
    Couples ok R V (if c then m else m₁) (if c' then m' else m₁') := by
  by_cases h : c
  · simpa only [h, hc.mp h, if_true] using hm
  · simpa only [h, hc.not.mp h, if_false] using hm₁

theorem mono {V' : α → β → Prop} (hm : Couples ok R V m m') (hV : ∀ a b, V a b → V' a b) :
    Couples ok R V' m m' := by
  intro o n n' t s t' s' ho hR
  obtain ⟨hv, hR'⟩ := hm o n n' t s t' s' ho hR
  exact ⟨hV _ _ hv, hR'⟩

theorem state {V : σ → σ → Prop} (hV : ∀ t s t' s', R t s t' s' → V s s') :
    Couples ok R V (Program.state : Program C A σ σ) Program.state := by
  intro o n n' t s t' s' _ hR
  simpa using ⟨hV _ _ _ _ hR, hR⟩

end Couples

end HrxSystem.External.Program
