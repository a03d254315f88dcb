import HrxSystem.External.Program

namespace HrxSystem.External

variable {C A σ α κ : Type}

/-- A sequence of small transitions, each with the events it logs, read from
place `n` of the trace on. -/
inductive Chain (R : ℕ → σ → List (Event C A) → σ → Prop) :
    ℕ → σ → List (Event C A) → σ → Prop
  | nil (n : ℕ) (s : σ) : Chain R n s [] s
  | cons {n : ℕ} {s s' s'' : σ} {es fs : List (Event C A)} :
      R n s es s' → Chain R (n + es.length) s' fs s'' → Chain R n s (es ++ fs) s''

namespace Chain

variable {R : ℕ → σ → List (Event C A) → σ → Prop} {n : ℕ} {s s' s'' : σ}
variable {es fs : List (Event C A)}

theorem one (h : R n s es s') : Chain R n s es s' := by
  simpa only [List.append_nil] using Chain.cons h (.nil _ _)

theorem trans (h : Chain R n s es s') (h' : Chain R (n + es.length) s' fs s'') :
    Chain R n s (es ++ fs) s'' := by
  induction h with
  | nil => simpa only [List.nil_append, List.length_nil, Nat.add_zero] using h'
  | cons hr h ih =>
    rw [List.append_assoc]
    refine .cons hr (ih ?_)
    simpa only [List.length_append, Nat.add_assoc] using h'

theorem snoc (h : Chain R n s es s') (h' : R (n + es.length) s' fs s'') :
    Chain R n s (es ++ fs) s'' := h.trans (.one h')

theorem mono {R' : ℕ → σ → List (Event C A) → σ → Prop}
    (hR : ∀ n s es s', R n s es s' → R' n s es s') (h : Chain R n s es s') :
    Chain R' n s es s' := by
  induction h with
  | nil => exact .nil _ _
  | cons hr _ ih => exact .cons (hR _ _ _ _ hr) ih

theorem keeps {I : ℕ → List (Event C A) → σ → Prop}
    (hI : ∀ n t s es s', R n s es s' → I n t s → I (n + es.length) (t ++ es) s')
    {t : List (Event C A)} (h : Chain R n s es s') (hs : I n t s) :
    I (n + es.length) (t ++ es) s' := by
  induction h generalizing t with
  | nil => simpa only [List.append_nil, List.length_nil, Nat.add_zero] using hs
  | @cons n s s' s'' es fs hr h ih =>
    rw [← List.append_assoc, List.length_append, ← Nat.add_assoc]
    exact ih (hI n t s es s' hr hs)

/-- A property of a whole chain that its parts inherit holds at each of its transitions. -/
theorem within {Q : List (Event C A) → Prop} (hQ : ∀ es fs, Q (es ++ fs) → Q es ∧ Q fs)
    (h : Chain R n s es s') (hq : Q es) : Chain (fun n s es s' ↦ R n s es s' ∧ Q es) n s es s' := by
  induction h with
  | nil => exact .nil _ _
  | cons hr _ ih =>
    obtain ⟨hes, hfs⟩ := hQ _ _ hq
    exact .cons ⟨hr, hes⟩ (ih hfs)

end Chain

/-- One call of a run: the state it met, and how it came out. -/
structure Entry (C A σ α κ : Type) where
  before : σ
  call : κ
  result : Outcome C A σ α

def trace (l : List (Entry C A σ α κ)) : List (Event C A) := l.flatMap fun e ↦ e.result.events

@[simp] theorem trace_nil : trace ([] : List (Entry C A σ α κ)) = [] := rfl

@[simp] theorem trace_append (l l' : List (Entry C A σ α κ)) :
    trace (l ++ l') = trace l ++ trace l' := List.flatMap_append

@[simp] theorem trace_single (e : Entry C A σ α κ) : trace [e] = e.result.events := by
  simp [trace]

/-- The runs of a family of programs: the caller picks each next call and the
outside its answers, as far as `ok` allows. -/
inductive Runs (step : κ → Program C A σ α) (ok : ℕ → σ → κ → Oracle C A → Prop) (s₀ : σ) :
    σ → List (Entry C A σ α κ) → Prop
  | start : Runs step ok s₀ s₀ []
  | call {s : σ} {l : List (Entry C A σ α κ)} (k : κ) (o : Oracle C A) :
      Runs step ok s₀ s l → ok (trace l).length s k o →
      Runs step ok s₀ ((step k).run o (trace l).length s).state
        (l ++ [⟨s, k, (step k).run o (trace l).length s⟩])

def play (step : κ → Program C A σ α) (s : σ) (l : List (Entry C A σ α κ)) :
    List (κ × Oracle C A) → σ × List (Entry C A σ α κ)
  | [] => (s, l)
  | (k, o) :: ks =>
    play step ((step k).run o (trace l).length s).state
      (l ++ [⟨s, k, (step k).run o (trace l).length s⟩]) ks

def Allowed (step : κ → Program C A σ α) (ok : ℕ → σ → κ → Oracle C A → Prop) (s : σ)
    (l : List (Entry C A σ α κ)) : List (κ × Oracle C A) → Prop
  | [] => True
  | (k, o) :: ks =>
    ok (trace l).length s k o ∧ Allowed step ok ((step k).run o (trace l).length s).state
      (l ++ [⟨s, k, (step k).run o (trace l).length s⟩]) ks

namespace Runs

variable {step : κ → Program C A σ α} {ok ok' : ℕ → σ → κ → Oracle C A → Prop} {s₀ s : σ}
variable {l : List (Entry C A σ α κ)}

theorem mono (hok : ∀ n s k o, ok n s k o → ok' n s k o) (h : Runs step ok s₀ s l) :
    Runs step ok' s₀ s l := by
  induction h with
  | start => exact .start
  | call k o _ hk ih => exact .call k o ih (hok _ _ _ _ hk)

/-- What holds at the start and survives every allowed call holds of every run. -/
theorem keeps {I : σ → List (Entry C A σ α κ) → Prop} (hstart : I s₀ [])
    (hcall : ∀ s l k o, I s l → ok (trace l).length s k o →
      I ((step k).run o (trace l).length s).state
        (l ++ [⟨s, k, (step k).run o (trace l).length s⟩]))
    (h : Runs step ok s₀ s l) : I s l := by
  induction h with
  | start => exact hstart
  | call k o _ hk ih => exact hcall _ _ k o ih hk

theorem upTo {l₁ l₂ : List (Entry C A σ α κ)} {e : Entry C A σ α κ} (h : Runs step ok s₀ s l)
    (hl : l = l₁ ++ e :: l₂) :
    Runs step ok s₀ e.before l₁ ∧ Runs step ok s₀ e.result.state (l₁ ++ [e]) ∧
      ∃ o, ok (trace l₁).length e.before e.call o ∧
        e.result = (step e.call).run o (trace l₁).length e.before := by
  induction h generalizing l₂ with
  | start => simp at hl
  | @call s l k o hrun hk ih =>
    rcases List.eq_nil_or_concat l₂ with rfl | ⟨l₃, f, rfl⟩
    · obtain ⟨rfl, he⟩ := List.append_inj' hl rfl
      obtain rfl : _ = e := by simpa using he
      exact ⟨hrun, .call k o hrun hk, o, hk, rfl⟩
    · rw [List.concat_eq_append, ← List.cons_append, ← List.append_assoc] at hl
      exact ih (List.append_inj' hl rfl).1

theorem ordered (h : Runs step ok s₀ s l) :
    (trace l).map Event.pos = List.range' 0 (trace l).length := by
  induction h with
  | start => rfl
  | @call s l k o _ _ ih =>
    have hp := (step k).ordered o (trace l).length s
    rw [trace_append, trace_single, List.map_append, ih, hp, List.length_append,
      ← List.range'_append_1, Nat.zero_add]

theorem play (h : Runs step ok s₀ s l) (ks : List (κ × Oracle C A)) (hks : Allowed step ok s l ks) :
    Runs step ok s₀ (External.play step s l ks).1 (External.play step s l ks).2 := by
  induction ks generalizing s l with
  | nil => exact h
  | cons p ks ih =>
    obtain ⟨k, o⟩ := p
    exact ih (.call k o h hks.1) hks.2

end Runs

end HrxSystem.External
