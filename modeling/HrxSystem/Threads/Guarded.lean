import HrxSystem.Threads.Turns

namespace HrxSystem.Threads

open External

variable {T C A σ α κ : Type}

/-- A flow that makes requests in `P` and does nothing else. -/
inductive Passing (P : C → Prop) : Flow C A σ α → Prop
  | done (a : α) : Passing P (.done a)
  | call {c : C} {k : A → Flow C A σ α} : P c → (∀ a, Passing P (k a)) → Passing P (.call c k)

variable {flow : κ → Flow C A σ α} {ok : List (C × A) → C × A → Prop}
  {safe : List (C × A) → C → Prop}

/-- What a lock guards. While nobody has the lock, `free` holds of the state and the trace. While a
call has it that has found the state `s` and has exchanged `es`, `held` holds of the trace. Requests
with `passes` are made without the lock. The world keeps to `ok`. -/
structure Guard (flow : κ → Flow C A σ α) (ok : List (C × A) → C × A → Prop)
    (safe : List (C × A) → C → Prop) where
  passes : C → Prop
  free : σ → List (C × A) → Prop
  held : κ → σ → List (C × A) → List (C × A) → Prop
  kind : ∀ k, Bracketed (flow k) ∨ Passing passes (flow k)
  taken : ∀ k s t, free s t → held k s [] t
  asked : ∀ k s s' es t c v, held k s es t → (flow k).Reaches s es (.call c v) s' →
    safe t c ∧ ∀ a, ok t (c, a) → held k s (es ++ [(c, a)]) (t ++ [(c, a)])
  given : ∀ k s s' es t a, held k s es t → (flow k).Reaches s es (.done a) s' → free s' t
  passed : ∀ t c, passes c → safe t c
  passed_free : ∀ s t c a, passes c → ok t (c, a) → free s t → free s (t ++ [(c, a)])
  passed_held : ∀ k s es t c a, passes c → ok t (c, a) → held k s es t → held k s es (t ++ [(c, a)])

namespace Guard

variable {G : Guard flow ok safe} {s s' : σ} {t t' : List (C × A)} {holds holds' : Prop}
  {x : Phase C A σ α κ}

inductive Knows (G : Guard flow ok safe) (t : List (C × A)) (s : σ) (holds : Prop) :
    Phase C A σ α κ → Prop
  | idle : ¬ holds → G.Knows t s holds .idle
  | waiting {k : κ} {w : Flow C A σ α} : ¬ holds → flow k = .acquire (unlocking w) → Unlocked w →
      G.Knows t s holds (.busy k [] (.acquire (unlocking w)))
  | passing {k : κ} {es : List (C × A)} {w : Flow C A σ α} : ¬ holds → Passing G.passes w →
      G.Knows t s holds (.busy k es w)
  | holding {k : κ} {es : List (C × A)} {w : Flow C A σ α} {s₁ : σ} : holds → Unlocked w →
      (flow k).Reaches s₁ es (unlocking w) s → G.held k s₁ es t →
      G.Knows t s holds (.busy k es (unlocking w))

/-- Who does not have the lock knows nothing of state and trace. -/
theorem Knows.elsewhere (h : G.Knows t s holds x) (hnot : ¬ holds) (hnot' : ¬ holds') :
    G.Knows t' s' holds' x := by
  cases h with
  | idle => exact .idle hnot'
  | waiting _ hflow hw => exact .waiting hnot' hflow hw
  | passing _ hw => exact .passing hnot' hw
  | holding hholds => exact absurd hholds hnot

/-- What is known stands when a request passes by. -/
theorem Knows.pass {c : C} {a : A} (h : G.Knows t s holds x) (hc : G.passes c) (hok : ok t (c, a)) :
    G.Knows (t ++ [(c, a)]) s holds x := by
  cases h with
  | idle hnot => exact .idle hnot
  | waiting hnot hflow hw => exact .waiting hnot hflow hw
  | passing hnot hw => exact .passing hnot hw
  | holding hholds hw hreach hheld =>
    exact .holding hholds hw hreach (G.passed_held _ _ _ _ _ _ hc hok hheld)

theorem Knows.settle_passing {k : κ} {es : List (C × A)} {w : Flow C A σ α}
    (hw : Passing G.passes w) (hnot : ¬ holds) :
    G.Knows t s holds (settle k es w).1 := by
  obtain ⟨a, rfl, hsettle⟩ | hsettle := settle_cases k es w
  · rw [hsettle]
    exact .idle hnot
  · rw [hsettle]
    exact .passing hnot hw

variable [DecidableEq T] {s₀ : σ} {ls : List (T × Finished C A α κ)} {p : Turns T C A σ α κ}

structure Inv (G : Guard flow ok safe) (p : Turns T C A σ α κ) : Prop where
  free : p.owner = none → G.free p.state p.trace
  each : ∀ i, G.Knows p.trace p.state (p.owner = some i) (p.phase i)
  safe : ∀ u e v, p.trace = u ++ e :: v → safe u e.1

theorem safe_snoc {e : C × A} (h : ∀ u e v, t = u ++ e :: v → safe u e.1) (he : safe t e.1) :
    ∀ u f v, t ++ [e] = u ++ f :: v → safe u f.1 := by
  intro u f v huv
  obtain rfl | ⟨v, g, rfl⟩ := List.eq_nil_or_concat v
  · obtain ⟨rfl, hef⟩ := List.append_inj' huv rfl
    obtain rfl := (List.cons.inj hef).1
    exact he
  · rw [List.concat_eq_append, ← List.cons_append, ← List.append_assoc] at huv
    exact h u f v (List.append_inj' huv rfl).1

theorem Inv.begin {i : T} {k : κ} (h : G.Inv p) (hidle : p.phase i = .idle) :
    G.Inv { p with phase := Function.update p.phase i (settle k [] (flow k)).1 } := by
  have hnot : p.owner ≠ some i := by
    have hi := h.each i
    rw [hidle] at hi
    cases hi with
    | idle hnot => exact hnot
  refine ⟨h.free, fun j ↦ ?_, h.safe⟩
  by_cases hj : j = i
  · subst hj
    simp only [Function.update_self]
    obtain hw | hw := G.kind k
    · rw [hw.settle]
      generalize hk : flow k = w at hw
      obtain ⟨hw⟩ := hw
      exact .waiting hnot hk hw
    · exact .settle_passing hw hnot
  · simpa [hj] using h.each j

theorem Inv.inside {i : T} {k : κ} {es : List (C × A)} {w : Flow C A σ α} {s₁ : σ} (h : G.Inv p)
    (hnot : ∀ j, j ≠ i → p.owner ≠ some j) (hw : Unlocked w)
    (hreach : (flow k).Reaches s₁ es (unlocking w) s') (hheld : G.held k s₁ es t')
    (hsafe : ∀ u e v, t' = u ++ e :: v → safe u e.1) :
    G.Inv ⟨s', some i, Function.update p.phase i (settle k es (unlocking w)).1, t'⟩ := by
  rw [unlocking, settle_releasing]
  refine ⟨fun hnone ↦ (by cases hnone), fun j ↦ ?_, hsafe⟩
  by_cases hj : j = i
  · subst hj
    simpa using .holding trivial hw hreach hheld
  · simpa [hj] using (h.each j).elsewhere (hnot j hj) fun hij ↦ hj (Option.some.inj hij).symm

theorem Inv.step {i : T} {k : κ} {es fs : List (C × A)} {w w' : Flow C A σ α} {o : Option T}
    (h : G.Inv p) (hbusy : p.phase i = .busy k es w)
    (hstep : Turns.Step i p.owner p.state w fs o s' w') (hok : ∀ e, fs = [e] → ok p.trace e) :
    G.Inv ⟨s', o, Function.update p.phase i (settle k (es ++ fs) w').1, p.trace ++ fs⟩ := by
  have hi := h.each i
  rw [hbusy] at hi
  have hfree := h.free
  have hsafe := h.safe
  obtain ⟨s, owner, phase, t⟩ := p
  dsimp only at hstep hi hok hfree hsafe
  cases hi with
  | waiting hnot hflow hw =>
    cases hstep with
    | acquire =>
      have hrefl : (flow k).Reaches s' [] (flow k) s' := .refl
      simp only [List.append_nil]
      refine h.inside (fun j _ hj ↦ by cases hj) hw ?_ (G.taken k s' t (hfree rfl)) hsafe
      rw [hflow] at hrefl ⊢
      exact .acquire hrefl
  | passing hnot hw =>
    cases hw with
    | done => cases hstep
    | @call c v hc hv =>
      cases hstep with
      | call a =>
        have hoka := hok _ rfl
        refine ⟨fun hnone ↦ G.passed_free _ _ _ _ hc hoka (hfree hnone), fun j ↦ ?_,
          safe_snoc hsafe (G.passed t c hc)⟩
        by_cases hj : j = i
        · subst hj
          simpa using .settle_passing (hv a) hnot
        · simpa [hj] using (h.each j).pass hc hoka
  | holding howner hw hreach hheld =>
    subst howner
    have hnot : ∀ j, j ≠ i → some i ≠ some j := fun j hj hij ↦ hj (Option.some.inj hij).symm
    cases hw with
    | done a =>
      cases hstep with
      | release =>
        simp only [List.append_nil]
        refine ⟨fun _ ↦ G.given k _ _ _ _ _ hheld (.release hreach), fun j ↦ ?_, hsafe⟩
        by_cases hj : j = i
        · subst hj
          simpa [settle] using .idle fun hnone ↦ by cases hnone
        · simpa [hj] using (h.each j).elsewhere (hnot j hj) fun hnone ↦ by cases hnone
    | call hv =>
      cases hstep with
      | call a =>
        obtain ⟨hsafe', hnext⟩ := G.asked k _ _ _ _ _ _ hheld hreach
        exact h.inside hnot (hv a) (.call a hreach) (hnext a (hok _ rfl)) (safe_snoc hsafe hsafe')
    | state hv =>
      cases hstep with
      | state =>
        simp only [List.append_nil]
        exact h.inside hnot (hv _) (.state hreach) hheld hsafe
    | update hv =>
      cases hstep with
      | update =>
        simp only [List.append_nil]
        exact h.inside hnot hv (.update hreach) hheld hsafe

/-- However threads take turns, in a world that keeps to `ok` every request is safe. -/
theorem Inv.of_run (hstart : G.free s₀ []) (h : Turns.Run flow s₀ ls p)
    (hok : ∀ u e v, p.trace = u ++ e :: v → ok u e) : G.Inv p := by
  induction h with
  | start =>
    exact ⟨fun _ ↦ hstart, fun _ ↦ .idle fun hnone ↦ (by cases hnone), fun u e v h ↦ by simp at h⟩
  | begin i k _ hidle ih => exact (ih hok).begin hidle
  | @step ls p i k es fs w w' o s _ hbusy hstep ih =>
    refine (ih fun u e v huv ↦ hok u e (v ++ fs) ?_).step hbusy hstep fun e he ↦ hok p.trace e [] ?_
    · rw [huv]
      simp
    · rw [he]

end Guard

end HrxSystem.Threads
