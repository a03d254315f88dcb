import HrxSystem.Threads.Turns

namespace HrxSystem.Threads

open External

variable {T C A σ α κ : Type}

section CallOnce

variable (complete : σ → Bool) (init : Flow C A σ (Option Unit)) (next : Flow C A σ (Option α))

def afterInit (r : Option Unit) : Flow C A σ (Option α) := r.elim (.done none) fun _ ↦ .release next

def checkAgain : Flow C A σ (Option α) :=
  .state fun s ↦ if complete s then .release next else init.bind (afterInit next)

/-- `Once::call_once`, before `next`. -/
def callOnce : Flow C A σ (Option α) :=
  .state fun s ↦ if complete s then next else .acquire (checkAgain complete init next)

end CallOnce

/-- From state `s`, the flow aborts or completes the initialization with its last step, in a state
with `Q`. -/
inductive Initializes (complete : σ → Bool) (Q : σ → Prop) : Flow C A σ (Option Unit) → σ → Prop
  | abort {s : σ} : complete s = false → Initializes complete Q (.done none) s
  | done {s : σ} : complete s = true → Q s → Initializes complete Q (.done (some ())) s
  | call {c : C} {k : A → Flow C A σ (Option Unit)} {s : σ} : complete s = false →
      (∀ a, Initializes complete Q (k a) s) →
      Initializes complete Q (.call c k) s
  | state {k : σ → Flow C A σ (Option Unit)} {s : σ} : complete s = false →
      Initializes complete Q (k s) s →
      Initializes complete Q (.state k) s
  | update {f : σ → σ} {k : Flow C A σ (Option Unit)} {s : σ} : complete s = false →
      Initializes complete Q k (f s) →
      Initializes complete Q (.update f k) s

theorem Initializes.sound {complete : σ → Bool} {Q : σ → Prop} {w : Flow C A σ (Option Unit)}
    {s : σ} (h : Initializes complete Q w s) (hcomplete : complete s = true) : Q s := by
  cases h with
  | abort hnot | call hnot | state hnot | update hnot =>
    exact absurd (hnot.symm.trans hcomplete) Bool.false_ne_true
  | done _ hQ => exact hQ

/-- In state `s`, the flow only calls and reads. -/
inductive Reads (s : σ) : Flow C A σ α → Prop
  | done (a : α) : Reads s (.done a)
  | call {c : C} {k : A → Flow C A σ α} : (∀ a, Reads s (k a)) → Reads s (.call c k)
  | state {k : σ → Flow C A σ α} : Reads s (k s) → Reads s (.state k)

namespace Once

variable {complete : σ → Bool} {init : Flow C A σ (Option Unit)} {next : κ → Flow C A σ (Option α)}
  {Q : σ → Prop}
variable {s s' : σ} {holds holds' : Prop} {x : Phase C A σ (Option α) κ}

inductive Place (complete : σ → Bool) (init : Flow C A σ (Option Unit))
    (next : κ → Flow C A σ (Option α)) (Q : σ → Prop) (s : σ) (holds : Prop) :
    Phase C A σ (Option α) κ → Prop
  | idle : ¬ holds → Place complete init next Q s holds .idle
  | enters {k : κ} : ¬ holds →
      Place complete init next Q s holds (.busy k [] (callOnce complete init (next k)))
  | waits {k : κ} : ¬ holds →
      Place complete init next Q s holds (.busy k [] (.acquire (checkAgain complete init (next k))))
  | checks {k : κ} : holds → (complete s = true ∨ Initializes complete Q init s) →
      Place complete init next Q s holds (.busy k [] (checkAgain complete init (next k)))
  | inits {k : κ} {es : List (C × A)} {w : Flow C A σ (Option Unit)} : holds → w ≠ .done none →
      Initializes complete Q w s →
      Place complete init next Q s holds (.busy k es (w.bind (afterInit (next k))))
  | reads {k : κ} {es fs : List (C × A)} {w : Flow C A σ (Option α)} : ¬ holds →
      complete s = true → Reads s w →
      (next k).Reaches s fs w s → settle k es w = (.busy k es w, []) →
      Place complete init next Q s holds (.busy k es w)

/-- Who does not hold the lock does not notice what others do, as long as the state is not
complete. -/
theorem Place.elsewhere (h : Place complete init next Q s holds x) (hnot : ¬ holds)
    (hnot' : ¬ holds') (hs : complete s = true → s' = s) :
    Place complete init next Q s' holds' x := by
  cases h with
  | idle => exact .idle hnot'
  | enters => exact .enters hnot'
  | waits => exact .waits hnot'
  | checks hholds => exact absurd hholds hnot
  | inits hholds => exact absurd hholds hnot
  | reads _ hcomplete hw hreach hbusy =>
    obtain rfl := hs hcomplete
    exact .reads hnot' hcomplete hw hreach hbusy

variable {ls ms : List (T × Finished C A (Option α) κ)} {p : Turns T C A σ (Option α) κ}
  {ts : List (C × A)}

def Alive (ls : List (T × Finished C A (Option α) κ)) : Prop := ∀ x ∈ ls, x.2.val ≠ none

/-- Calls return only after the initialization, and with what they read then. -/
structure Inv (complete : σ → Bool) (init : Flow C A σ (Option Unit))
    (next : κ → Flow C A σ (Option α)) (Q : σ → Prop) (ls : List (T × Finished C A (Option α) κ))
    (p : Turns T C A σ (Option α) κ) : Prop where
  place : ∀ i, Place complete init next Q p.state (p.owner = some i) (p.phase i)
  free : p.owner = none → complete p.state = true ∨ Initializes complete Q init p.state
  sound : complete p.state = true → Q p.state
  told : ∀ x ∈ ls, complete p.state = true ∧
    ∃ fs, (next x.2.call).Reaches p.state fs (.done x.2.val) p.state

theorem Inv.others {i : T} {o : Option T} (h : Inv complete init next Q ls p)
    (hs : complete p.state = true → s = p.state) (hold : ∀ j, p.owner = some j → j = i)
    (hnew : ∀ j, o = some j → j = i) :
    ∀ j, j ≠ i → Place complete init next Q s (o = some j) (p.phase j) :=
  fun j hj ↦ (h.place j).elsewhere (fun hij ↦ hj (hold j hij)) (fun hij ↦ hj (hnew j hij)) hs

variable [DecidableEq T]

theorem Inv.move {i : T} {o : Option T} (h : Inv complete init next Q ls p)
    (hs : complete p.state = true → s = p.state)
    (hothers : ∀ j, j ≠ i → Place complete init next Q s (o = some j) (p.phase j))
    (hfree : o = none → complete s = true ∨ Initializes complete Q init s)
    (hsound : complete s = true → Q s) (hplace : Place complete init next Q s (o = some i) x) :
    Inv complete init next Q ls ⟨s, o, Function.update p.phase i x, ts⟩ := by
  refine ⟨fun j ↦ ?_, hfree, hsound, fun y hy ↦ ?_⟩
  · by_cases hj : j = i
    · subst hj
      simpa using hplace
    · simpa [hj] using hothers j hj
  · obtain ⟨hcomplete, hreach⟩ := h.told y hy
    obtain rfl := hs hcomplete
    exact ⟨hcomplete, hreach⟩

theorem Inv.reading {i : T} {k : κ} {es fs : List (C × A)} {w : Flow C A σ (Option α)}
    {o : Option T} (h : Inv complete init next Q ls p)
    (hothers : ∀ j, j ≠ i → Place complete init next Q p.state (o = some j) (p.phase j))
    (ho : o ≠ some i) (hcomplete : complete p.state = true) (hw : Reads p.state w)
    (hreach : (next k).Reaches p.state fs w p.state) :
    Inv complete init next Q (ls ++ (settle k es w).2.map (Prod.mk i))
      ⟨p.state, o, Function.update p.phase i (settle k es w).1, ts⟩ := by
  obtain ⟨a, rfl, hsettle⟩ | hsettle := settle_cases k es w
  · rw [hsettle]
    obtain ⟨hplace, hfree, hsound, htold⟩ :=
      h.move (fun _ ↦ rfl) hothers (fun _ ↦ .inl hcomplete) h.sound (.idle ho)
    refine ⟨hplace, hfree, hsound, fun x hx ↦ ?_⟩
    obtain hx | hx := List.mem_append.mp hx
    · exact htold x hx
    · obtain rfl := List.mem_singleton.mp hx
      exact ⟨hcomplete, fs, hreach⟩
  · rw [hsettle, List.map_nil, List.append_nil]
    exact h.move (fun _ ↦ rfl) hothers (fun _ ↦ .inl hcomplete) h.sound
      (.reads ho hcomplete hw hreach hsettle)

theorem settle_afterInit {n : Flow C A σ (Option α)} {w : Flow C A σ (Option Unit)}
    (hw : w ≠ .done none) (k : κ) (es : List (C × A)) :
    settle k es (w.bind (afterInit n)) = (.busy k es (w.bind (afterInit n)), []) := by
  cases w with
  | done r =>
    cases r with
    | none => exact absurd rfl hw
    | some u => rfl
  | _ => rfl

omit [DecidableEq T] in
theorem ne_abort_of_alive {i : T} {k : κ} {es : List (C × A)} {w : Flow C A σ (Option Unit)}
    (halive : Alive (ls ++ (settle k es (w.bind (afterInit (next k)))).2.map (Prod.mk i))) :
    w ≠ .done none := by
  rintro rfl
  exact halive (i, ⟨k, es, none⟩) (List.mem_append_right _ (List.mem_singleton_self _)) rfl

theorem Inv.initializing {i : T} {k : κ} {es : List (C × A)} {w : Flow C A σ (Option Unit)}
    (h : Inv complete init next Q ls p) (hs : complete p.state = true → s = p.state)
    (hold : ∀ j, p.owner = some j → j = i) (hw : Initializes complete Q w s)
    (halive : Alive (ls ++ (settle k es (w.bind (afterInit (next k)))).2.map (Prod.mk i))) :
    Inv complete init next Q (ls ++ (settle k es (w.bind (afterInit (next k)))).2.map (Prod.mk i))
      ⟨s, some i, Function.update p.phase i (settle k es (w.bind (afterInit (next k)))).1, ts⟩ := by
  have hdone := ne_abort_of_alive halive
  rw [settle_afterInit hdone, List.map_nil, List.append_nil]
  exact h.move hs (h.others hs hold fun j hj ↦ (Option.some.inj hj).symm) nofun hw.sound
    (.inits rfl hdone hw)

theorem Inv.begin {i : T} {k : κ} (h : Inv complete init next Q ls p) (hidle : p.phase i = .idle) :
    Inv complete init next Q
      (ls ++ (settle k [] (callOnce complete init (next k))).2.map (Prod.mk i))
      { p with
        phase := Function.update p.phase i (settle k [] (callOnce complete init (next k))).1 } := by
  have hplace := h.place i
  rw [hidle] at hplace
  rw [callOnce, settle_state, List.map_nil, List.append_nil]
  cases hplace with
  | idle hnot => exact h.move (fun _ ↦ rfl) (fun j _ ↦ h.place j) h.free h.sound (.enters hnot)

theorem Inv.step (hreads : ∀ k s, Q s → Reads s (next k)) {i : T} {k : κ} {es fs : List (C × A)}
    {w w' : Flow C A σ (Option α)} {o : Option T} (h : Inv complete init next Q ls p)
    (hbusy : p.phase i = .busy k es w) (hstep : Turns.Step i p.owner p.state w fs o
      s w') (halive : Alive (ls ++ (settle k (es ++ fs) w').2.map (Prod.mk i))) :
    Inv complete init next Q (ls ++ (settle k (es ++ fs) w').2.map (Prod.mk i))
      ⟨s, o, Function.update p.phase i (settle k (es ++ fs) w').1, p.trace ++ fs⟩ := by
  have hplace := h.place i
  rw [hbusy] at hplace
  obtain ⟨t, owner, phase, us⟩ := p
  dsimp only at hstep hplace
  cases hplace with
  | enters hnot =>
    cases hstep with
    | state =>
      dsimp only
      split
      · rename_i hcomplete
        exact h.reading (fun j _ ↦ h.place j) hnot hcomplete (hreads k _ (h.sound hcomplete)) .refl
      · rw [settle_acquire, List.map_nil, List.append_nil]
        exact h.move (fun _ ↦ rfl) (fun j _ ↦ h.place j) h.free h.sound (.waits hnot)
  | waits hnot =>
    cases hstep with
    | acquire =>
      rw [checkAgain, settle_state, List.map_nil, List.append_nil]
      refine h.move (fun _ ↦ rfl)
        (h.others (fun _ ↦ rfl) nofun fun j hj ↦ (Option.some.inj hj).symm) nofun h.sound ?_
      exact .checks rfl (h.free rfl)
  | checks hholds hinit =>
    subst hholds
    cases hstep with
    | state =>
      have hold : ∀ j, some i = some j → j = i := fun j hj ↦ (Option.some.inj hj).symm
      dsimp only at halive ⊢
      split at halive
      · rename_i hcomplete
        rw [if_pos hcomplete]
        exact h.initializing (w := .done (some ())) (fun _ ↦ rfl) hold
          (.done hcomplete (h.sound hcomplete)) halive
      · rename_i hcomplete
        rw [if_neg hcomplete]
        exact h.initializing (fun _ ↦ rfl) hold (hinit.resolve_left hcomplete) halive
  | inits hholds hdone hw =>
    subst hholds
    have hold : ∀ j, some i = some j → j = i := fun j hj ↦ (Option.some.inj hj).symm
    cases hw with
    | abort => exact absurd rfl hdone
    | done hcomplete hQ =>
      cases hstep with
      | release =>
        exact h.reading (h.others (fun _ ↦ rfl) hold nofun) nofun hcomplete (hreads k _ hQ) .refl
    | call hnot hk =>
      cases hstep with
      | call a => exact h.initializing (fun _ ↦ rfl) hold (hk a) halive
    | state hnot hk =>
      cases hstep with
      | state => exact h.initializing (fun _ ↦ rfl) hold hk halive
    | update hnot hk =>
      cases hstep with
      | update => exact h.initializing (fun hc ↦
          absurd (hnot.symm.trans hc) Bool.false_ne_true) hold hk halive
  | reads hnot hcomplete hw hreach =>
    cases hw with
    | done => cases hstep
    | call hk =>
      cases hstep with
      | call a => exact h.reading (fun j _ ↦ h.place j) hnot hcomplete (hk a) (.call a hreach)
    | state hk =>
      cases hstep with
      | state => exact h.reading (fun j _ ↦ h.place j) hnot hcomplete hk (.state hreach)

omit [DecidableEq T] in
theorem Alive.left (h : Alive (ls ++ ms)) : Alive ls := fun x hx ↦ h x (List.mem_append_left _ hx)

theorem Inv.of_run (hreads : ∀ k s, Q s → Reads s (next k)) {s₀ : σ}
    (hcomplete : complete s₀ = false) (hinit : Initializes complete Q init s₀)
    (h : Turns.Run (fun k ↦ callOnce complete init (next k)) s₀ ls p) (halive : Alive ls) :
    Inv complete init next Q ls p := by
  induction h with
  | start =>
    refine ⟨fun _ ↦ .idle nofun, fun _ ↦ .inr hinit, fun hc ↦ ?_, nofun⟩
    exact absurd (hcomplete.symm.trans hc) Bool.false_ne_true
  | begin i k _ hidle ih => exact (ih halive.left).begin hidle
  | step _ hbusy hstep ih => exact (ih halive.left).step hreads hbusy hstep halive

section Progress

variable {flow : κ → Flow C A σ (Option α)} {s₀ : σ} {P P' : Turns T C A σ (Option α) κ → Prop}
variable {p' : Turns T C A σ (Option α) κ}

/-- From `p` the threads can go on until `P` holds, or a call ends the process. -/
def Leads (flow : κ → Flow C A σ (Option α)) (ls : List (T × Finished C A (Option α) κ))
    (p : Turns T C A σ (Option α) κ) (P : Turns T C A σ (Option α) κ → Prop) : Prop :=
  ∃ ms p', Turns.Moves flow ls p (ls ++ ms) p' ∧ (Alive (ls ++ ms) → P p')

theorem Leads.here (hp : Alive ls → P p) : Leads flow ls p P :=
  ⟨[], p, by simpa using Turns.Moves.start, by simpa using hp⟩

theorem Leads.later (hmoves : Turns.Moves flow ls p (ls ++ ms) p')
    (h : Leads flow (ls ++ ms) p' P) :
    Leads flow ls p P := by
  obtain ⟨ns, q, hrun, hq⟩ := h
  rw [List.append_assoc] at hrun hq
  exact ⟨ms ++ ns, q, hmoves.trans hrun, hq⟩

theorem Leads.step {i : T} {k : κ} {es fs : List (C × A)} {w w' : Flow C A σ (Option α)}
    {o : Option T} (hbusy : p.phase i = .busy k es w)
    (hstep : Turns.Step i p.owner p.state w fs o s w')
    (h : Leads flow (ls ++ (settle k (es ++ fs) w').2.map (Prod.mk i))
      ⟨s, o, Function.update p.phase i (settle k (es ++ fs) w').1, p.trace ++ fs⟩ P) :
    Leads flow ls p P := .later (Turns.Moves.step .start hbusy hstep) h

theorem Leads.trans (h : Leads flow ls p P)
    (hP : ∀ ms p', Turns.Moves flow ls p (ls ++ ms) p' → Alive (ls ++ ms) → P p' →
      Leads flow (ls ++ ms) p' P') : Leads flow ls p P' := by
  obtain ⟨ms, p', hrun, hp⟩ := h
  by_cases halive : Alive (ls ++ ms)
  · exact .later hrun (hP ms p' hrun halive (hp halive))
  · exact ⟨ms, p', hrun, fun h ↦ absurd h halive⟩

variable (hreads : ∀ k s, Q s → Reads s (next k)) (hcomplete : complete s₀ = false)
variable (hinit : Initializes complete Q init s₀)

include hreads hcomplete hinit

end Progress

end Once

end HrxSystem.Threads
