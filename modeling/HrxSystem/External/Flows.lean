import HrxSystem.External.Runs
import Mathlib.Data.List.Enum

namespace HrxSystem.External

variable {C A σ α β κ : Type}

/-- A program in steps: the next one, and how the program goes on. Between two steps others can have
their turn. -/
inductive Flow (C A σ α : Type) : Type
  | done (a : α)
  | call (c : C) (k : A → Flow C A σ α)
  | state (k : σ → Flow C A σ α)
  | update (f : σ → σ) (k : Flow C A σ α)
  | acquire (k : Flow C A σ α)
  | release (k : Flow C A σ α)

def placed (n : ℕ) (es : List (C × A)) : List (Event C A) :=
  (es.zipIdx n).map fun p ↦ ⟨p.2, p.1.1, p.1.2⟩

@[simp] theorem placed_nil (n : ℕ) : placed n ([] : List (C × A)) = [] := rfl

@[simp] theorem placed_length (n : ℕ) (es : List (C × A)) :
    (placed n es).length = es.length := by simp [placed]

@[simp] theorem placed_cons (n : ℕ) (e : C × A) (es : List (C × A)) :
    placed n (e :: es) = ⟨n, e.1, e.2⟩ :: placed (n + 1) es := rfl

theorem placed_append (n : ℕ) (es fs : List (C × A)) :
    placed n (es ++ fs) = placed n es ++ placed (n + es.length) fs := by
  simp [placed, List.zipIdx_append]

def exchanged (es : List (Event C A)) : List (C × A) := es.map fun e ↦ (e.call, e.answer)

@[simp] theorem exchanged_placed (n : ℕ) (es : List (C × A)) : exchanged (placed n es) = es := by
  simp only [exchanged, placed, List.map_map]
  exact List.zipIdx_map_fst n es

theorem placed_exchanged {n : ℕ} {es : List (Event C A)}
    (h : es.map Event.pos = List.range' n es.length) :
    placed n (exchanged es) = es := by
  induction es generalizing n with
  | nil => rfl
  | cons e es ih =>
    rw [List.map_cons, List.length_cons, List.range'_succ] at h
    obtain ⟨rfl, htail⟩ := List.cons.inj h
    exact congrArg (e :: ·) (ih htail)

/-- An outside world that gives the answers `es` from place `n` on. -/
def answering [Inhabited A] (n : ℕ) (es : List (C × A)) : Oracle C A :=
  fun m _ ↦ (es[m - n]?).elim default Prod.snd

namespace Flow

/-- What a flow does when nobody else has a turn. -/
def program : Flow C A σ α → Program C A σ α
  | done a => pure a
  | call c k => Program.call c >>= fun e ↦ (k e.answer).program
  | state k => Program.state >>= fun s ↦ (k s).program
  | update f k => Program.update f >>= fun _ ↦ k.program
  | acquire k => k.program
  | release k => k.program

def bind : Flow C A σ α → (α → Flow C A σ β) → Flow C A σ β
  | done a, w => w a
  | call c k, w => call c fun a ↦ (k a).bind w
  | state k, w => state fun s ↦ (k s).bind w
  | update f k, w => update f (k.bind w)
  | acquire k, w => acquire (k.bind w)
  | release k, w => release (k.bind w)

theorem bind_assoc {γ : Type} (w : Flow C A σ α) (v : α → Flow C A σ β) (u : β → Flow C A σ γ) :
    (w.bind v).bind u = w.bind fun a ↦ (v a).bind u := by
  induction w with
  | done a => rfl
  | call c k ih => exact congrArg (call c) (funext ih)
  | state k ih => exact congrArg state (funext ih)
  | update f k ih => exact congrArg (update f) ih
  | acquire k ih => exact congrArg acquire ih
  | release k ih => exact congrArg release ih

theorem program_bind (w : Flow C A σ α) (v : α → Flow C A σ β) :
    (w.bind v).program = w.program >>= fun a ↦ (v a).program := by
  refine Program.ext_run fun o n s ↦ ?_
  induction w generalizing n s with
  | done a => rfl
  | call c k ih => simp [bind, program, ih, Nat.add_assoc, Nat.add_comm]
  | state k ih => simp [bind, program, ih]
  | update f k ih => simp [bind, program, ih]
  | acquire k ih => exact ih n s
  | release k ih => exact ih n s

/-- How far a flow has come from state `s`, after the calls `es` were answered. -/
inductive Reaches (w : Flow C A σ α) (s : σ) : List (C × A) → Flow C A σ α → σ → Prop
  | refl : Reaches w s [] w s
  | call {es : List (C × A)} {c : C} {k : A → Flow C A σ α} {s' : σ} (a : A) :
      Reaches w s es (.call c k) s' → Reaches w s (es ++ [(c, a)]) (k a) s'
  | state {es : List (C × A)} {k : σ → Flow C A σ α} {s' : σ} : Reaches w s es (.state k) s' →
      Reaches w s es (k s') s'
  | update {es : List (C × A)} {f : σ → σ} {k : Flow C A σ α} {s' : σ} :
      Reaches w s es (.update f k) s' → Reaches w s es k (f s')
  | acquire {es : List (C × A)} {k : Flow C A σ α} {s' : σ} : Reaches w s es (.acquire k) s' →
      Reaches w s es k s'
  | release {es : List (C × A)} {k : Flow C A σ α} {s' : σ} : Reaches w s es (.release k) s' →
      Reaches w s es k s'

variable {w v : Flow C A σ α} {s s' : σ} {es : List (C × A)} {a : α}

/-- A program runs as its flow goes, in a world that gives the same answers. -/
theorem Reaches.run (h : Reaches w s es v s') {o : Oracle C A} {n : ℕ}
    (ho : ∀ e ∈ placed n es, o e.pos e.call = e.answer) :
    w.program.run o n s = (v.program.run o (n + es.length) s').after (placed n es) := by
  induction h with
  | refl => rfl
  | @call es c k s' a _ ih =>
    have hlast : placed (n + es.length) [(c, a)] = [⟨n + es.length, c, a⟩] := rfl
    rw [placed_append] at ho
    have ha : happens o (n + es.length) c = ⟨n + es.length, c, a⟩ :=
      congrArg (Event.mk _ _) (ho _ (List.mem_append_right _ (List.mem_singleton_self _)))
    rw [ih fun e he ↦ ho e (List.mem_append_left _ he)]
    simp [program, ha, placed_append, hlast, Nat.add_assoc]
  | state _ ih | update _ ih => simpa [program] using ih ho
  | acquire _ ih | release _ ih => exact ih ho

theorem Reaches.run_done (h : Reaches w s es (.done a) s') {o : Oracle C A} {n : ℕ}
    (ho : ∀ e ∈ placed n es, o e.pos e.call = e.answer) :
    w.program.run o n s = ⟨a, s', placed n es⟩ := by
  rw [h.run ho]
  simp [program]

end Flow

class Closed (P : ∀ {α : Type}, Flow C A σ α → Prop) : Prop where
  done : ∀ {α : Type} (a : α), P (.done a)
  call : ∀ {α : Type} {c : C} {k : A → Flow C A σ α}, (∀ a, P (k a)) → P (.call c k)
  bind : ∀ {α β : Type} {w : Flow C A σ α} {v : α → Flow C A σ β}, P w → (∀ a, P (v a)) →
    P (w.bind v)

/-- A program cut into steps. -/
structure Cut (P : ∀ {α : Type}, Flow C A σ α → Prop) (m : Program C A σ α) where
  flow : Flow C A σ α
  fits : P flow
  program : flow.program = m

namespace Cut

variable {P : ∀ {α : Type}, Flow C A σ α → Prop} {m m' : Program C A σ α}

variable [Closed P]

def pure (a : α) : Cut P (Pure.pure a : Program C A σ α) := ⟨.done a, Closed.done a, rfl⟩

def bind {k : α → Program C A σ β} (w : Cut P m) (v : ∀ a, Cut P (k a)) : Cut P (m >>= k) where
  flow := w.flow.bind fun a ↦ (v a).flow
  fits := Closed.bind w.fits fun a ↦ (v a).fits
  program := by
    rw [Flow.program_bind, w.program]
    exact congrArg (m >>= ·) (funext fun a ↦ (v a).program)

def call {k : A → Program C A σ β} (c : C) (v : ∀ a, Cut P (k a)) :
    Cut P (Program.call c >>= fun e ↦ k e.answer) where
  flow := .call c fun a ↦ (v a).flow
  fits := Closed.call fun a ↦ (v a).fits
  program := congrArg (Program.call c >>= ·) (funext fun e ↦ (v e.answer).program)

def ite {p : Prop} [Decidable p] (w : Cut P m) (w' : Cut P m') : Cut P (if p then m else m') where
  flow := if p then w.flow else w'.flow
  fits := by
    split
    · exact w.fits
    · exact w'.fits
  program := by
    split
    · exact w.program
    · exact w'.program

def option {γ : Type} {f : Option γ → Program C A σ α} (x : Option γ) (w : Cut P (f none))
    (v : ∀ c, Cut P (f (some c))) :
    Cut P (f x) where
  flow := x.elim w.flow fun c ↦ (v c).flow
  fits := by
    cases x with
    | none => exact w.fits
    | some c => exact (v c).fits
  program := by
    cases x with
    | none => exact w.program
    | some c => exact (v c).program

end Cut

theorem answering_placed [Inhabited A] (n : ℕ) (es : List (C × A)) :
    ∀ e ∈ placed n es, answering n es e.pos e.call = e.answer := by
  intro e he
  obtain ⟨⟨p, m⟩, hp, rfl⟩ := List.mem_map.mp he
  obtain ⟨hn, hm, hget⟩ := List.mem_zipIdx hp
  have hlt : m - n < es.length := by omega
  simp [answering, List.getElem?_eq_getElem hlt, hget]

theorem Flow.Reaches.asks [Inhabited A] {w : Flow C A σ α} {s s' : σ} {es : List (C × A)} {c : C}
    {k : A → Flow C A σ α} (h : w.Reaches s es (.call c k) s') :
    ∃ e ∈ (w.program.run (answering 0 es) 0 s).events, e.call = c := by
  refine ⟨happens (answering 0 es) (0 + es.length) c, ?_, rfl⟩
  rw [h.run (answering_placed 0 es)]
  simp [Flow.program]

/-- A call as its caller sees it: the answers it was given on the way, and its result. -/
structure Finished (C A α κ : Type) where
  call : κ
  answers : List (C × A)
  val : α

def Entry.finished (e : Entry C A σ α κ) : Finished C A α κ :=
  ⟨e.call, exchanged e.result.events, e.result.val⟩

/-- A flow that has come to its end is one more call of a run. -/
theorem Runs.flow [Inhabited A] {flow : κ → Flow C A σ α} {s₀ s s' : σ} {l : List (Entry C A σ α κ)}
    {k : κ} {es : List (C × A)} {a : α}
    (h : Runs (fun k ↦ (flow k).program) (fun _ _ _ _ ↦ True) s₀ s l)
    (hk : Flow.Reaches (flow k) s es (.done a) s') :
    ∃ l', Runs (fun k ↦ (flow k).program) (fun _ _ _ _ ↦ True) s₀ s' l' ∧
      l'.map Entry.finished = l.map Entry.finished ++ [⟨k, es, a⟩] := by
  have hrun := hk.run_done (answering_placed (trace l).length es)
  have hnext := Runs.call k (answering (trace l).length es) h trivial
  rw [hrun] at hnext
  exact ⟨_, hnext, by simp [Entry.finished]⟩

end HrxSystem.External
