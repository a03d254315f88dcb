import Mathlib.Data.Set.Insert
import Mathlib.Logic.Function.Basic

namespace HrxSystem.Timeline

structure Point (S : Type) where
  semaphore : S
  value : ℕ
deriving DecidableEq

/-- Work handed to a queue: it starts when its waits are reached and raises its signals when it
ends. -/
structure Submission (S P : Type) where
  waits : List (Point S)
  signals : List (Point S)
  payload : P
deriving DecidableEq

variable {S P E : Type} [DecidableEq S]

def Submission.signalsOn (x : Submission S P) (s : S) : Bool :=
  x.signals.any fun p ↦ p.semaphore = s

/-- The device behind the queues: the values of the semaphores, and what it has accepted,
started and finished. -/
structure Device (S P : Type) where
  value : S → ℕ
  accepted : List (Submission S P)
  started : Set (Submission S P)
  done : Set (Submission S P)

namespace Device

variable {p : Point S} {s : S}

def Reached (d : Device S P) (p : Point S) : Prop := p.value ≤ d.value p.semaphore

instance (d : Device S P) (p : Point S) : Decidable (d.Reached p) :=
  inferInstanceAs (Decidable (_ ≤ _))

/-- Raise each semaphore to its largest value among `ps`, if that is more. -/
def raise (d : Device S P) (ps : List (Point S)) : Device S P :=
  { d with value :=
    fun s ↦ (ps.filter (·.semaphore = s)).foldl (fun m p ↦ max m p.value) (d.value s) }

def accept (d : Device S P) (x : Option (Submission S P)) : Device S P :=
  { d with accepted := d.accepted ++ x.toList }

def start (d : Device S P) (x : Submission S P) : Device S P :=
  { d with started := insert x d.started }

def finish (d : Device S P) (x : Submission S P) : Device S P :=
  { d.raise x.signals with done := insert x d.done }

omit [DecidableEq S] in
theorem le_foldl_max (ps : List (Point S)) (m : ℕ) : m ≤ ps.foldl (fun m p ↦ max m p.value) m := by
  induction ps generalizing m with
  | nil => exact le_rfl
  | cons p ps ih => exact (le_max_left m p.value).trans (ih _)

omit [DecidableEq S] in
theorem mem_le_foldl_max {ps : List (Point S)} (hp : p ∈ ps) (m : ℕ) :
    p.value ≤ ps.foldl (fun m p ↦ max m p.value) m := by
  induction ps generalizing m with
  | nil => cases hp
  | cons q ps ih =>
    obtain rfl | hp := List.mem_cons.mp hp
    · exact (le_max_right m p.value).trans (le_foldl_max ps _)
    · exact ih hp _

theorem value_le_raise (d : Device S P) (ps : List (Point S)) (s : S) :
    d.value s ≤ (d.raise ps).value s := le_foldl_max _ _

theorem reached_raise {ps : List (Point S)} (hp : p ∈ ps) (d : Device S P) :
    (d.raise ps).Reached p :=
  mem_le_foldl_max (by simpa using hp) _

theorem raise_value_of_ne {ps : List (Point S)} (h : ∀ p ∈ ps, p.semaphore ≠ s) (d : Device S P) :
    (d.raise ps).value s = d.value s := by
  have hnone : ps.filter (·.semaphore = s) = [] := by
    rw [List.filter_eq_nil_iff]
    simpa using h
  simp [raise, hnone]

theorem raise_value_single (d : Device S P) (p : Point S) :
    (d.raise [p]).value p.semaphore = max (d.value p.semaphore) p.value := by
  simp [raise]

end Device

/-- Calls of a program, of which `sub` says what they submit and `sees` what they need of the
device, interleaved with what the device does by itself. Semaphores with `free` may also be
raised by others. -/
inductive Interleaves (sub : E → Option (Submission S P)) (sees : E → Device S P → Prop)
    (free : S → Prop) (d₀ : Device S P) : List E → Device S P → Prop
  | boot : Interleaves sub sees free d₀ [] d₀
  | event {t : List E} {d : Device S P} (e : E) :
      Interleaves sub sees free d₀ t d → sees e d →
      Interleaves sub sees free d₀ (t ++ [e]) (d.accept (sub e))
  | start {t : List E} {d : Device S P} (x : Submission S P) :
      Interleaves sub sees free d₀ t d → x ∈ d.accepted → (∀ w ∈ x.waits, d.Reached w) →
      Interleaves sub sees free d₀ t (d.start x)
  | finish {t : List E} {d : Device S P} (x : Submission S P) :
      Interleaves sub sees free d₀ t d → x ∈ d.started → x ∉ d.done →
      Interleaves sub sees free d₀ t (d.finish x)
  | raise {t : List E} {d : Device S P} (p : Point S) :
      Interleaves sub sees free d₀ t d → free p.semaphore →
      Interleaves sub sees free d₀ t (d.raise [p])

structure Device.Idle (d : Device S P) : Prop where
  accepted : d.accepted = []
  started : d.started = ∅
  done : d.done = ∅

/-- What holds of every device: it starts what it accepted once the waits are reached, and
finishes what it started, with the signals reached. -/
structure Device.Lawful (d : Device S P) : Prop where
  accepted : d.started ⊆ {x | x ∈ d.accepted}
  waited : ∀ x ∈ d.started, ∀ w ∈ x.waits, d.Reached w
  started : d.done ⊆ d.started
  signalled : ∀ x ∈ d.done, ∀ p ∈ x.signals, d.Reached p

omit [DecidableEq S] in
theorem Device.Lawful.mono {d d' : Device S P} (h : d.Lawful) (hacc : d.accepted ⊆ d'.accepted)
    (hvalue : ∀ s, d.value s ≤ d'.value s) (hstarted : d'.started = d.started)
    (hdone : d'.done = d.done) :
    d'.Lawful := by
  refine ⟨?_, ?_, by rw [hstarted, hdone]; exact h.started, ?_⟩
  · rw [hstarted]
    exact fun x hx ↦ hacc (h.accepted hx)
  · rw [hstarted]
    exact fun x hx w hw ↦ (h.waited x hx w hw).trans (hvalue _)
  · rw [hdone]
    exact fun x hx p hp ↦ (h.signalled x hx p hp).trans (hvalue _)

namespace Interleaves

variable {sub : E → Option (Submission S P)} {sees sees' : E → Device S P → Prop} {free : S → Prop}
variable {d₀ d : Device S P} {t : List E}

theorem mono (hs : ∀ e d, sees e d → sees' e d) (h : Interleaves sub sees free d₀ t d) :
    Interleaves sub sees' free d₀ t d := by
  induction h with
  | boot => exact .boot
  | event e _ he ih => exact .event e ih (hs _ _ he)
  | start x _ hx hw ih => exact .start x ih hx hw
  | finish x _ hx hn ih => exact .finish x ih hx hn
  | raise p _ hf ih => exact .raise p ih hf

theorem accepted (h : Interleaves sub sees free d₀ t d) (h₀ : d₀.Idle) :
    d.accepted = t.filterMap sub := by
  induction h with
  | boot => exact h₀.accepted
  | event e _ _ ih =>
    simp only [Device.accept, ih, List.filterMap_append]
    cases he : sub e <;> simp [he]
  | start => assumption
  | finish => assumption
  | raise => assumption

theorem lawful (h : Interleaves sub sees free d₀ t d) (h₀ : d₀.Idle) : d.Lawful := by
  induction h with
  | boot => constructor <;> simp [h₀.started, h₀.done]
  | event e _ _ ih => exact ih.mono (List.subset_append_left _ _) (fun _ ↦ le_rfl) rfl rfl
  | start x _ hx hw ih =>
    refine ⟨?_, ?_, ih.started.trans (Set.subset_insert _ _), ih.signalled⟩
    · rintro y (rfl | hy)
      · exact hx
      · exact ih.accepted hy
    · rintro y (rfl | hy)
      · exact hw
      · exact ih.waited y hy
  | @finish t d x _ hx hn ih =>
    have hvalue := d.value_le_raise x.signals
    refine ⟨ih.accepted, fun y hy w hw ↦ (ih.waited y hy w hw).trans (hvalue _), ?_, ?_⟩
    · rintro y (rfl | hy)
      · exact hx
      · exact ih.started hy
    · rintro y (rfl | hy) p hp
      · exact Device.reached_raise hp d
      · exact (ih.signalled y hy p hp).trans (hvalue _)
  | @raise t d p _ _ ih => exact ih.mono (fun _ h ↦ h) (d.value_le_raise [p]) rfl rfl

/-- What a device had reached at an earlier event it has reached since. -/
theorem saw {e : E} (h : Interleaves sub sees free d₀ t d) (he : e ∈ t) :
    ∃ d', sees e d' ∧ ∀ s, d'.value s ≤ d.value s := by
  induction h with
  | boot => cases he
  | @event t d f h hf ih =>
    obtain he | he := List.mem_append.mp he
    · exact ih he
    · rw [List.mem_singleton.mp he]
      exact ⟨d, hf, fun _ ↦ le_rfl⟩
  | start x _ _ _ ih => exact ih he
  | @finish t d x _ _ _ ih =>
    obtain ⟨d', hsaw, hle⟩ := ih he
    exact ⟨d', hsaw, fun s ↦ (hle s).trans (d.value_le_raise x.signals s)⟩
  | @raise t d p _ _ ih =>
    obtain ⟨d', hsaw, hle⟩ := ih he
    exact ⟨d', hsaw, fun s ↦ (hle s).trans (d.value_le_raise [p] s)⟩

theorem calls (h : Interleaves sub sees free d₀ t d) (es : List E)
    (hes : ∀ e ∈ es, ∀ xs, sees e { d with accepted := xs }) :
    Interleaves sub sees free d₀ (t ++ es)
      { d with accepted := d.accepted ++ es.filterMap sub } := by
  induction es generalizing t d with
  | nil => simpa using h
  | cons e es ih =>
    have hnext := ih (.event e h (hes e List.mem_cons_self _)) fun f hf xs ↦
        hes f (List.mem_cons_of_mem e hf) xs
    have haccepted :
        d.accepted ++ (sub e).toList ++ es.filterMap sub = d.accepted ++
        (e :: es).filterMap sub := by
      cases he : sub e <;> simp [he]
    rwa [List.append_assoc, List.singleton_append, Device.accept, haccepted] at hnext

end Interleaves

end HrxSystem.Timeline
