import Mathlib.Logic.Relation
import Mathlib.Order.WellFounded

namespace HrxSystem.Threads

open Relation

inductive Place
  | outside | inside | finished
deriving DecidableEq

/-- Threads that take steps on a common state. A thread whose next step is not possible is blocked;
what it is about to do changes by its own steps only. -/
structure System (T S : Type) where
  place : S → T → Place
  next : T → S → S → Prop
  frame : ∀ {i j s s'}, next i s s' → j ≠ i → place s' j = place s j
  stops : ∀ {i s s'}, next i s s' → place s i ≠ .finished

namespace System

variable {T S : Type} (p : System T S)

def Step (s s' : S) : Prop := ∃ i, p.next i s s'

abbrev Reaches : S → S → Prop := ReflTransGen p.Step

def Stuck (s : S) : Prop := (∃ i, p.place s i ≠ .finished) ∧ ∀ s', ¬ p.Step s s'

def DeadlockFree (s₀ : S) : Prop := ∀ s, p.Reaches s₀ s → ¬ p.Stuck s

def OutsideStep (s s' : S) : Prop := ∃ i, p.place s i = .outside ∧ p.next i s s'

/-- One lock around every guarded call: a thread takes it, makes the call and gives it back. -/
inductive LockedNext (i : T) : S × Option T → S × Option T → Prop
  | acquire {s : S} : p.place s i = .inside → LockedNext i (s, none) (s, some i)
  | call {s s' : S} : p.place s i = .inside → p.next i s s' → LockedNext i (s, some i) (s', none)
  | outside {s s' : S} {h : Option T} : p.place s i = .outside → p.next i s s' →
      LockedNext i (s, h) (s', h)

def locked : System T (S × Option T) where
  place x := p.place x.1
  next := p.LockedNext
  frame hnext hj := by
    cases hnext with
    | acquire => rfl
    | call _ h | outside _ h => exact p.frame h hj
  stops hnext := by
    cases hnext with
    | acquire h => simp [h]
    | call _ h | outside _ h => exact p.stops h

variable {p} {s₀ s s' : S} {i : T}

/-- Without waiting threads the lock changes nothing: each step can be taken with the lock free
before and after it. -/
theorem Reaches.locked (h : p.Reaches s s') : p.locked.Reaches (s, none) (s', none) := by
  induction h with
  | refl => exact .refl
  | @tail b c _ hstep ih =>
    obtain ⟨i, hi⟩ := hstep
    cases hplace : p.place b i with
    | outside => exact ih.tail ⟨i, .outside hplace hi⟩
    | inside => exact (ih.tail ⟨i, .acquire hplace⟩).tail ⟨i, .call hplace hi⟩
    | finished => exact absurd hplace (p.stops hi)

theorem outside_locked (hl : Option T) (h : ReflTransGen p.OutsideStep s s') :
    p.locked.Reaches (s, hl) (s', hl) := by
  induction h with
  | refl => exact .refl
  | tail _ hstep ih =>
    obtain ⟨j, hj, hnext⟩ := hstep
    exact ih.tail ⟨j, .outside hj hnext⟩

theorem outside_place (h : ReflTransGen p.OutsideStep s s') (hi : p.place s i = .inside) :
    p.place s' i = .inside := by
  induction h with
  | refl => exact hi
  | tail _ hstep ih =>
    obtain ⟨j, hj, hnext⟩ := hstep
    rw [p.frame hnext, ih]
    rintro rfl
    rw [ih] at hj
    cases hj

theorem locked_next_unique {x y z : S × Option T}
    (huniq : ∀ s s' s'', p.next i s s' → p.next i s s'' → s' = s'') (h : p.LockedNext i x y)
    (h' : p.LockedNext i x z) : y = z := by
  cases h with
  | acquire hplace =>
    cases h' with
    | acquire => rfl
    | outside hplace' => cases hplace.symm.trans hplace'
  | call hplace hnext =>
    cases h' with
    | call _ hnext' => rw [huniq _ _ _ hnext hnext']
    | outside hplace' => cases hplace.symm.trans hplace'
  | outside hplace hnext =>
    cases h' with
    | acquire hplace' | call hplace' => cases hplace.symm.trans hplace'
    | outside _ hnext' => rw [huniq _ _ _ hnext hnext']

/-- Under the lock nothing is reached that is not reached without it, and its holder is about to
make its call. -/
theorem locked_reaches {x : S × Option T} (h : p.locked.Reaches (s₀, none) x) :
    p.Reaches s₀ x.1 ∧ ∀ i, x.2 = some i → p.place x.1 i = .inside := by
  induction h with
  | refl => exact ⟨.refl, fun i hi ↦ by cases hi⟩
  | tail _ hstep ih =>
    obtain ⟨i, hi⟩ := hstep
    cases hi with
    | acquire hplace => exact ⟨ih.1, fun j hj ↦ Option.some.inj hj ▸ hplace⟩
    | call _ hnext => exact ⟨ih.1.tail ⟨i, hnext⟩, fun j hj ↦ by cases hj⟩
    | @outside s s' hl hplace hnext =>
      refine ⟨ih.1.tail ⟨i, hnext⟩, fun j hj ↦ ?_⟩
      exact outside_place (.single ⟨i, hplace, hnext⟩) (ih.2 j hj)

/-- When every sequence of steps ends, the threads can step outside until none of them can. -/
theorem exists_quiet (hwf : WellFounded fun s' s ↦ p.Step s s') (s : S) :
    ∃ s', ReflTransGen p.OutsideStep s s' ∧ ∀ s'', ¬ p.OutsideStep s' s'' := by
  induction s using hwf.induction with
  | _ s ih =>
    by_cases h : ∃ s', p.OutsideStep s s'
    · obtain ⟨s', hs'⟩ := h
      obtain ⟨i, -, hi⟩ := id hs'
      obtain ⟨s'', hrun, hquiet⟩ := ih s' ⟨i, hi⟩
      exact ⟨s'', .head hs' hrun, hquiet⟩
    · exact ⟨s, .refl, fun s' hs' ↦ h ⟨s', hs'⟩⟩

/-- A lock around the guarded calls brings no deadlock if and only if no guarded call ever waits for
another one: whenever a thread is about to make one, steps outside the lock are enough for it to
return. -/
theorem locked_deadlockFree_iff (hwf : WellFounded fun s' s ↦ p.Step s s')
    (hfree : p.DeadlockFree s₀) :
    p.locked.DeadlockFree (s₀, none) ↔
      ∀ s, p.Reaches s₀ s → ∀ i, p.place s i = .inside →
        ∃ s', ReflTransGen p.OutsideStep s s' ∧ ∃ s'', p.next i s' s'' := by
  constructor
  · intro h s hs i hi
    by_contra hwaits
    obtain ⟨s', hrun, hquiet⟩ := exists_quiet hwf s
    have hplace := outside_place hrun hi
    refine h (s', some i) ((hs.locked.tail ⟨i, .acquire hi⟩).trans (outside_locked _ hrun))
      ⟨⟨i, by simp [System.locked, hplace]⟩, ?_⟩
    rintro x ⟨j, hj⟩
    cases hj with
    | call _ hnext => exact hwaits ⟨s', hrun, _, hnext⟩
    | outside hout hnext => exact hquiet _ ⟨j, hout, hnext⟩
  · rintro h ⟨s, holder⟩ hs ⟨⟨j, hj⟩, hstuck⟩
    obtain ⟨hreach, hholder⟩ := locked_reaches hs
    cases holder with
    | some i =>
      have hi := hholder i rfl
      obtain ⟨s', hrun, s'', hnext⟩ := h s hreach i hi
      -- either the holder's call returns at once or another thread steps first
      rcases hrun.cases_head with rfl | ⟨t, ⟨k, hk, hknext⟩, -⟩
      · exact hstuck _ ⟨i, .call hi hnext⟩
      · exact hstuck _ ⟨k, .outside hk hknext⟩
    | none =>
      refine hfree s hreach ⟨⟨j, hj⟩, fun s' ⟨k, hk⟩ ↦ ?_⟩
      cases hplace : p.place s k with
      | outside => exact hstuck _ ⟨k, .outside hplace hk⟩
      | inside => exact hstuck _ ⟨k, .acquire hplace⟩
      | finished => exact p.stops hk hplace

end System

end HrxSystem.Threads
