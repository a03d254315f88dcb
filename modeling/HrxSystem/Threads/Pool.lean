import Mathlib.Algebra.BigOperators.Group.Multiset.Basic
import Mathlib.Logic.Function.Basic

namespace HrxSystem.Threads

variable {L S K A V M : Type}

/-- Threads that work on a common state. `locals` holds what each of them is about to do. -/
structure Pool (S K : Type) where
  shared : S
  locals : Multiset K

/-- What some threads can do: they put `ys` in the place of their local states `xs`, and the events
`ls` are seen. -/
abbrev Rule (L S K : Type) := S → Multiset K → List L → S → Multiset K → Prop

namespace Pool

variable {rule : Rule L S K} {p p' p'' : Pool S K} {ls ms : List L}

/-- The threads take turns, in any order. -/
inductive Run (rule : Rule L S K) (p : Pool S K) : List L → Pool S K → Prop
  | start : Run rule p [] p
  | step {s s' : S} {xs ys : Multiset K} {ls ms : List L} (others : Multiset K) :
      Run rule p ls ⟨s, xs + others⟩ → rule s xs ms s' ys → Run rule p (ls ++ ms) ⟨s', ys + others⟩

/-- What each rule keeps, whatever the other threads are about to do, holds of every pool that is
reached. -/
theorem Run.keeps {I : List L → Pool S K → Prop} (h : Run rule p ls p') (hp : I [] p)
    (hI : ∀ s xs ls ms s' ys others, rule s xs ms s' ys → I ls ⟨s, xs + others⟩ →
      I (ls ++ ms) ⟨s', ys + others⟩) :
    I ls p' := by
  induction h with
  | start => exact hp
  | step others _ hrule ih => exact hI _ _ _ _ _ _ others hrule ih

theorem Run.trans (h : Run rule p ls p') (h' : Run rule p' ms p'') : Run rule p (ls ++ ms) p'' := by
  induction h' with
  | start => rwa [List.append_nil]
  | step others _ hrule ih =>
    rw [← List.append_assoc]
    exact .step others ih hrule

theorem Run.one {s s' : S} {xs ys : Multiset K} (h : rule s xs ls s' ys) :
    Run rule ⟨s, xs⟩ ls ⟨s', ys⟩ := by
  have hstart : Run rule ⟨s, xs⟩ [] ⟨s, xs + 0⟩ := by
    rw [add_zero]
    exact .start
  simpa only [add_zero, List.nil_append] using Run.step 0 hstart h

theorem Run.beside (others : Multiset K) (h : Run rule p ls p') :
    Run rule ⟨p.shared, p.locals + others⟩ ls ⟨p'.shared, p'.locals + others⟩ := by
  induction h with
  | start => exact .start
  | @step s s' xs ys ls ms rest _ hrule ih =>
    simp only [add_assoc] at ih ⊢
    exact .step _ ih hrule

end Pool

section Sums

variable [AddCommMonoid M] {w : K → M}

def sumOf (w : K → M) (xs : Multiset K) : M := (xs.map w).sum

@[simp] theorem sumOf_zero : sumOf w 0 = 0 := rfl

@[simp] theorem sumOf_singleton (x : K) : sumOf w {x} = w x := by simp [sumOf]

@[simp] theorem sumOf_cons (x : K) (xs : Multiset K) :
    sumOf w (x ::ₘ xs) = w x + sumOf w xs := by simp [sumOf]

@[simp] theorem sumOf_add (xs ys : Multiset K) :
    sumOf w (xs + ys) = sumOf w xs + sumOf w ys := by simp [sumOf]

theorem sumOf_congr {w' : K → M} {xs : Multiset K} (h : ∀ x ∈ xs, w x = w' x) :
    sumOf w xs = sumOf w' xs := by
  rw [sumOf, sumOf, Multiset.map_congr rfl h]

@[simp] theorem sumOf_map (f : A → K) (s : Multiset A) :
    sumOf w (s.map f) = sumOf (fun x ↦ w (f x)) s := by
  simp [sumOf, Multiset.map_map]

@[simp] theorem sumOf_nothing (xs : Multiset K) : sumOf (fun _ ↦ (0 : M)) xs = 0 := by simp [sumOf]

@[simp] theorem sumOf_names (s : Multiset A) : sumOf (fun x ↦ {x}) s = s :=
  Multiset.sum_map_singleton s

theorem mem_sumOf {w : K → Multiset A} {xs : Multiset K} {a : A} :
    a ∈ sumOf w xs ↔ ∃ x ∈ xs, a ∈ w x := by
  induction xs using Multiset.induction_on with
  | empty => simp
  | cons x xs ih => simp [ih]

end Sums

/-- Every block of a heap belongs to one thread, and is its thread's only once. -/
structure Exclusive (cell : A → Option V) (owned : Multiset A) : Prop where
  once : owned.Nodup
  live : ∀ a, a ∈ owned ↔ (cell a).isSome = true

namespace Exclusive

variable {cell : A → Option V} {owned : Multiset A} {a b : A}

theorem empty : Exclusive (fun _ : A ↦ (none : Option V)) 0 :=
  ⟨Multiset.nodup_zero, fun _ ↦ by simp⟩

theorem elsewhere (h : Exclusive cell (a ::ₘ owned)) (hb : b ∈ owned) : b ≠ a := by
  rintro rfl
  exact (Multiset.nodup_cons.mp h.once).1 hb

theorem nothing (h : Exclusive cell 0) (a : A) : cell a = none := by
  rw [← Option.not_isSome_iff_eq_none, ← h.live]
  exact Multiset.notMem_zero a

variable [DecidableEq A]

theorem alloc (h : Exclusive cell owned) (ha : cell a = none) (v : V) :
    Exclusive (Function.update cell a (some v)) (a ::ₘ owned) := by
  have hnew : a ∉ owned := by
    rw [h.live, ha]
    exact Bool.false_ne_true
  refine ⟨Multiset.nodup_cons.mpr ⟨hnew, h.once⟩, fun b ↦ ?_⟩
  by_cases hb : b = a
  · simp [hb]
  · rw [Function.update_of_ne hb, Multiset.mem_cons, ← h.live]
    exact or_iff_right hb

theorem write (h : Exclusive cell owned) (ha : a ∈ owned) (v : V) :
    Exclusive (Function.update cell a (some v)) owned := by
  refine ⟨h.once, fun b ↦ ?_⟩
  by_cases hb : b = a
  · simp [hb, ha]
  · rw [Function.update_of_ne hb, h.live]

theorem free (h : Exclusive cell (a ::ₘ owned)) :
    Exclusive (Function.update cell a none) owned := by
  obtain ⟨hnot, honce⟩ := Multiset.nodup_cons.mp h.once
  refine ⟨honce, fun b ↦ ?_⟩
  by_cases hb : b = a
  · simp [hb, hnot]
  · rw [Function.update_of_ne hb, ← h.live, Multiset.mem_cons, or_iff_right hb]

end Exclusive

end HrxSystem.Threads
