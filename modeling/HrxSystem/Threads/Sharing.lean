import HrxSystem.Threads.Pool
import Mathlib.Algebra.BigOperators.Group.Finset.Basic
import Mathlib.Algebra.GroupWithZero.Nat
import Mathlib.Algebra.Order.BigOperators.Group.Multiset
import Mathlib.Data.Multiset.AddSub
import Mathlib.Data.Finset.Max

namespace HrxSystem.Threads

open scoped BigOperators

variable {A B R V M : Type} [DecidableEq A]

structure Cells (A V : Type) where
  cell : A → Option V
  names : Finset A
  outside : ∀ a ∉ names, cell a = none

namespace Cells

variable {t : Cells A V} {a b : A} {v : Option V}

def empty : Cells A V := ⟨fun _ ↦ none, ∅, fun _ _ ↦ rfl⟩

def put (t : Cells A V) (a : A) (v : Option V) : Cells A V where
  cell := Function.update t.cell a v
  names := insert a t.names
  outside b hb := by
    obtain ⟨hne, hb⟩ := not_or.mp (Finset.mem_insert.not.mp hb)
    rw [Function.update_of_ne hne, t.outside b hb]

@[simp] theorem put_cell_self (t : Cells A V) (a : A) (v : Option V) : (t.put a v).cell a = v :=
  Function.update_self ..

theorem put_cell_of_ne (t : Cells A V) (v : Option V) (hb : b ≠ a) :
    (t.put a v).cell b = t.cell b :=
  Function.update_of_ne hb ..

section Total

variable [AddCommMonoid M]

def total (f : V → M) (t : Cells A V) : M := ∑ a ∈ t.names, (t.cell a).elim 0 f

omit [DecidableEq A] in
@[simp] theorem total_empty (f : V → M) : total f (empty : Cells A V) = 0 := rfl

omit [DecidableEq A] in
theorem total_eq_sum (f : V → M) (t : Cells A V) {s : Finset A} (hs : t.names ⊆ s) :
    total f t = ∑ a ∈ s, (t.cell a).elim 0 f := by
  refine Finset.sum_subset hs fun a _ ha ↦ ?_
  rw [t.outside a ha, Option.elim_none]

theorem total_put (f : V → M) (t : Cells A V) (a : A) (v : Option V) :
    total f (t.put a v) + (t.cell a).elim 0 f = total f t + v.elim 0 f := by
  have ha : a ∈ insert a t.names := Finset.mem_insert_self a _
  have hrest : ∑ b ∈ (insert a t.names).erase a, ((t.put a v).cell b).elim 0 f =
      ∑ b ∈ (insert a t.names).erase a, (t.cell b).elim 0 f := by
    refine Finset.sum_congr rfl fun b hb ↦ ?_
    rw [put_cell_of_ne t v (Finset.ne_of_mem_erase hb)]
  have hnew := Finset.add_sum_erase _ (fun b ↦ ((t.put a v).cell b).elim 0 f) ha
  have hold := Finset.add_sum_erase _ (fun b ↦ (t.cell b).elim 0 f) ha
  rw [total_eq_sum f t (Finset.subset_insert a _), ← hold, total, put]
  change ∑ b ∈ insert a t.names, ((t.put a v).cell b).elim 0 f + _ = _
  rw [← hnew, hrest, put_cell_self, add_right_comm, add_comm _ (v.elim 0 f), ← add_assoc,
    add_right_comm]

end Total

def tally (f : V → ℕ) (a : A) (v : Option V) : Multiset A := .replicate (v.elim 0 f) a

omit [DecidableEq A] in
@[simp] theorem tally_none (f : V → ℕ) (a : A) : tally f a none = 0 := rfl

omit [DecidableEq A] in
@[simp] theorem tally_some (f : V → ℕ) (a : A) (v : V) : tally f a (some v) = .replicate (f v) a :=
  rfl

theorem tally_put (f : V → ℕ) (t : Cells A V) (a : A) (v : Option V) (c : A) :
    ((t.put a v).cell c).elim 0 f + (tally f a (t.cell a)).count c =
      (t.cell c).elim 0 f + (tally f a v).count c := by
  rw [tally, tally, Multiset.count_replicate, Multiset.count_replicate]
  by_cases hc : a = c
  · subst hc
    rw [put_cell_self, if_pos rfl, if_pos rfl, add_comm]
  · rw [put_cell_of_ne t v (Ne.symm hc), if_neg hc, if_neg hc]

theorem mem_total {C : Type} {f : V → Multiset C} {c : C} :
    c ∈ total f t ↔ ∃ a v, t.cell a = some v ∧ c ∈ f v := by
  rw [total, Multiset.mem_sum]
  constructor
  · rintro ⟨a, -, hc⟩
    cases hv : t.cell a with
    | none =>
      rw [hv] at hc
      exact absurd hc (Multiset.notMem_zero c)
    | some v =>
      rw [hv] at hc
      exact ⟨a, v, hv, hc⟩
  · rintro ⟨a, v, hv, hc⟩
    refine ⟨a, ?_, by rwa [hv]⟩
    by_contra ha
    rw [t.outside a ha] at hv
    cases hv

end Cells

/-- What objects hold: parts of their own, and references to objects of lower rank. -/
structure Layout (A B R : Type) where
  parts : B → Multiset R
  refs : B → Multiset A
  fits : A → B → Prop
  rank : A → ℕ
  below : ∀ a b, fits a b → ∀ r ∈ refs b, rank r < rank a

namespace Sharing

inductive ShareEvent (A B R : Type)
  | made (a : A) (b : B)
  | released (r : R)
  | freed (a : A)
deriving DecidableEq

/-- What a thread still has to do. Whoever has a reference has to give it up. -/
inductive Task (A R : Type)
  | give (a : A)
  | part (r : R)
  | free (a : A)

/-- The steps of threads that share objects with strong counts. Who gives up the last reference
drops the object: it releases the parts, gives up the references and frees the memory, in some
order. -/
inductive Step (lay : Layout A B R) : Rule (ShareEvent A B R) (Cells A (ℕ × B)) (List (Task A R))
  | make {t : Cells A (ℕ × B)} {a : A} {b : B} : t.cell a = none → lay.fits a b →
      Step lay t ((lay.refs b).map fun r ↦ [.give r]) [.made a b]
        (t.put a (some (1, b))) {[.give a]}
  | retain {t : Cells A (ℕ × B)} {a : A} {n : ℕ} {b : B} : t.cell a = some (n, b) →
      Step lay t {[.give a]} [] (t.put a (some (n + 1, b))) {[.give a], [.give a]}
  | give {t : Cells A (ℕ × B)} {a : A} {n : ℕ} {b : B} {ts : List (Task A R)} :
      t.cell a = some (n + 2, b) →
      Step lay t {.give a :: ts} [] (t.put a (some (n + 1, b))) {ts}
  | last {t : Cells A (ℕ × B)} {a : A} {b : B} {ts us : List (Task A R)} : t.cell a = some (1, b) →
      (us : Multiset (Task A R)) = (lay.parts b).map .part + (lay.refs b).map .give + {.free a} →
      Step lay t {.give a :: ts} [] (t.put a (some (0, b))) {us ++ ts}
  | part {t : Cells A (ℕ × B)} {r : R} {ts : List (Task A R)} : Step lay t {.part r :: ts}
      [.released r] t {ts}
  | free {t : Cells A (ℕ × B)} {a : A} {ts : List (Task A R)} :
      Step lay t {.free a :: ts} [.freed a] (t.put a none) {ts}
  | done {t : Cells A (ℕ × B)} : Step lay t {[]} [] t 0

namespace Task

def gives : Task A R → Multiset A
  | give a => {a}
  | _ => 0

def parts : Task A R → Multiset R
  | part r => {r}
  | _ => 0

def frees : Task A R → Multiset A
  | free a => {a}
  | _ => 0

end Task

def outstanding [AddCommMonoid M] (w : Task A R → M) (xs : Multiset (List (Task A R))) : M :=
  sumOf (fun ts : List (Task A R) ↦ sumOf w ts) xs

/-- What an object holds until the last reference to it is given up. -/
def whileLive [Zero M] (f : B → M) (v : ℕ × B) : M := if v.1 = 0 then 0 else f v.2

@[simp] theorem whileLive_zero [Zero M] (f : B → M) (b : B) : whileLive f (0, b) = 0 := rfl

@[simp] theorem whileLive_succ [Zero M] (f : B → M) (n : ℕ) (b : B) :
    whileLive f (n + 1, b) = f b := rfl

def madeObjects (ls : List (ShareEvent A B R)) : Multiset (A × B) :=
  ls.filterMap fun l ↦ match l with
    | .made a b => some (a, b)
    | _ => none

def releasedParts (ls : List (ShareEvent A B R)) : Multiset R :=
  ls.filterMap fun l ↦ match l with
    | .released r => some r
    | _ => none

def freedObjects (ls : List (ShareEvent A B R)) : Multiset A :=
  ls.filterMap fun l ↦ match l with
    | .freed a => some a
    | _ => none

def madeNames (ls : List (ShareEvent A B R)) : Multiset A := (madeObjects ls).map Prod.fst

/-- The parts that came with the objects made. -/
def ownedParts (lay : Layout A B R) (ls : List (ShareEvent A B R)) : Multiset R :=
  sumOf (fun x : A × B ↦ lay.parts x.2) (madeObjects ls)

/-- Strong counts tell how many references there are. An object with none is being dropped by one
thread. What objects brought along was released, is still theirs, or is being released. -/
structure Inv (lay : Layout A B R) (ls : List (ShareEvent A B R)) (t : Cells A (ℕ × B))
    (xs : Multiset (List (Task A R))) : Prop where
  counted : ∀ a,
    (t.cell a).elim 0 Prod.fst = (outstanding Task.gives xs + t.total (whileLive lay.refs)).count a
  dying : ∀ a, (outstanding Task.frees xs).count a = (t.cell a).elim 0 fun v ↦
    if v.1 = 0 then 1 else 0
  settled : ownedParts lay ls = releasedParts ls + t.total
    (whileLive lay.parts) + outstanding Task.parts xs
  freed : ∀ a, (madeNames ls).count a = (freedObjects ls).count a + (t.cell a).elim 0 fun _ ↦ 1
  fits : ∀ a n b, t.cell a = some (n, b) → lay.fits a b

section Outstanding

variable [AddCommMonoid M] (w : Task A R → M)

omit [DecidableEq A] in
@[simp] theorem outstanding_zero : outstanding w 0 = 0 := rfl

omit [DecidableEq A] in
@[simp] theorem outstanding_add (xs ys : Multiset (List (Task A R))) :
    outstanding w (xs + ys) = outstanding w xs + outstanding w ys := sumOf_add ..

omit [DecidableEq A] in
@[simp] theorem outstanding_insert (ts : List (Task A R)) (xs : Multiset (List (Task A R))) :
    outstanding w (ts ::ₘ xs) = outstanding w {ts} + outstanding w xs := by simp [outstanding]

omit [DecidableEq A] in
@[simp] theorem outstanding_nil : outstanding w {[]} = 0 := by simp [outstanding]

omit [DecidableEq A] in
@[simp] theorem outstanding_cons (x : Task A R) (ts : List (Task A R)) :
    outstanding w {x :: ts} = w x + outstanding w {ts} := by
  rw [outstanding, outstanding, sumOf_singleton, sumOf_singleton, ← Multiset.cons_coe, sumOf_cons]

omit [DecidableEq A] in
theorem outstanding_append (us ts : List (Task A R)) :
    outstanding w {us ++ ts} = sumOf w us + outstanding w {ts} := by
  rw [outstanding, outstanding, sumOf_singleton, sumOf_singleton, ← Multiset.coe_add, sumOf_add]

omit [DecidableEq A] in
theorem outstanding_give (s : Multiset A) :
    outstanding w (s.map fun a ↦ [.give a]) = sumOf (fun a ↦ w (.give a)) s := by
  induction s using Multiset.induction_on with
  | empty => rfl
  | cons a s ih =>
    rw [Multiset.map_cons, ← Multiset.singleton_add, outstanding_add, ih, outstanding_cons,
      outstanding_nil, add_zero, sumOf_cons]

end Outstanding

section Append

variable (lay : Layout A B R) (ls ms : List (ShareEvent A B R))

omit [DecidableEq A] in
@[simp] theorem madeObjects_append :
    madeObjects (ls ++ ms) = madeObjects ls + madeObjects ms := by simp [madeObjects]

omit [DecidableEq A] in
@[simp] theorem madeNames_append :
    madeNames (ls ++ ms) = madeNames ls + madeNames ms := by simp [madeNames]

omit [DecidableEq A] in
@[simp] theorem releasedParts_append :
    releasedParts (ls ++ ms) = releasedParts ls + releasedParts ms := by
  simp [releasedParts]

omit [DecidableEq A] in
@[simp] theorem freedObjects_append :
    freedObjects (ls ++ ms) = freedObjects ls + freedObjects ms := by
  simp [freedObjects]

omit [DecidableEq A] in
@[simp] theorem ownedParts_append :
    ownedParts lay (ls ++ ms) = ownedParts lay ls + ownedParts lay ms := by
  simp [ownedParts]

end Append

section Next

open Cells

variable {lay : Layout A B R} {ls ms : List (ShareEvent A B R)} {t t' : Cells A (ℕ × B)}
variable {xs ys others : Multiset (List (Task A R))} {a : A} {v : Option (ℕ × B)}

/-- A step that changes one cell, with what it has to keep in balance. -/
theorem Inv.put (h : Inv lay ls t (xs + others))
    (hgives : tally Prod.fst a v + outstanding Task.gives xs + (t.cell a).elim 0
      (whileLive lay.refs) =
      tally Prod.fst a (t.cell a) + outstanding Task.gives ys + v.elim 0 (whileLive lay.refs))
    (hfrees : outstanding Task.frees ys + tally (fun u ↦ if u.1 = 0 then 1 else 0) a (t.cell a) =
      outstanding Task.frees xs + tally (fun u ↦ if u.1 = 0 then 1 else 0) a v)
    (hparts : ownedParts lay ms + outstanding Task.parts xs + (t.cell a).elim 0
      (whileLive lay.parts) =
      releasedParts ms + outstanding Task.parts ys + v.elim 0 (whileLive lay.parts))
    (hfreed : madeNames ms + tally (fun _ ↦ 1) a (t.cell a) =
      freedObjects ms + tally (fun _ ↦ 1) a v)
    (hfits : ∀ n b, v = some (n, b) → lay.fits a b) :
    Inv lay (ls ++ ms) (t.put a v) (ys + others) := by
  refine ⟨fun c ↦ ?_, fun c ↦ ?_, ?_, fun c ↦ ?_, ?_⟩
  · have hold := h.counted c
    have hcell := tally_put Prod.fst t a v c
    have htotal := congrArg (Multiset.count c) (total_put (whileLive lay.refs) t a v)
    have hbalance := congrArg (Multiset.count c) hgives
    simp only [outstanding_add, Multiset.count_add] at hold htotal hbalance ⊢
    omega
  · have hold := h.dying c
    have hcell := tally_put (fun u ↦ if u.1 = 0 then 1 else 0) t a v c
    have hbalance := congrArg (Multiset.count c) hfrees
    simp only [outstanding_add, Multiset.count_add] at hold hbalance ⊢
    omega
  · have hold := h.settled
    have htotal := total_put (whileLive lay.parts) t a v
    rw [ownedParts_append, releasedParts_append, outstanding_add]
    rw [outstanding_add] at hold
    refine add_right_cancel (b := (t.cell a).elim 0 (whileLive lay.parts)) ?_
    calc
      ownedParts lay ls + ownedParts lay ms + (t.cell a).elim 0 (whileLive lay.parts) =
          releasedParts ls + total (whileLive lay.parts) t + outstanding Task.parts others +
            (ownedParts lay ms + outstanding Task.parts xs + (t.cell a).elim 0
              (whileLive lay.parts)) := by
        rw [hold]
        ac_rfl
      _ = releasedParts ls + releasedParts
        ms + (total (whileLive lay.parts) t + v.elim 0 (whileLive lay.parts)) +
            (outstanding Task.parts ys + outstanding Task.parts others) := by
        rw [hparts]
        ac_rfl
      _ = _ := by
        rw [← htotal]
        ac_rfl
  · have hold := h.freed c
    have hcell := tally_put (fun _ ↦ 1) t a v c
    have hbalance := congrArg (Multiset.count c) hfreed
    simp only [madeNames_append, freedObjects_append, Multiset.count_add] at hold hbalance ⊢
    omega
  · intro c n b hc
    by_cases hca : c = a
    · subst hca
      rw [put_cell_self] at hc
      exact hfits n b hc
    · rw [put_cell_of_ne t v hca] at hc
      exact h.fits c n b hc

theorem Inv.same (h : Inv lay ls t (xs + others))
    (hgives : outstanding Task.gives xs = outstanding Task.gives ys)
    (hfrees : outstanding Task.frees xs = outstanding Task.frees ys)
    (hparts : ownedParts lay ms + outstanding Task.parts xs =
      releasedParts ms + outstanding Task.parts ys)
    (hfreed : madeNames ms = freedObjects ms) : Inv lay (ls ++ ms) t (ys + others) := by
  refine ⟨fun c ↦ ?_, fun c ↦ ?_, ?_, fun c ↦ ?_, h.fits⟩
  · rw [h.counted, outstanding_add, outstanding_add, hgives]
  · rw [← h.dying, outstanding_add, outstanding_add, hfrees]
  · have hold := h.settled
    rw [outstanding_add] at hold
    rw [ownedParts_append, releasedParts_append, outstanding_add]
    calc
      ownedParts lay ls + ownedParts lay ms = releasedParts ls + total
        (whileLive lay.parts) t + outstanding Task.parts others +
          (ownedParts lay ms + outstanding Task.parts xs) := by
        rw [hold]
        ac_rfl
      _ = _ := by
        rw [hparts]
        ac_rfl
  · rw [madeNames_append, freedObjects_append, Multiset.count_add, Multiset.count_add,
      h.freed, hfreed]
    exact Nat.add_right_comm ..

theorem Inv.live (h : Inv lay ls t xs)
    (ha : a ∈ outstanding Task.gives xs + t.total (whileLive lay.refs)) :
    ∃ n b, t.cell a = some (n + 1, b) := by
  have hcount := h.counted a
  have hpos := Multiset.count_pos.mpr ha
  cases hcell : t.cell a with
  | none =>
    rw [hcell, Option.elim_none] at hcount
    omega
  | some u =>
    rw [hcell, Option.elim_some] at hcount
    exact ⟨u.1 - 1, u.2, by rw [Nat.sub_add_cancel (by omega)]⟩

theorem Inv.live_of_give {ts : List (Task A R)} (h : Inv lay ls t ({.give a :: ts} + others)) :
    ∃ n b, t.cell a = some (n + 1, b) := by
  refine h.live (Multiset.mem_add.mpr (.inl ?_))
  rw [outstanding_add, outstanding_cons]
  exact Multiset.mem_add.mpr (.inl (Multiset.mem_add.mpr (.inl (Multiset.mem_singleton_self a))))

theorem Inv.dropped_of_free {ts : List (Task A R)} (h : Inv lay ls t ({.free a :: ts} + others)) :
    ∃ b, t.cell a = some (0, b) := by
  have hdying := h.dying a
  rw [outstanding_add, outstanding_cons, Multiset.count_add, Multiset.count_add, Task.frees,
    Multiset.count_singleton_self] at hdying
  cases hcell : t.cell a with
  | none =>
    rw [hcell, Option.elim_none] at hdying
    omega
  | some u =>
    rw [hcell, Option.elim_some] at hdying
    split at hdying
    · exact ⟨u.2, by rw [← ‹u.1 = 0›]⟩
    · omega

theorem Inv.next (h : Inv lay ls t (xs + others)) (hstep : Step lay t xs ms t' ys) :
    Inv lay (ls ++ ms) t' (ys + others) := by
  cases hstep with
  | @make t a b hcell hfits =>
    refine h.put ?_ ?_ ?_ ?_ ?_
    · simp [hcell, outstanding_give, Task.gives]
    · simp [hcell, outstanding_give, Task.frees]
    · simp [hcell, outstanding_give, Task.parts, ownedParts, madeObjects, releasedParts]
    · simp [hcell, madeNames, madeObjects, freedObjects]
    · rintro n b' ⟨rfl, rfl⟩
      exact hfits
  | @retain t a n b hcell =>
    obtain ⟨m, b', hlive⟩ := h.live_of_give
    obtain ⟨rfl, rfl⟩ := Prod.mk.inj (Option.some.inj (hcell.symm.trans hlive))
    refine h.put ?_ ?_ ?_ ?_ ?_
    · simp [hcell, Task.gives, Multiset.replicate_succ, ← Multiset.singleton_add, add_comm,
        add_left_comm]
    · simp [hcell, Task.frees]
    · simp [hcell, Task.parts, ownedParts, madeObjects, releasedParts]
    · simp [hcell, madeNames, madeObjects, freedObjects]
    · rintro n' b' ⟨rfl, rfl⟩
      exact h.fits a _ b hcell
  | @give t a n b ts hcell =>
    refine h.put ?_ ?_ ?_ ?_ ?_
    · simp [hcell, Task.gives, Multiset.replicate_succ]
    · simp [hcell, Task.frees]
    · simp [hcell, Task.parts, ownedParts, madeObjects, releasedParts]
    · simp [hcell, madeNames, madeObjects, freedObjects]
    · rintro n' b' ⟨rfl, rfl⟩
      exact h.fits a _ b hcell
  | @last t a b ts us hcell hus =>
    have hone : whileLive lay.refs (1, b) = lay.refs b ∧ whileLive lay.parts (1, b) = lay.parts b :=
      ⟨rfl, rfl⟩
    refine h.put ?_ ?_ ?_ ?_ ?_
    · simp [hcell, hone, outstanding_append, hus, Task.gives, add_comm]
    · simp [hcell, outstanding_append, hus, Task.frees, add_comm]
    · simp [hcell, hone, outstanding_append, hus, Task.parts, ownedParts, madeObjects,
        releasedParts, add_comm]
    · simp [hcell, madeNames, madeObjects, freedObjects]
    · rintro n' b' ⟨rfl, rfl⟩
      exact h.fits a _ b hcell
  | @part t r ts =>
    refine h.same ?_ ?_ ?_ ?_
    · simp [Task.gives]
    · simp [Task.frees]
    · simp [Task.parts, ownedParts, madeObjects, releasedParts]
    · simp [madeNames, madeObjects, freedObjects]
  | @free t a ts =>
    obtain ⟨b, hcell⟩ := h.dropped_of_free
    refine h.put ?_ ?_ ?_ ?_ fun n b' hnone ↦ ?_
    · simp [hcell, Task.gives]
    · simp [hcell, Task.frees, add_comm]
    · simp [hcell, Task.parts, ownedParts, madeObjects, releasedParts]
    · simp [hcell, madeNames, madeObjects, freedObjects]
    · cases hnone
  | done => exact h.same rfl rfl rfl rfl

theorem Inv.start (lay : Layout A B R) : Inv lay [] (.empty : Cells A (ℕ × B)) 0 :=
  ⟨fun _ ↦ rfl, fun _ ↦ rfl, rfl, fun _ ↦ rfl, fun _ _ _ h ↦ by cases h⟩

theorem Inv.run {p p' : Pool (Cells A (ℕ × B)) (List (Task A R))} (h : Inv lay ls p.shared p.locals)
    (hrun : Pool.Run (Step lay) p ms p') : Inv lay (ls ++ ms) p'.shared p'.locals :=
  hrun.keeps (I := fun ms p ↦ Inv lay (ls ++ ms) p.shared p.locals) (by rwa [List.append_nil])
    fun _ _ ms _ _ _ _ hstep hinv ↦ by
      rw [← List.append_assoc]
      exact hinv.next hstep

theorem Inv.of_run {p : Pool (Cells A (ℕ × B)) (List (Task A R))}
    (hrun : Pool.Run (Step lay) ⟨.empty, 0⟩ ls p) : Inv lay ls p.shared p.locals := by
  simpa only [List.nil_append] using (Inv.start lay).run hrun

def work (lay : Layout A B R) (t : Cells A (ℕ × B)) (xs : Multiset (List (Task A R))) : ℕ :=
  outstanding (fun _ ↦ 1) xs + xs.card + t.total
    (whileLive fun b ↦ (lay.parts b).card + (lay.refs b).card + 1)

/-- A thread with something to do is never stuck, and it has less to do after its step. -/
theorem Inv.can_step {ts : List (Task A R)} (h : Inv lay ls t ({ts} + others)) :
    ∃ ms t' ys, Step lay t {ts} ms t' ys ∧ madeObjects ms = 0 ∧
      work lay t' (ys + others) < work lay t ({ts} + others) := by
  let f : ℕ × B → ℕ := whileLive fun b ↦ (lay.parts b).card + (lay.refs b).card + 1
  cases ts with
  | nil => exact ⟨_, _, _, .done, rfl, by simp [work]⟩
  | cons x ts =>
    cases x with
    | give a =>
      obtain ⟨n, b, hcell⟩ := h.live_of_give
      cases n with
      | zero =>
        let us : Multiset (Task A R) := (lay.parts b).map .part + (lay.refs b).map .give + {.free a}
        have hus : (us.toList : Multiset (Task A R)) = us := us.coe_toList
        have htotal := total_put f t a (some (0, b))
        have hold : (t.cell a).elim 0 f = (lay.parts b).card + (lay.refs b).card + 1 := by
          rw [hcell]
          rfl
        have hlen : sumOf (fun _ ↦ 1) us = (lay.parts b).card + (lay.refs b).card + 1 := by
          simp [sumOf, us]
        have hnew : (some (0, b)).elim 0 f = 0 := rfl
        refine ⟨_, _, _, .last hcell hus, rfl, ?_⟩
        simp only [work, outstanding_add, outstanding_append, outstanding_cons, hus, hlen,
          Multiset.card_add, Multiset.card_singleton]
        change _ + total f (t.put a (some (0, b))) < _ + total f t
        omega
      | succ n =>
        have htotal := total_put f t a (some (n + 1, b))
        have hsame : (t.cell a).elim 0 f = (some (n + 1, b)).elim 0 f := by
          rw [hcell]
          rfl
        refine ⟨_, _, _, .give hcell, rfl, ?_⟩
        simp only [work, outstanding_add, outstanding_cons, Multiset.card_add,
          Multiset.card_singleton]
        change _ + total f (t.put a (some (n + 1, b))) < _ + total f t
        omega
    | part r => exact ⟨_, _, _, .part, rfl, by simp [work]⟩
    | free a =>
      obtain ⟨b, hcell⟩ := h.dropped_of_free
      have htotal := total_put f t a none
      have hold : (t.cell a).elim 0 f = 0 := by
        rw [hcell]
        rfl
      refine ⟨_, _, _, .free, rfl, ?_⟩
      simp only [work, outstanding_add, outstanding_cons, Multiset.card_add,
        Multiset.card_singleton]
      change _ + total f (t.put a none) < _ + total f t
      rw [hold, Option.elim_none] at htotal
      omega

/-- From wherever they are, the threads can give up everything. -/
theorem Inv.drains (h : Inv lay ls t xs) :
    ∃ ms t', Pool.Run (Step lay) ⟨t, xs⟩ ms ⟨t', 0⟩ ∧ madeObjects ms = 0 := by
  induction hk : work lay t xs using Nat.strong_induction_on generalizing ls t xs with
  | _ k ih =>
    cases xs using Multiset.induction_on with
    | empty => exact ⟨[], t, .start, rfl⟩
    | cons ts others =>
      rw [← Multiset.singleton_add] at h hk ⊢
      obtain ⟨ms, t', ys, hstep, hmade, hless⟩ := h.can_step
      obtain ⟨ms', t'', hrun, hmade'⟩ := ih _ (hk ▸ hless) (h.next hstep) rfl
      refine ⟨_, _, (Pool.Run.step others .start hstep).trans hrun, ?_⟩
      rw [madeObjects_append, madeObjects_append, hmade, hmade']
      rfl

theorem run_parts (rs : List R) (ts : List (Task A R)) :
    Pool.Run (Step lay) ⟨t, {rs.map .part ++ ts}⟩ (rs.map .released) ⟨t, {ts}⟩ := by
  induction rs with
  | nil => exact .start
  | cons r rs ih => exact (Pool.Run.one Step.part).trans ih

/-- When nobody has a reference left, and no drop is under way, no object is left. -/
theorem Inv.nothing (h : Inv lay ls t 0) (a : A) : t.cell a = none := by
  by_contra hsome
  obtain ⟨u, hu⟩ := Option.ne_none_iff_exists'.mp hsome
  let live := t.names.filter fun a ↦ (t.cell a).isSome
  have hlive : ∀ {a u}, t.cell a = some u → a ∈ live := by
    intro a u hu
    refine Finset.mem_filter.mpr ⟨?_, by rw [hu]; rfl⟩
    by_contra ha
    rw [t.outside a ha] at hu
    cases hu
  -- An object of the highest rank is one that no other refers to.
  obtain ⟨c, hc, hmax⟩ := live.exists_max_image lay.rank ⟨a, hlive hu⟩
  obtain ⟨v, hv⟩ := Option.isSome_iff_exists.mp (Finset.mem_filter.mp hc).2
  have hdying := h.dying c
  have hcounted := h.counted c
  rw [hv, Option.elim_some, outstanding_zero, Multiset.count_zero] at hdying
  rw [hv, Option.elim_some, outstanding_zero, zero_add] at hcounted
  have hpos : 0 < (t.total (whileLive lay.refs)).count c := by
    rw [← hcounted]
    by_contra hzero
    rw [if_pos (by omega)] at hdying
    cases hdying
  obtain ⟨d, ⟨n, b⟩, hd, hmem⟩ := mem_total.mp (Multiset.count_pos.mp hpos)
  have hrefs : c ∈ lay.refs b := by
    cases n with
    | zero => exact absurd hmem (Multiset.notMem_zero c)
    | succ n => exact hmem
  have hlt := lay.below d b (h.fits d n b hd) c hrefs
  exact absurd (hmax d (hlive hd)) (not_le.mpr hlt)

end Next

end Sharing

end HrxSystem.Threads
