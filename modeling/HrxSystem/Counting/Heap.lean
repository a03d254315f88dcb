import Mathlib.Algebra.BigOperators.Group.Finset.Basic
import Mathlib.Algebra.Order.BigOperators.Group.Finset

namespace HrxSystem.Counting

open scoped BigOperators

variable {T : Type}

structure Arc (T : Type) where
  strong : ℕ
  data : T
deriving DecidableEq

/-- Reference-counted objects by address. Addresses from `bound` on were never used. -/
structure Heap (T : Type) where
  cell : ℕ → Option (Arc T)
  bound : ℕ
  above : ∀ a, bound ≤ a → cell a = none

namespace Heap

def empty : Heap T := ⟨fun _ ↦ none, 0, fun _ _ ↦ rfl⟩

def put (h : Heap T) (a : ℕ) (v : Option (Arc T)) : Heap T where
  cell := Function.update h.cell a v
  bound := max h.bound (a + 1)
  above b hb := by
    have hne : b ≠ a := by omega
    rw [Function.update_of_ne hne]
    exact h.above b (by omega)

@[simp] theorem put_cell_self (h : Heap T) (a : ℕ) (v : Option (Arc T)) :
    (h.put a v).cell a = v := Function.update_self ..

theorem put_cell_of_ne (h : Heap T) {a b : ℕ} (v : Option (Arc T)) (hb : b ≠ a) :
    (h.put a v).cell b = h.cell b := Function.update_of_ne hb ..

/-- The address a new object gets: the one the allocator proposes, which may
have been used before, unless it is taken. Address 0 is the NULL pointer. -/
def fresh (h : Heap T) (hint : ℕ) : ℕ :=
  if 0 < hint ∧ hint < h.bound ∧ (h.cell hint).isNone then hint else max 1 h.bound

theorem fresh_cell (h : Heap T) (hint : ℕ) : h.cell (h.fresh hint) = none := by
  unfold fresh
  split_ifs with hc
  · exact Option.isNone_iff_eq_none.mp hc.2.2
  · exact h.above _ (le_max_right _ _)

theorem fresh_pos (h : Heap T) (hint : ℕ) : 0 < h.fresh hint := by
  unfold fresh
  split_ifs with hc
  · exact hc.1
  · omega

/-- `Arc::increment_strong_count`. -/
def retain (h : Heap T) (a : ℕ) : Heap T :=
  match h.cell a with
  | none => h
  | some arc => h.put a (some { arc with strong := arc.strong + 1 })

/-- `Arc::decrement_strong_count`, which hands out the object to drop when this
was its last reference. -/
def release (h : Heap T) (a : ℕ) : Option T × Heap T :=
  match h.cell a with
  | none => (none, h)
  | some arc =>
    if arc.strong ≤ 1 then (some arc.data, h.put a none)
    else (none, h.put a (some { arc with strong := arc.strong - 1 }))

def modify (h : Heap T) (a : ℕ) (f : T → T) : Heap T :=
  match h.cell a with
  | none => h
  | some arc => h.put a (some { arc with data := f arc.data })

section Within

variable {h h' : Heap T} {a : ℕ}

/-- Every object of `h` is one of `h'`, whatever the counts. -/
def Within (h h' : Heap T) : Prop :=
  ∀ a arc, h.cell a = some arc → ∃ k, h'.cell a = some ⟨k, arc.data⟩

theorem Within.refl (h : Heap T) : h.Within h := fun _ arc ha ↦ ⟨arc.strong, ha⟩

theorem within_put {v : Option (Arc T)}
    (hv : ∀ arc, h.cell a = some arc → ∃ k, v = some ⟨k, arc.data⟩) :
    h.Within (h.put a v) := by
  intro b arc hb
  by_cases hba : b = a
  · subst hba
    obtain ⟨k, rfl⟩ := hv arc hb
    exact ⟨k, put_cell_self _ _ _⟩
  · exact ⟨arc.strong, by rw [put_cell_of_ne _ _ hba, hb]⟩

theorem put_within {v : Option (Arc T)}
    (hv : ∀ arc, v = some arc → ∃ k, h.cell a = some ⟨k, arc.data⟩) :
    (h.put a v).Within h := by
  intro b arc hb
  by_cases hba : b = a
  · subst hba
    rw [put_cell_self] at hb
    exact hv arc hb
  · rw [put_cell_of_ne _ _ hba] at hb
    exact ⟨arc.strong, hb⟩

theorem within_retain (h : Heap T) (a : ℕ) : h.Within (h.retain a) := by
  unfold retain
  split
  · exact .refl h
  case h_2 arc ha =>
    refine within_put fun arc' ha' ↦ ?_
    obtain rfl : arc = arc' := Option.some.inj (ha.symm.trans ha')
    exact ⟨_, rfl⟩

theorem retain_within (h : Heap T) (a : ℕ) : (h.retain a).Within h := by
  unfold retain
  split
  · exact .refl h
  case h_2 arc ha =>
    refine put_within fun arc' ha' ↦ ?_
    obtain rfl := Option.some.inj ha'
    exact ⟨arc.strong, ha⟩

theorem release_within (h : Heap T) (a : ℕ) : (h.release a).2.Within h := by
  unfold release
  split
  · exact .refl h
  case h_2 arc ha =>
    split
    · exact put_within nofun
    · refine put_within fun arc' ha' ↦ ?_
      obtain rfl := Option.some.inj ha'
      exact ⟨arc.strong, ha⟩

end Within

section Total

variable {M : Type} [AddCommMonoid M]

def share (f : T → M) (v : Option (Arc T)) : M := v.elim 0 fun arc ↦ f arc.data

@[simp] theorem share_none (f : T → M) : share f none = 0 := rfl

@[simp] theorem share_some (f : T → M) (arc : Arc T) : share f (some arc) = f arc.data := rfl

/-- What all live objects contribute together. -/
def total (f : T → M) (h : Heap T) : M := ∑ a ∈ Finset.range h.bound, share f (h.cell a)

theorem total_eq_sum (f : T → M) (h : Heap T) {N : ℕ} (hN : h.bound ≤ N) :
    total f h = ∑ a ∈ Finset.range N, share f (h.cell a) := by
  apply Finset.sum_subset
  · intro a ha
    simp only [Finset.mem_range] at ha ⊢
    omega
  · intro a _ ha
    simp only [Finset.mem_range, not_lt] at ha
    rw [h.above a ha, share_none]

@[simp] theorem total_zero (h : Heap T) : total (fun _ ↦ (0 : M)) h = 0 := by
  refine Finset.sum_eq_zero fun a _ ↦ ?_
  cases h.cell a <;> rfl

theorem total_congr (f : T → M) {h h' : Heap T} (hcell : h.cell = h'.cell) :
    total f h = total f h' := by
  rw [total_eq_sum f h (le_max_left h.bound h'.bound),
    total_eq_sum f h' (le_max_right h.bound h'.bound), hcell]

/-- Replacing one cell trades that cell's contribution for the new one. -/
theorem total_put (f : T → M) (h : Heap T) (a : ℕ) (v : Option (Arc T)) :
    total f (h.put a v) + share f (h.cell a) = total f h + share f v := by
  have ha : a ∈ Finset.range (max h.bound (a + 1)) := by
    simp only [Finset.mem_range]
    omega
  have hrest : ∑ b ∈ (Finset.range (max h.bound (a + 1))).erase a, share f ((h.put a v).cell b) =
      ∑ b ∈ (Finset.range (max h.bound (a + 1))).erase a, share f (h.cell b) := by
    apply Finset.sum_congr rfl
    intro b hb
    rw [put_cell_of_ne h v (Finset.ne_of_mem_erase hb)]
  have hnew := Finset.add_sum_erase _ (fun b ↦ share f ((h.put a v).cell b)) ha
  have hold := Finset.add_sum_erase _ (fun b ↦ share f (h.cell b)) ha
  rw [total_eq_sum f h (le_max_left h.bound (a + 1))]
  change ∑ b ∈ Finset.range (max h.bound (a + 1)), share f ((h.put a v).cell b) + _ = _
  rw [← hnew, ← hold, hrest, put_cell_self, add_right_comm, add_assoc, add_comm]

end Total

def weight (p : T → Bool) (v : Option (Arc T)) : ℕ := if v.any fun arc ↦ p arc.data then 1 else 0

@[simp] theorem weight_none (p : T → Bool) : weight p none = 0 := rfl

@[simp] theorem weight_some (p : T → Bool) (n : ℕ) (x : T) :
    weight p (some ⟨n, x⟩) = if p x then 1 else 0 := rfl

def count (p : T → Bool) (h : Heap T) : ℕ := ∑ a ∈ Finset.range h.bound, weight p (h.cell a)

theorem weight_eq_share (p : T → Bool) (v : Option (Arc T)) :
    weight p v = share (fun x ↦ if p x then 1 else 0) v := by
  cases v <;> rfl

theorem count_eq_total (p : T → Bool) (h : Heap T) :
    count p h = total (fun x ↦ if p x then 1 else 0) h := by
  simp only [count, total, weight_eq_share]

theorem count_total {M : Type} [DecidableEq M] {f : T → Multiset M} {p : T → Bool} {r : M}
    (hf : ∀ x, (f x).count r = if p x then 1 else 0) (h : Heap T) :
    (total f h).count r = count p h := by
  rw [count_eq_total, total, total, Multiset.count_sum']
  refine Finset.sum_congr rfl fun a _ ↦ ?_
  cases h.cell a with
  | none => exact Multiset.count_zero r
  | some arc => exact hf arc.data

theorem count_total_eq_zero {M : Type} [DecidableEq M] {f : T → Multiset M} {r : M}
    (hf : ∀ x, r ∉ f x) (h : Heap T) :
    (total f h).count r = 0 := by
  rw [total, Multiset.count_sum']
  refine Finset.sum_eq_zero fun a _ ↦ ?_
  cases h.cell a with
  | none => exact Multiset.count_zero r
  | some arc => exact Multiset.count_eq_zero_of_notMem (hf arc.data)

theorem count_put (p : T → Bool) (h : Heap T) (a : ℕ) (v : Option (Arc T)) :
    count p (h.put a v) + weight p (h.cell a) = count p h + weight p v := by
  rw [count_eq_total, count_eq_total, weight_eq_share, weight_eq_share, total_put]

theorem weight_le_count (p : T → Bool) (h : Heap T) (a : ℕ) : weight p (h.cell a) ≤ count p h := by
  have hp := count_put p h a none
  rw [weight_none] at hp
  omega

theorem count_pos_of_cell {p : T → Bool} {h : Heap T} {a : ℕ} {arc : Arc T}
    (ha : h.cell a = some arc) (hp : p arc.data = true) : 0 < count p h := by
  have hle := weight_le_count p h a
  rw [ha, weight] at hle
  simp only [Option.any_some, hp, ↓reduceIte] at hle
  omega

end Heap

end HrxSystem.Counting
