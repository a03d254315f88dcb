import Mathlib.Data.List.TakeWhile

namespace HrxSystem.Text

variable {α : Type} [DecidableEq α] {z : α}

/-- The cells before the first terminator `z` of an array, as a loop that stays inside the array
counts them. -/
def strnlen (z : α) : List α → ℕ
  | [] => 0
  | x :: xs => if x = z then 0 else strnlen z xs + 1

/-- What a reader finds of `xs` in an array of `n` cells that ends with a terminator. -/
def cString (z : α) (n : ℕ) (xs : List α) : List α := (xs.takeWhile fun x ↦ x ≠ z).take (n - 1)

theorem strnlen_eq (xs : List α) : strnlen z xs = (xs.takeWhile fun x ↦ x ≠ z).length := by
  induction xs with
  | nil => rfl
  | cons x xs ih =>
    by_cases hx : x = z
    · simp [strnlen, hx]
    · simp [strnlen, hx, ih]

theorem strnlen_lt {xs : List α} (hz : z ∈ xs) : strnlen z xs < xs.length := by
  induction xs with
  | nil => cases hz
  | cons x xs ih =>
    by_cases hx : x = z
    · simp [strnlen, hx]
    · have htail : z ∈ xs := (List.mem_cons.mp hz).resolve_left fun h ↦ hx h.symm
      simpa [strnlen, hx] using ih htail

theorem take_strnlen {xs : List α} (hz : z ∈ xs) :
    xs.take (strnlen z xs + 1) = (xs.takeWhile fun x ↦ x ≠ z) ++ [z] := by
  induction xs with
  | nil => cases hz
  | cons x xs ih =>
    by_cases hx : x = z
    · simp [strnlen, hx]
    · have htail : z ∈ xs := (List.mem_cons.mp hz).resolve_left fun h ↦ hx h.symm
      rw [strnlen, if_neg hx, List.take_succ_cons, ih htail,
        List.takeWhile_cons_of_pos (by simpa using hx), List.cons_append]

theorem takeWhile_padded (k : ℕ) (xs : List α) :
    ((xs ++ List.replicate k z).takeWhile fun x ↦ x ≠ z) = xs.takeWhile fun x ↦ x ≠ z := by
  induction xs with
  | nil => simp
  | cons x xs ih => rw [List.cons_append, List.takeWhile_cons, List.takeWhile_cons, ih]

/-- The array that holds the first `n - 1` cells of `xs` and terminators after them reads as
`cString`. -/
theorem takeWhile_stored (n k : ℕ) (xs : List α) :
    ((xs.take (n - 1) ++ List.replicate k z).takeWhile fun x ↦ x ≠ z) = cString z n xs := by
  rw [takeWhile_padded, cString, List.take_takeWhile]

section Writing

variable {β : Type}

/-- A memory of cells in which `xs` was stored from address `a` on. -/
def writeAt (a : ℕ) (xs : List β) (mem : ℕ → β) : ℕ → β :=
  fun b ↦ if a ≤ b then (xs[b - a]?).getD (mem b) else mem b

theorem writeAt_inside (a : ℕ) {xs : List β} (mem : ℕ → β) {i : ℕ} (hi : i < xs.length) :
    writeAt a xs mem (a + i) = xs[i] := by
  simp [writeAt, hi]

theorem writeAt_outside {a b : ℕ} {xs : List β} (mem : ℕ → β) (hb : b < a ∨ a + xs.length ≤ b) :
    writeAt a xs mem b = mem b := by
  unfold writeAt
  split
  · have hpast : xs.length ≤ b - a := by omega
    rw [List.getElem?_eq_none hpast, Option.getD_none]
  · rfl

end Writing

end HrxSystem.Text
