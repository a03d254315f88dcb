import Mathlib.Data.List.Infix
import Mathlib.Data.List.TakeWhile

namespace HrxSystem.Text

def digitsVal (v : ℕ) (ds : List Char) : ℕ := ds.foldl (fun v d ↦ 10 * v + (d.toNat - '0'.toNat)) v

theorem le_digitsVal (v : ℕ) (ds : List Char) : v ≤ digitsVal v ds := by
  induction ds generalizing v with
  | nil => exact le_rfl
  | cons d ds ih =>
    have hstep : v ≤ 10 * v + (d.toNat - '0'.toNat) := by omega
    exact hstep.trans (ih _)

/-- Digits read into a type that ends at `max`, stopping at the first overflow. -/
def checkedDigits (max : ℕ) : ℕ → List Char → Option ℕ
  | v, [] => some v
  | v, d :: ds =>
    if max < 10 * v then none
    else if max < 10 * v + (d.toNat - '0'.toNat) then none
    else checkedDigits max (10 * v + (d.toNat - '0'.toNat)) ds

/-- The checks lose no value that fits and let none through that does not. -/
theorem checkedDigits_eq {max v : ℕ} (hv : v ≤ max) (ds : List Char) :
    checkedDigits max v ds = if digitsVal v ds ≤ max then some (digitsVal v ds) else none := by
  induction ds generalizing v with
  | nil => exact (if_pos hv).symm
  | cons d ds ih =>
    have hval : digitsVal v (d :: ds) = digitsVal (10 * v + (d.toNat - '0'.toNat)) ds := rfl
    have hle := le_digitsVal (10 * v + (d.toNat - '0'.toNat)) ds
    rw [checkedDigits, hval]
    by_cases hfits : 10 * v + (d.toNat - '0'.toNat) ≤ max
    · rw [if_neg (by omega), if_neg (by omega), ih hfits]
    · have hover : ¬ digitsVal (10 * v + (d.toNat - '0'.toNat)) ds ≤ max := by omega
      rw [if_neg hover]
      split_ifs
      · rfl
      · rfl
      · omega

/-- `p` is the longest prefix of `s` that has the property `P`. -/
structure Longest {α : Type} (P : List α → Prop) (p s : List α) : Prop where
  starts : p <+: s
  holds : P p
  longest : ∀ q, q <+: s → P q → q.length ≤ p.length

theorem Longest.unique {α : Type} {P : List α → Prop} {p q s : List α} (hp : Longest P p s)
    (hq : Longest P q s) :
    p = q := by
  have hlength : p.length = q.length :=
    le_antisymm (hq.longest p hp.starts hp.holds) (hp.longest q hq.starts hq.holds)
  exact (List.prefix_of_prefix_length_le hp.starts hq.starts hlength.le).eq_of_length hlength

section Numeral

variable (space : Char → Bool)

/-- White space, then at most one sign, then digits. -/
inductive IsNumeral : List Char → Prop
  | space {c : Char} {p : List Char} : space c = true → IsNumeral p → IsNumeral (c :: p)
  | signed {c : Char} {ds : List Char} : c = '+' ∨ c = '-' → (∀ d ∈ ds, d.isDigit = true) →
      IsNumeral (c :: ds)
  | digits {ds : List Char} : (∀ d ∈ ds, d.isDigit = true) → IsNumeral ds

def takeSigned : List Char → List Char
  | [] => []
  | c :: s =>
    if c = '+' ∨ c = '-' then c :: s.takeWhile Char.isDigit else (c :: s).takeWhile Char.isDigit

def takeNumeral : List Char → List Char
  | [] => []
  | c :: s => if space c then c :: takeNumeral s else takeSigned (c :: s)

def signedVal : List Char → ℤ
  | '-' :: ds => -(digitsVal 0 ds : ℤ)
  | '+' :: ds => digitsVal 0 ds
  | ds => digitsVal 0 ds

/-- The value of a numeral: 0 when it has no digits. -/
def numeralVal (p : List Char) : ℤ := signedVal (p.dropWhile space)

/-- White space that is neither a sign nor a digit. -/
def Blank : Prop := ∀ c, space c = true → c.isDigit = false ∧ c ≠ '+' ∧ c ≠ '-'

variable {space}

theorem takeSigned_starts (s : List Char) : takeSigned s <+: s := by
  cases s with
  | nil => exact List.prefix_rfl
  | cons c s =>
    rw [takeSigned]
    split
    · exact List.prefix_cons_inj c |>.mpr (List.takeWhile_prefix _)
    · exact List.takeWhile_prefix _

theorem takeNumeral_starts (s : List Char) : takeNumeral space s <+: s := by
  induction s with
  | nil => exact List.prefix_rfl
  | cons c s ih =>
    rw [takeNumeral]
    split
    · exact (List.prefix_cons_inj c).mpr ih
    · exact takeSigned_starts _

theorem takeSigned_isNumeral (s : List Char) : IsNumeral space (takeSigned s) := by
  have hdigits : ∀ t : List Char, ∀ d ∈ t.takeWhile Char.isDigit, d.isDigit = true :=
    fun t d hd ↦ List.mem_takeWhile_imp hd
  cases s with
  | nil => exact .digits fun _ hd ↦ nomatch hd
  | cons c s =>
    rw [takeSigned]
    split
    · next hsign => exact .signed hsign (hdigits s)
    · exact .digits (hdigits _)

theorem takeNumeral_isNumeral (s : List Char) : IsNumeral space (takeNumeral space s) := by
  induction s with
  | nil => exact .digits fun _ hd ↦ nomatch hd
  | cons c s ih =>
    rw [takeNumeral]
    split
    · next hspace => exact .space hspace ih
    · exact takeSigned_isNumeral _

theorem length_le_takeWhile {p s : List Char} (hp : p <+: s) (hdigits : ∀ d ∈ p, d.isDigit = true) :
    p.length ≤ (s.takeWhile Char.isDigit).length := by
  obtain ⟨t, rfl⟩ := hp
  rw [List.takeWhile_append_of_pos hdigits, List.length_append]
  exact Nat.le_add_right _ _

theorem length_le_takeNumeral (hblank : Blank space) {p s : List Char} (hp : IsNumeral space p)
    (hstart : p <+: s) :
    p.length ≤ (takeNumeral space s).length := by
  induction hp generalizing s with
  | @space c p hspace _ ih =>
    obtain ⟨t, rfl⟩ := hstart
    rw [List.cons_append, takeNumeral, if_pos hspace, List.length_cons, List.length_cons]
    exact Nat.succ_le_succ (ih (List.prefix_append p t))
  | @signed c ds hsign hdigits =>
    obtain ⟨t, rfl⟩ := hstart
    have hnot : ¬ space c = true := fun hc ↦ by
      obtain ⟨-, hplus, hminus⟩ := hblank c hc
      exact hsign.elim hplus hminus
    rw [List.cons_append, takeNumeral, if_neg hnot, takeSigned, if_pos hsign, List.length_cons,
      List.length_cons]
    exact Nat.succ_le_succ (length_le_takeWhile (List.prefix_append ds t) hdigits)
  | @digits ds hdigits =>
    cases ds with
    | nil => exact Nat.zero_le _
    | cons d ds =>
      obtain ⟨t, rfl⟩ := hstart
      have hdigit := hdigits d (List.mem_cons_self ..)
      have hnot : ¬ space d = true := fun hc ↦ by
        rw [(hblank d hc).1] at hdigit
        cases hdigit
      have hsign : ¬ (d = '+' ∨ d = '-') := by
        rintro (rfl | rfl)
        · exact absurd hdigit (by decide)
        · exact absurd hdigit (by decide)
      rw [List.cons_append, takeNumeral, if_neg hnot, takeSigned, if_neg hsign]
      exact length_le_takeWhile (List.prefix_append (d :: ds) t) hdigits

theorem takeNumeral_longest (hblank : Blank space) (s : List Char) :
    Longest (IsNumeral space) (takeNumeral space s) s :=
  ⟨takeNumeral_starts s, takeNumeral_isNumeral s,
    fun _ hstart hp ↦ length_le_takeNumeral hblank hp hstart⟩

theorem dropWhile_takeNumeral (s : List Char) :
    (takeNumeral space s).dropWhile space = (takeSigned (s.dropWhile space)).dropWhile space := by
  induction s with
  | nil => rfl
  | cons c s ih =>
    by_cases hspace : space c = true
    · rw [takeNumeral, if_pos hspace, List.dropWhile_cons_of_pos hspace,
        List.dropWhile_cons_of_pos hspace, ih]
    · rw [takeNumeral, if_neg hspace, List.dropWhile_cons_of_neg hspace]

theorem dropWhile_takeSigned (hblank : Blank space) (s : List Char) :
    (takeSigned s).dropWhile space = takeSigned s := by
  cases s with
  | nil => rfl
  | cons c s =>
    rw [takeSigned]
    split
    · next hsign =>
      have hnot : ¬ space c = true := fun hc ↦ hsign.elim (hblank c hc).2.1 (hblank c hc).2.2
      rw [List.dropWhile_cons_of_neg hnot]
    · by_cases hdigit : c.isDigit = true
      · have hnot : ¬ space c = true := fun hc ↦ by
          rw [(hblank c hc).1] at hdigit
          cases hdigit
        rw [List.takeWhile_cons_of_pos hdigit, List.dropWhile_cons_of_neg hnot]
      · rw [List.takeWhile_cons_of_neg hdigit, List.dropWhile_nil]

theorem numeralVal_takeNumeral (hblank : Blank space) (s : List Char) :
    numeralVal space (takeNumeral space s) = signedVal (takeSigned (s.dropWhile space)) := by
  rw [numeralVal, dropWhile_takeNumeral, dropWhile_takeSigned hblank]

theorem numeralVal_of_longest (hblank : Blank space) {p s : List Char}
    (hp : Longest (IsNumeral space) p s) :
    numeralVal space p = signedVal (takeSigned (s.dropWhile space)) := by
  rw [hp.unique (takeNumeral_longest hblank s), numeralVal_takeNumeral hblank]

theorem signedVal_minus (s : List Char) :
    signedVal (takeSigned ('-' :: s)) = -(digitsVal 0 (s.takeWhile Char.isDigit) : ℤ) := rfl

theorem signedVal_plus (s : List Char) :
    signedVal (takeSigned ('+' :: s)) = digitsVal 0 (s.takeWhile Char.isDigit) := rfl

theorem signedVal_unsigned {s : List Char} (hs : ∀ t, s ≠ '-' :: t ∧ s ≠ '+' :: t) :
    signedVal (takeSigned s) = digitsVal 0 (s.takeWhile Char.isDigit) := by
  cases s with
  | nil => rfl
  | cons c s =>
    have hminus : c ≠ '-' := fun h ↦ (hs s).1 (by rw [h])
    have hplus : c ≠ '+' := fun h ↦ (hs s).2 (by rw [h])
    rw [takeSigned, if_neg (by simp [hminus, hplus])]
    by_cases hdigit : c.isDigit = true
    · rw [List.takeWhile_cons_of_pos hdigit, signedVal]
      · exact fun ds heq ↦ hminus (List.cons.inj heq).1
      · exact fun ds heq ↦ hplus (List.cons.inj heq).1
    · rw [List.takeWhile_cons_of_neg hdigit]
      rfl

end Numeral

end HrxSystem.Text
