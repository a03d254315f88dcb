import HrxSystem.Text.Numerals
import Mathlib.Algebra.Group.Int.Defs
import Mathlib.Algebra.Group.Nat.Defs

namespace HrxSystem.Hip

open Text

/-- `char::is_whitespace`: the Unicode property White_Space. -/
def isWhitespace (c : Char) : Bool :=
  (9 ≤ c.toNat && c.toNat ≤ 13) || (0x2000 ≤ c.toNat && c.toNat ≤ 0x200a) ||
    [0x20, 0x85, 0xa0, 0x1680, 0x2028, 0x2029, 0x202f, 0x205f, 0x3000].contains c.toNat

/-- `isspace` of the C locale. -/
def isCSpace (c : Char) : Bool := c.toNat == 0x20 || (9 ≤ c.toNat && c.toNat ≤ 13)

def stripSign : List Char → Bool × List Char
  | '-' :: r => (true, r)
  | '+' :: r => (false, r)
  | s => (false, s)

/-- `str::parse` of ASCII digits into a signed type that ends at `max`. -/
def parseDigits (max : ℕ) (digits : List Char) : Option ℕ :=
  if digits = [] then none else checkedDigits max 0 digits

def checkedNeg (max : ℕ) (v : ℤ) : Option ℤ := if v = -(max : ℤ) - 1 then none else some (-v)

/-- The body that the three functions share, for a result type that ends at `max`. -/
def atoiBody (max : ℕ) (s : String) : Option ℤ :=
  let (neg, rest) := stripSign (s.toList.dropWhile isWhitespace)
  let digits := rest.takeWhile Char.isDigit
  let v : ℤ := ((parseDigits max digits).getD 0 : ℕ)
  if neg then checkedNeg max v else some v

def BufferTracer.atoi (s : String) : Option ℤ := atoiBody (2 ^ 31 - 1) s

def BufferTracer.atol (s : String) : Option ℤ := atoiBody (2 ^ 63 - 1) s

def HipLogging.atoi (s : String) : Option ℤ := atoiBody (2 ^ 31 - 1) s

section Spaces

theorem isDigit_iff {c : Char} : c.isDigit = true ↔ 48 ≤ c.toNat ∧ c.toNat ≤ 57 := by
  simp only [Char.isDigit, ge_iff_le, Bool.and_eq_true, decide_eq_true_eq]
  exact Iff.rfl

theorem blank_isWhitespace : Blank isWhitespace := by
  intro c hc
  have hspace : c.toNat < 48 ∧ c.toNat ≠ 43 ∧ c.toNat ≠ 45 ∨ 57 < c.toNat := by
    simp [isWhitespace] at hc
    omega
  refine ⟨?_, ?_, ?_⟩
  · rw [Bool.eq_false_iff, ne_eq, isDigit_iff]
    omega
  · rintro rfl
    exact absurd hspace (by decide)
  · rintro rfl
    exact absurd hspace (by decide)

theorem isWhitespace_of_isCSpace {c : Char} (hc : isCSpace c = true) : isWhitespace c = true := by
  simp [isCSpace] at hc
  simp [isWhitespace]
  omega

theorem blank_isCSpace : Blank isCSpace :=
  fun c hc ↦ blank_isWhitespace c (isWhitespace_of_isCSpace hc)

theorem dropWhile_isWhitespace {s : List Char}
    (hs : ∀ c ∈ s.takeWhile isWhitespace, isCSpace c = true) :
    s.dropWhile isWhitespace = s.dropWhile isCSpace := by
  induction s with
  | nil => rfl
  | cons c s ih =>
    by_cases hc : isWhitespace c = true
    · rw [List.takeWhile_cons_of_pos hc] at hs
      have hspace := hs c (List.mem_cons_self ..)
      rw [List.dropWhile_cons_of_pos hc, List.dropWhile_cons_of_pos hspace]
      exact ih fun d hd ↦ hs d (List.mem_cons_of_mem _ hd)
    · have hspace : ¬ isCSpace c = true := fun h ↦ hc (isWhitespace_of_isCSpace h)
      rw [List.dropWhile_cons_of_neg hc, List.dropWhile_cons_of_neg hspace]

theorem signedVal_of_otherSpace {s : List Char}
    (hs : ∃ c ∈ s.takeWhile isWhitespace, isCSpace c = false) :
    signedVal (takeSigned (s.dropWhile isCSpace)) = 0 := by
  induction s with
  | nil => rfl
  | cons c s ih =>
    obtain ⟨d, hd, hother⟩ := hs
    by_cases hc : isWhitespace c = true
    · by_cases hspace : isCSpace c = true
      · rw [List.takeWhile_cons_of_pos hc] at hd
        have htail : d ∈ s.takeWhile isWhitespace := by
          refine (List.mem_cons.mp hd).resolve_left ?_
          rintro rfl
          rw [hspace] at hother
          cases hother
        rw [List.dropWhile_cons_of_pos hspace]
        exact ih ⟨d, htail, hother⟩
      · obtain ⟨hdigit, hplus, hminus⟩ := blank_isWhitespace c hc
        rw [List.dropWhile_cons_of_neg hspace, takeSigned, if_neg (by simp [hplus, hminus]),
          List.takeWhile_cons_of_neg (by simp [hdigit])]
        rfl
    · rw [List.takeWhile_cons_of_neg hc] at hd
      cases hd

end Spaces

def negated (s : String) : Bool := (stripSign (s.toList.dropWhile isWhitespace)).1

def magnitude (s : String) : ℕ :=
  digitsVal 0 ((stripSign (s.toList.dropWhile isWhitespace)).2.takeWhile Char.isDigit)

def onlyCSpace (s : String) : Bool := (s.toList.takeWhile isWhitespace).all isCSpace

def Representable (max : ℕ) (v : ℤ) : Prop := -(max : ℤ) - 1 ≤ v ∧ v ≤ max

instance (max : ℕ) (v : ℤ) : Decidable (Representable max v) := inferInstanceAs (Decidable (_ ∧ _))

/-- The numeral is not the least value of the type, and white space that C does not skip is followed
by nothing that reads as another value than 0. -/
def ReadsAlike (max : ℕ) (s : String) : Prop :=
  if onlyCSpace s = true then ¬ (negated s = true ∧ magnitude s = max + 1) else magnitude s = 0 ∨
    max < magnitude s

instance (max : ℕ) (s : String) : Decidable (ReadsAlike max s) := inferInstanceAs (Decidable <|
  if onlyCSpace s = true then ¬ (negated s = true ∧ magnitude s = max + 1) else magnitude s = 0 ∨
  max < magnitude s)

theorem parseDigits_getD (max : ℕ) (digits : List Char) :
    (parseDigits max digits).getD 0 = if digitsVal 0 digits ≤ max then digitsVal 0 digits
      else 0 := by
  rw [parseDigits]
  split
  · next hnil =>
    rw [hnil]
    exact (if_pos (Nat.zero_le max)).symm
  · rw [checkedDigits_eq (Nat.zero_le max)]
    split <;> rfl

theorem signedVal_stripSign (s : List Char) :
    signedVal (takeSigned s) =
      if (stripSign s).1 then -(digitsVal 0 ((stripSign s).2.takeWhile Char.isDigit) : ℤ)
      else digitsVal 0 ((stripSign s).2.takeWhile Char.isDigit) := by
  unfold stripSign
  split
  · exact signedVal_minus _
  · exact signedVal_plus _
  · next hminus hplus => exact signedVal_unsigned fun t ↦ ⟨hminus t, hplus t⟩

/-- What the body returns. The digits are never negative, so that negating them does not
overflow. -/
theorem atoiBody_eq (max : ℕ) (s : String) :
    atoiBody max s = some
      (if negated s then -((if magnitude s ≤ max then magnitude s else 0 : ℕ) : ℤ)
      else (if magnitude s ≤ max then magnitude s else 0 : ℕ)) := by
  have hvalue :=
    parseDigits_getD max ((stripSign (s.toList.dropWhile isWhitespace)).2.takeWhile Char.isDigit)
  have hneg : ∀ v : ℕ, checkedNeg max v = some (-(v : ℤ)) := fun v ↦ by
    rw [checkedNeg, if_neg (by omega)]
  rw [negated, magnitude, ← hvalue, atoiBody]
  generalize stripSign (s.toList.dropWhile isWhitespace) = signed
  obtain ⟨neg, rest⟩ := signed
  cases neg with
  | true => exact hneg _
  | false => rfl

section ReadsAlike

variable {max : ℕ} {s : String} {p : List Char}

theorem numeralVal_ofCSpace (hp : Longest (IsNumeral isCSpace) p s.toList)
    (hspace : onlyCSpace s = true) :
    numeralVal isCSpace p = if negated s then -(magnitude s : ℤ) else magnitude s := by
  rw [numeralVal_of_longest blank_isCSpace hp,
    ← dropWhile_isWhitespace (List.all_eq_true.mp hspace), signedVal_stripSign]
  rfl

theorem numeralVal_ofOtherSpace (hp : Longest (IsNumeral isCSpace) p s.toList)
    (hspace : ¬ onlyCSpace s = true) : numeralVal isCSpace p = 0 := by
  rw [numeralVal_of_longest blank_isCSpace hp]
  refine signedVal_of_otherSpace ?_
  simpa [onlyCSpace] using hspace

theorem atoiBody_iff (hp : Longest (IsNumeral isCSpace) p s.toList)
    (hfits : Representable max (numeralVal isCSpace p)) :
    atoiBody max s = some (numeralVal isCSpace p) ↔ ReadsAlike max s := by
  rw [atoiBody_eq, Option.some.injEq, ReadsAlike]
  by_cases hspace : onlyCSpace s = true
  · obtain ⟨hlow, hhigh⟩ := hfits
    rw [numeralVal_ofCSpace hp hspace] at hlow hhigh ⊢
    rw [if_pos hspace]
    generalize negated s = neg at hlow hhigh ⊢
    cases neg with
    | true =>
      simp only [if_true, true_and] at hlow hhigh ⊢
      split <;> omega
    | false =>
      simp only [Bool.false_eq_true, if_false, false_and, not_false_eq_true, iff_true]
        at hlow hhigh ⊢
      split <;> omega
  · rw [numeralVal_ofOtherSpace hp hspace, if_neg hspace]
    cases negated s with
    | true =>
      simp only [if_true]
      split <;> omega
    | false =>
      simp only [Bool.false_eq_true, if_false]
      split <;> omega

end ReadsAlike

/-- Each of the three functions returns the value of C's numeral, where that is a value of its type,
exactly when it reads the numeral alike; none of them overflows, and the two copies of `atoi` are
the same function. -/
theorem atoi_matches_iff {s : String} {p : List Char}
    (hp : Longest (IsNumeral isCSpace) p s.toList) :
    (Representable (2 ^ 31 - 1) (numeralVal isCSpace p) →
      ((BufferTracer.atoi s = some (numeralVal isCSpace p) ↔ ReadsAlike (2 ^ 31 - 1) s) ∧
        (HipLogging.atoi s = some (numeralVal isCSpace p) ↔ ReadsAlike (2 ^ 31 - 1) s))) ∧
      (Representable (2 ^ 63 - 1) (numeralVal isCSpace p) →
        (BufferTracer.atol s = some (numeralVal isCSpace p) ↔ ReadsAlike (2 ^ 63 - 1) s)) ∧
      ((BufferTracer.atoi s).isSome ∧ (BufferTracer.atol s).isSome ∧ (HipLogging.atoi s).isSome) ∧
      HipLogging.atoi s = BufferTracer.atoi s := by
  refine ⟨fun hfits ↦ ⟨atoiBody_iff hp hfits, atoiBody_iff hp hfits⟩,
    fun hfits ↦ atoiBody_iff hp hfits, ?_, rfl⟩
  simp only [BufferTracer.atoi, BufferTracer.atol, HipLogging.atoi, atoiBody_eq,
    Option.isSome_some, and_self]

theorem atoi_matches_spaced :
    BufferTracer.atoi "\t -42 kernels" = some
      (numeralVal isCSpace (takeNumeral isCSpace "\t -42 kernels".toList)) := by
  have hp := takeNumeral_longest blank_isCSpace "\t -42 kernels".toList
  exact ((atoi_matches_iff hp).1 (by decide)).1.mpr (by decide)

/-- The least `int` and the least `long` read as 0, and digits after a no-break space are read. -/
theorem atoi_differs :
    Longest (IsNumeral isCSpace) "-2147483648".toList "-2147483648".toList ∧
      numeralVal isCSpace "-2147483648".toList = -2 ^ 31 ∧
      BufferTracer.atoi "-2147483648" = some 0 ∧
      HipLogging.atoi "-2147483648" = some 0 ∧
      numeralVal isCSpace "-9223372036854775808".toList = -2 ^ 63 ∧
      BufferTracer.atol "-9223372036854775808" = some 0 ∧
      Longest (IsNumeral isCSpace) [] "\u00a05".toList ∧ numeralVal isCSpace [] = 0 ∧
      BufferTracer.atoi "\u00a05" = some 5 := by
  exact ⟨takeNumeral_longest blank_isCSpace
    "-2147483648".toList, by decide, by decide, by decide, by decide, by decide,
    takeNumeral_longest blank_isCSpace "\u00a05".toList, by decide, by decide⟩

end HrxSystem.Hip
