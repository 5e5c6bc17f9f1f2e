import Stencil.Number.Literal
import Stencil.Proofs.Lexing.Characters
/-!
# Numerals

The texts that have a value as number literals are exactly those of a grammar
(`value?_isSome_iff`): a hexadecimal numeral is a zero, a mark and hexadecimal digits; a decimal
numeral is a whole part, a fraction and an exponent, each of which may be missing, with at least one
digit before the exponent. An octal literal, which has a value of its own, is spelt like a whole
part.

The grammar speaks of parts put together, where the reader of values cuts at the first exponent mark
and at the first point. No part holds a mark at which the text behind it is cut off, so the cuts
fall where the parts meet.
-/

set_option autoImplicit false

namespace Stencil.Number.Literal

open Stencil.Text

/-! ## The grammar -/

/-- Decimal digits, of which there may be none. -/
def Digits (cs : List Char) : Prop := ∀ c ∈ cs, isDigit c = true

/-- An optional sign and at least one digit. -/
def SignedDigits (cs : List Char) : Prop :=
  ∃ sign digits, cs = sign ++ digits ∧ (sign = [] ∨ sign = ['+'] ∨ sign = ['-']) ∧ digits ≠ [] ∧
    Digits digits

/-- The fraction of a numeral, with the digits in it: nothing, or a point and digits. -/
inductive Fraction : (digits text : List Char) → Prop where
  | absent : Fraction [] []
  | point {digits : List Char} (all : Digits digits) : Fraction digits ('.' :: digits)

/-- The digits of a fraction are digits. -/
theorem Fraction.digits {digits text : List Char} (fractional : Fraction digits text) :
    Digits digits := by
  cases fractional with
  | absent => exact fun _ listed => absurd listed List.not_mem_nil
  | point all => exact all

/-- The mark of an exponent. -/
def isExponentMark (c : Char) : Bool := c = 'e' || c = 'E'

/-- The exponent of a numeral: nothing, or a mark and digits behind an optional sign. -/
inductive Exponent : List Char → Prop where
  | absent : Exponent []
  | marked {mark : Char} {power : List Char} (kind : isExponentMark mark = true)
      (signed : SignedDigits power) : Exponent (mark :: power)

/-- A decimal numeral: digits, a fraction and an exponent, with at least one digit before the
exponent. -/
inductive DecimalNumeral : List Char → Prop where
  | parts {whole digits fraction exponent : List Char} (all : Digits whole)
      (fractional : Fraction digits fraction) (some : whole ≠ [] ∨ digits ≠ [])
      (power : Exponent exponent) : DecimalNumeral (whole ++ fraction ++ exponent)

/-- A hexadecimal numeral: a zero, a mark and at least one digit. -/
inductive HexNumeral : List Char → Prop where
  | marked {mark : Char} {digits : List Char} (kind : mark = 'x' ∨ mark = 'X')
      (some : digits ≠ []) (all : ∀ c ∈ digits, (hexValue? c).isSome = true) :
      HexNumeral ('0' :: mark :: digits)

/-- A number literal, as it may be spelt. -/
def Numeral (cs : List Char) : Prop := HexNumeral cs ∨ DecimalNumeral cs

/-! ## Cutting -/

section

variable {p : Char → Bool} {before : List Char}

/-- A text without characters of the kind is not cut. -/
theorem splitAtFirst_of_none (none_ : ∀ c ∈ before, p c = false) :
    splitAtFirst p before = (before, none) := by
  induction before with
  | nil => rfl
  | cons c before ih =>
    rw [splitAtFirst, none_ c (by simp), ih fun d listed => none_ d (List.mem_cons_of_mem _ listed)]
    rfl

/-- A text is cut at a character of the kind before which there is none. -/
theorem splitAtFirst_append {c : Char} (none_ : ∀ c ∈ before, p c = false) (kind : p c = true)
    (after : List Char) : splitAtFirst p (before ++ c :: after) = (before, some after) := by
  induction before with
  | nil => rw [List.nil_append, splitAtFirst, if_pos kind]
  | cons d before ih =>
    rw [List.cons_append, splitAtFirst, none_ d (by simp),
      ih fun d listed => none_ d (List.mem_cons_of_mem _ listed)]
    rfl

/-- What is cut is put together from the parts, and the first holds no character of the kind. -/
theorem splitAtFirst_spec (p : Char → Bool) (cs : List Char) :
    match splitAtFirst p cs with
    | (before, none) => cs = before
    | (before, some after) => ∃ c, p c = true ∧ cs = before ++ c :: after := by
  induction cs with
  | nil => rfl
  | cons c cs ih =>
    rw [splitAtFirst]
    cases kind : p c with
    | true => exact ⟨c, kind, rfl⟩
    | false =>
      rcases cut : splitAtFirst p cs with ⟨before, _ | after⟩
      · rw [cut] at ih
        exact congrArg (c :: ·) ih
      · rw [cut] at ih
        obtain ⟨d, kind, whole⟩ := ih
        exact ⟨d, kind, congrArg (c :: ·) whole⟩

end

/-! ## Exponents -/

/-- A sign is no digit. -/
theorem not_digits_signed {sign : Char} (kind : sign = '+' ∨ sign = '-') (cs : List Char) :
    ¬ Digits (sign :: cs) := by
  intro all
  have digit := all sign (by simp)
  rcases kind with rfl | rfl <;> exact absurd digit (by decide)

/-- Behind a sign there are digits only. -/
theorem signedDigits_cons {sign : Char} (kind : sign = '+' ∨ sign = '-') {cs : List Char} :
    SignedDigits (sign :: cs) ↔ cs ≠ [] ∧ Digits cs := by
  constructor
  · rintro ⟨lead, digits, same, signs, some_, all⟩
    rcases signs with rfl | rfl | rfl
    · obtain rfl : sign :: cs = digits := same
      exact absurd all (not_digits_signed kind cs)
    · obtain ⟨-, rfl⟩ := List.cons.inj same
      exact ⟨some_, all⟩
    · obtain ⟨-, rfl⟩ := List.cons.inj same
      exact ⟨some_, all⟩
  · rintro ⟨some_, all⟩
    refine ⟨[sign], cs, rfl, .inr ?_, some_, all⟩
    rcases kind with rfl | rfl
    · exact .inl rfl
    · exact .inr rfl

/-- Without a sign there are digits only. -/
theorem signedDigits_unsigned {cs : List Char}
    (unsigned : ∀ sign rest, sign = '+' ∨ sign = '-' → cs ≠ sign :: rest) :
    SignedDigits cs ↔ cs ≠ [] ∧ Digits cs := by
  constructor
  · rintro ⟨lead, digits, rfl, signs, some_, all⟩
    rcases signs with rfl | rfl | rfl
    · exact ⟨some_, all⟩
    · exact absurd rfl (unsigned '+' digits (.inl rfl))
    · exact absurd rfl (unsigned '-' digits (.inr rfl))
  · rintro ⟨some_, all⟩
    exact ⟨[], cs, rfl, .inl rfl, some_, all⟩

/-- Digits are read where there are some. -/
theorem isSome_of_digits {α : Type} (digits : List Char) (result : α) :
    (if digits.isEmpty || !digits.all isDigit then none else some result).isSome = true ↔
      digits ≠ [] ∧ Digits digits := by
  cases empty : digits.isEmpty <;> cases all : digits.all isDigit <;>
    simp_all [Digits, List.isEmpty_iff]

/-- An exponent has a value when it is digits behind an optional sign. -/
theorem exponent?_isSome_iff {cs : List Char} :
    (exponent? cs).isSome = true ↔ SignedDigits cs := by
  unfold exponent?
  split
  next negative digits shape =>
  rw [isSome_of_digits]
  split at shape
  · obtain ⟨-, rfl⟩ := Prod.mk.inj shape
    exact (signedDigits_cons (.inl rfl)).symm
  · obtain ⟨-, rfl⟩ := Prod.mk.inj shape
    exact (signedDigits_cons (.inr rfl)).symm
  · next plus minus =>
    obtain ⟨-, rfl⟩ := Prod.mk.inj shape
    refine (signedDigits_unsigned ?_).symm
    rintro sign rest (rfl | rfl)
    · exact plus rest
    · exact minus rest

/-! ## Decimal numerals -/

/-- A digit is no mark and no point. -/
theorem digit_apart {c : Char} (digit : isDigit c = true) :
    isExponentMark c = false ∧ decide (c = '.') = false ∧ c ≠ 'x' ∧ c ≠ 'X' := by
  have table : ∀ c ∈ "0123456789".toList,
      isExponentMark c = false ∧ decide (c = '.') = false ∧ c ≠ 'x' ∧ c ≠ 'X' := by
    decide
  exact table c (Lexing.mem_digits digit)

/-- What stands before an exponent holds no mark of one. -/
theorem mantissa_unmarked {whole digits fraction : List Char} (all : Digits whole)
    (fractional : Fraction digits fraction) :
    ∀ c ∈ whole ++ fraction, isExponentMark c = false := by
  intro c listed
  rcases List.mem_append.1 listed with listed | listed
  · exact (digit_apart (all c listed)).1
  · cases fractional with
    | absent => exact absurd listed List.not_mem_nil
    | point all =>
      rcases List.mem_cons.1 listed with rfl | listed
      · rfl
      · exact (digit_apart (all c listed)).1

/-- The whole part and the fraction are cut at the point. -/
theorem splitAtFirst_point {whole digits fraction : List Char} (all : Digits whole)
    (fractional : Fraction digits fraction) :
    ∃ cut, splitAtFirst (· = '.') (whole ++ fraction) = (whole, cut) ∧ cut.getD [] = digits := by
  have none_ : ∀ c ∈ whole, decide (c = '.') = false := fun c listed =>
    (digit_apart (all c listed)).2.1
  cases fractional with
  | absent => exact ⟨none, by rw [List.append_nil, splitAtFirst_of_none none_], rfl⟩
  | point => exact ⟨some digits, splitAtFirst_append none_ rfl digits, rfl⟩

/-- A run of digits is a decimal numeral. -/
theorem DecimalNumeral.of_digits {cs : List Char} (some_ : cs ≠ []) (all : Digits cs) :
    DecimalNumeral cs := by
  simpa using DecimalNumeral.parts all .absent (.inl some_) .absent

/-- A text with a value as a decimal literal is a decimal numeral. -/
theorem decimalNumeral_of_isSome {cs : List Char} (known : (decimal? cs).isSome = true) :
    DecimalNumeral cs := by
  unfold decimal? at known
  have cut := splitAtFirst_spec (fun c => c = 'e' || c = 'E') cs
  generalize splitAtFirst (fun c => c = 'e' || c = 'E') cs = parts at known cut
  obtain ⟨mantissa, power?⟩ := parts
  dsimp only at known cut
  have cut' := splitAtFirst_spec (· = '.') mantissa
  generalize splitAtFirst (· = '.') mantissa = halves at known cut'
  obtain ⟨whole, fraction?⟩ := halves
  dsimp only at known cut'
  split at known
  · cases known
  next fine =>
  simp only [Bool.or_eq_true, Bool.and_eq_true, Bool.not_eq_true', not_or, not_and,
    List.isEmpty_iff, Bool.not_eq_false, List.all_eq_true] at fine
  obtain ⟨⟨some_, all⟩, all'⟩ := fine
  obtain ⟨fraction, rfl, fractional⟩ : ∃ fraction, mantissa = whole ++ fraction ∧
      Fraction (fraction?.getD []) fraction := by
    cases fraction? with
    | none => exact ⟨[], by rw [cut', List.append_nil], .absent⟩
    | some digits =>
      obtain ⟨c, kind, same⟩ := cut'
      obtain rfl : c = '.' := by simpa using kind
      exact ⟨_, same, .point all'⟩
  have filled : whole ≠ [] ∨ fraction?.getD [] ≠ [] := by
    by_cases empty : whole = []
    · exact .inr (some_ empty)
    · exact .inl empty
  cases power? with
  | none =>
    rw [cut, ← List.append_nil (whole ++ fraction)]
    exact .parts all fractional filled .absent
  | some power =>
    obtain ⟨mark, kind, rfl⟩ := cut
    rw [Option.isSome_map] at known
    exact .parts all fractional filled (.marked kind (exponent?_isSome_iff.1 known))

/-- A decimal numeral has a value. -/
theorem DecimalNumeral.isSome {cs : List Char} (numeral : DecimalNumeral cs) :
    (decimal? cs).isSome = true := by
  obtain ⟨all, fractional, some_, power⟩ := numeral
  next whole digits fraction exponent =>
  have unmarked := mantissa_unmarked all fractional
  obtain ⟨cut, halves, rfl⟩ := splitAtFirst_point all fractional
  have fine : ((whole.isEmpty && (cut.getD []).isEmpty) || !whole.all isDigit
      || !(cut.getD []).all isDigit) = false := by
    have all' : (cut.getD []).all isDigit = true := List.all_eq_true.2 fractional.digits
    have all : whole.all isDigit = true := List.all_eq_true.2 all
    have filled : ¬(whole = [] ∧ cut.getD [] = []) := fun empty =>
      some_.elim (· empty.1) (· empty.2)
    simpa [all, all'] using filled
  unfold decimal?
  cases power with
  | absent =>
    have cut' : splitAtFirst (fun c => c = 'e' || c = 'E') (whole ++ fraction)
        = (whole ++ fraction, none) := splitAtFirst_of_none unmarked
    simp only [List.append_nil, cut', halves, fine, Bool.false_eq_true, if_false, Option.isSome_some]
  | marked kind signed =>
    next mark power =>
    have cut' : splitAtFirst (fun c => c = 'e' || c = 'E') (whole ++ fraction ++ mark :: power)
        = (whole ++ fraction, some power) := splitAtFirst_append unmarked kind power
    simp only [cut', halves, fine, Bool.false_eq_true, if_false, Option.isSome_map]
    exact exponent?_isSome_iff.2 signed

/-! ## Number literals -/

/-- An octal literal is spelt with decimal digits. -/
theorem digits_of_isOctal {cs : List Char} (octal : isOctal cs = true) : cs ≠ [] ∧ Digits cs := by
  unfold isOctal at octal
  split at octal
  · refine ⟨by simp, fun d listed => ?_⟩
    rcases List.mem_cons.1 listed with rfl | listed
    · rfl
    · exact Lexing.isDigit_of_octal (List.all_eq_true.1 octal d listed)
  · cases octal

/-- A decimal numeral holds no hexadecimal mark. -/
theorem DecimalNumeral.unmarked {cs : List Char} (numeral : DecimalNumeral cs) {c : Char}
    (listed : c ∈ cs) : c ≠ 'x' ∧ c ≠ 'X' := by
  have digit {digits : List Char} (all : Digits digits) (listed : c ∈ digits) : c ≠ 'x' ∧ c ≠ 'X' :=
    (digit_apart (all c listed)).2.2
  obtain ⟨all, fractional, -, power⟩ := numeral
  rw [List.mem_append, List.mem_append] at listed
  rcases listed with (listed | listed) | listed
  · exact digit all listed
  · cases fractional with
    | absent => exact absurd listed List.not_mem_nil
    | point all' =>
      rcases List.mem_cons.1 listed with rfl | listed
      · decide
      · exact digit all' listed
  · cases power with
    | absent => exact absurd listed List.not_mem_nil
    | marked kind signed =>
      obtain ⟨sign, digits, rfl, signs, -, all'⟩ := signed
      rcases List.mem_cons.1 listed with rfl | listed
      · constructor <;> rintro rfl <;> cases kind
      · rcases List.mem_append.1 listed with listed | listed
        · rcases signs with rfl | rfl | rfl
          · exact absurd listed List.not_mem_nil
          · rw [List.mem_singleton.1 listed]
            decide
          · rw [List.mem_singleton.1 listed]
            decide
        · exact digit all' listed

/-- A decimal numeral does not begin like a hexadecimal one. -/
theorem DecimalNumeral.hexBody?_eq_none {cs : List Char} (numeral : DecimalNumeral cs) :
    hexBody? cs = none := by
  unfold hexBody?
  split
  · exact absurd rfl (numeral.unmarked (by simp)).1
  · exact absurd rfl (numeral.unmarked (by simp)).2
  · rfl

/-- A text that begins like a hexadecimal literal is its mark and what is behind it. -/
theorem eq_of_hexBody? {cs digits : List Char} (hex : hexBody? cs = some digits) :
    ∃ mark, (mark = 'x' ∨ mark = 'X') ∧ cs = '0' :: mark :: digits := by
  unfold hexBody? at hex
  split at hex
  · obtain rfl := Option.some.inj hex
    exact ⟨'x', .inl rfl, rfl⟩
  · obtain rfl := Option.some.inj hex
    exact ⟨'X', .inr rfl, rfl⟩
  · cases hex

/-- A text has a value as a number literal exactly when it is a numeral. -/
theorem value?_isSome_iff {cs : List Char} : (value? cs).isSome = true ↔ Numeral cs := by
  unfold value?
  constructor
  · intro known
    split at known
    · next digits hex =>
      obtain ⟨mark, kind, rfl⟩ := eq_of_hexBody? hex
      split at known
      · cases known
      · next fine =>
        simp only [Bool.or_eq_true, Bool.not_eq_true', not_or, List.isEmpty_iff,
          Bool.not_eq_false, List.all_eq_true] at fine
        exact .inl (.marked kind fine.1 fine.2)
    · refine .inr ?_
      split at known
      · next octal =>
        obtain ⟨some_, all⟩ := digits_of_isOctal octal
        exact .of_digits some_ all
      · rw [Option.isSome_map] at known
        exact decimalNumeral_of_isSome known
  · rintro (hex | decimal)
    · obtain ⟨kind, some_, all⟩ := hex
      next mark digits =>
      have hex : hexBody? ('0' :: mark :: digits) = some digits := by
        rcases kind with rfl | rfl <;> rfl
      rw [hex]
      dsimp only
      rw [List.all_eq_true.2 all, List.isEmpty_eq_false_iff.2 some_]
      rfl
    · rw [decimal.hexBody?_eq_none]
      dsimp only
      split
      · rfl
      · rw [Option.isSome_map]
        exact decimal.isSome

end Stencil.Number.Literal
