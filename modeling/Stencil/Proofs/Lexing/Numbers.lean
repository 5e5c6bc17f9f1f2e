import Stencil.Proofs.Lexing.Words
import Stencil.Proofs.Numbers.Numerals
/-!
# Reading back numbers

A text that has a value as a number literal is read as one run of characters, unless what stands
behind it continues the run. The two forms of a numeral, hexadecimal and decimal, pass through the
same states of the reader: a run of digits keeps the state, a point and an exponent mark are met at
most once each, and a sign only behind the exponent mark.
-/

set_option autoImplicit false

namespace Stencil.Lexing

open Stencil.Text
open Stencil.Number

/-- The state behind further characters of a number, if all of them may belong to it. -/
def statesThrough (state : NumberState) : List Char → Option NumberState
  | [] => some state
  | c :: rest => (state.next? c).bind fun state => statesThrough state rest

/-- The states of two runs in a row. -/
theorem statesThrough_append (state : NumberState) (cs ds : List Char) :
    statesThrough state (cs ++ ds)
      = (statesThrough state cs).bind fun state => statesThrough state ds := by
  induction cs generalizing state with
  | nil => rfl
  | cons c cs ih =>
    simp only [List.cons_append, statesThrough, Option.bind_assoc, ih]

/-- The text continues no number that is not waiting for a sign. -/
def EndsNumber (after : List Char) : Prop :=
  ∀ c, after.head? = some c → isAlphanumeric c = false ∧ c ≠ '.'

/-- The exponent marks and the hexadecimal marks are letters. -/
theorem isAlphanumeric_marks :
    isAlphanumeric 'x' = true ∧ isAlphanumeric 'X' = true ∧ isAlphanumeric 'e' = true ∧
      isAlphanumeric 'E' = true := by
  decide

/-- A run of characters that may belong to a number is read whole. -/
theorem numberRun_append {state last : NumberState} {cs after : List Char}
    (through : statesThrough state cs = some last) (unsigned : last.sign = false)
    (ends : EndsNumber after) : numberRun state (cs ++ after) = cs := by
  induction cs generalizing state with
  | nil =>
    obtain rfl : state = last := Option.some.inj through
    cases after with
    | nil => rfl
    | cons c after =>
      obtain ⟨plain, point⟩ := ends c rfl
      obtain ⟨x, X, e, E⟩ := isAlphanumeric_marks
      have stop : state.next? c = none := by
        have no_mark : c ≠ 'x' ∧ c ≠ 'X' ∧ c ≠ 'e' ∧ c ≠ 'E' := by
          refine ⟨?_, ?_, ?_, ?_⟩ <;> rintro rfl <;> simp_all
        simp [NumberState.next?, no_mark, point, plain, unsigned]
      rw [List.nil_append, numberRun, stop]
  | cons c cs ih =>
    rw [statesThrough] at through
    cases step : state.next? c with
    | none => simp [step] at through
    | some state =>
      rw [step, Option.bind_some] at through
      rw [List.cons_append, numberRun, step]
      simp only [ih through]

/-- Behind a run of digits the state is the same, except that no sign is waited for. -/
theorem statesThrough_digits {p : Char → Bool} {cs : List Char} (all : cs.all p = true)
    {state : NumberState}
    (keeps : ∀ sign, ∀ c, p c = true →
      NumberState.next? { state with sign } c = some { state with sign := false })
    (some : cs ≠ []) : statesThrough state cs = .some { state with sign := false } := by
  induction cs generalizing state with
  | nil => exact absurd rfl some
  | cons c cs ih =>
    rw [List.all_cons, Bool.and_eq_true] at all
    rw [statesThrough, keeps state.sign c all.1, Option.bind_some]
    cases cs with
    | nil => rfl
    | cons d cs => exact ih all.2 (fun sign => keeps sign) (by simp)

/-- A decimal digit keeps the state of a number. -/
theorem next?_digit {c : Char} (digit : isDigit c = true) (state : NumberState) :
    state.next? c = some { state with sign := false } := by
  have no_mark : c ≠ 'x' ∧ c ≠ 'X' ∧ c ≠ 'e' ∧ c ≠ 'E' ∧ c ≠ '-' ∧ c ≠ '+' ∧ c ≠ '.' := by
    refine ⟨?_, ?_, ?_, ?_, ?_, ?_, ?_⟩ <;> rintro rfl <;> exact absurd digit (by decide)
  simp [NumberState.next?, no_mark, isAlphanumeric, digit]

/-- Behind a run of decimal digits no sign is waited for. -/
theorem statesThrough_decimal {cs : List Char} (all : cs.all isDigit = true)
    (state : NumberState) :
    statesThrough state cs
      = some (if cs.isEmpty then state else { state with sign := false }) := by
  cases cs with
  | nil => rfl
  | cons c cs =>
    rw [statesThrough_digits all (fun sign c digit => next?_digit digit _) (by simp)]
    rfl

/-- A hexadecimal digit is a digit or a letter, and no hexadecimal mark. -/
theorem hexDigit_plain {c : Char} (hex : (hexValue? c).isSome = true) :
    isAlphanumeric c = true ∧ c ≠ 'x' ∧ c ≠ 'X' ∧ c ≠ '-' ∧ c ≠ '+' ∧ c ≠ '.' := by
  have small : c.toNat < 128 := by
    unfold hexValue? isDigit at hex
    have le_of (d : Char) (h : c ≤ d) : c.toNat ≤ d.toNat := h
    split at hex
    · rename_i digit
      simp only [Bool.and_eq_true, decide_eq_true_eq] at digit
      have := le_of _ digit.2
      simp at this
      omega
    split at hex
    · rename_i _ letter
      simp only [Bool.and_eq_true, decide_eq_true_eq] at letter
      have := le_of _ letter.2
      simp at this
      omega
    split at hex
    · rename_i _ _ letter
      simp only [Bool.and_eq_true, decide_eq_true_eq] at letter
      have := le_of _ letter.2
      simp at this
      omega
    · simp at hex
  have table : ∀ n < 128, (hexValue? (Char.ofNat n)).isSome = true →
      isAlphanumeric (Char.ofNat n) = true ∧ Char.ofNat n ≠ 'x' ∧ Char.ofNat n ≠ 'X' ∧
        Char.ofNat n ≠ '-' ∧ Char.ofNat n ≠ '+' ∧ Char.ofNat n ≠ '.' := by
    decide
  have entry := table c.toNat small
  rw [Char.ofNat_toNat] at entry
  exact entry hex

/-- A hexadecimal digit keeps the state of a hexadecimal number. -/
theorem next?_hexDigit {c : Char} (hex : (hexValue? c).isSome = true) {state : NumberState}
    (marked : state.hex = true) : state.next? c = some { state with sign := false } := by
  obtain ⟨plain, x, X, minus, plus, point⟩ := hexDigit_plain hex
  simp [NumberState.next?, x, X, minus, plus, point, plain, marked]

/-- A point is met at most once, and neither behind an exponent nor in a hexadecimal number. -/
theorem next?_point (state : NumberState) (fresh : state.point = false)
    (decimal : state.hex = false) (before : state.exponent = false) :
    state.next? '.' = some { state with sign := false, point := true } := by
  simp [NumberState.next?, fresh, decimal, before]

/-- An exponent mark is met at most once, and not in a hexadecimal number. -/
theorem next?_exponent {c : Char} (mark : (c = 'e' || c = 'E') = true) (state : NumberState)
    (decimal : state.hex = false) (before : state.exponent = false) :
    state.next? c = some { state with exponent := true, sign := true } := by
  simp only [Bool.or_eq_true, decide_eq_true_eq] at mark
  rcases mark with rfl | rfl <;> simp [NumberState.next?, decimal, before]

/-- A sign belongs to a number that is waiting for one. -/
theorem next?_sign {c : Char} (sign : c = '-' ∨ c = '+') (state : NumberState)
    (waiting : state.sign = true) : state.next? c = some state := by
  rcases sign with rfl | rfl <;> simp [NumberState.next?, waiting]

/-- The digits of an exponent leave nothing to wait for, whether a sign stands before them or
not. -/
theorem statesThrough_signed {cs : List Char} (signed : Literal.SignedDigits cs)
    {state : NumberState} (waiting : state.sign = true) :
    statesThrough state cs = some { state with sign := false } := by
  obtain ⟨sign, digits, rfl, signs, some_, all⟩ := signed
  have through : statesThrough state digits = some { state with sign := false } := by
    rw [statesThrough_decimal (List.all_eq_true.2 all), if_neg (by simpa using some_)]
  rcases signs with rfl | rfl | rfl
  · exact through
  · rw [List.singleton_append, statesThrough, next?_sign (.inr rfl) state waiting,
      Option.bind_some, through]
  · rw [List.singleton_append, statesThrough, next?_sign (.inl rfl) state waiting,
      Option.bind_some, through]

/-- The state in which the reader of numbers begins. -/
def freshNumber : NumberState := ⟨false, false, false, false⟩

/-- The whole part and the fraction of a number lead to a state that waits for nothing and has
met neither mark. -/
theorem statesThrough_mantissa {whole digits fraction : List Char} (all : Literal.Digits whole)
    (fractional : Literal.Fraction digits fraction) :
    ∃ point, statesThrough freshNumber (whole ++ fraction) = some { freshNumber with point } := by
  have first : statesThrough freshNumber whole = some freshNumber := by
    rw [statesThrough_decimal (List.all_eq_true.2 all)]
    exact congrArg some (ite_self freshNumber)
  cases fractional with
  | absent => exact ⟨false, by rw [List.append_nil, first]; rfl⟩
  | point all' =>
    refine ⟨true, ?_⟩
    rw [statesThrough_append, first, Option.bind_some, statesThrough,
      next?_point freshNumber rfl rfl rfl, Option.bind_some,
      statesThrough_decimal (List.all_eq_true.2 all')]
    exact congrArg some (ite_self _)

/-- What a number literal begins with: a digit, or a point and a digit. -/
def BeginsNumber : List Char → Prop
  | '.' :: c :: _ => isDigit c = true
  | c :: _ => isDigit c = true
  | [] => False

/-- A nonempty run of digits begins a number. -/
theorem beginsNumber_of_digits {c : Char} (digit : isDigit c = true) (rest : List Char) :
    BeginsNumber (c :: rest) := by
  unfold BeginsNumber
  split
  · rename_i same
    obtain ⟨rfl, -⟩ := List.cons.inj same
    exact absurd digit (by decide)
  · rename_i same
    obtain ⟨rfl, -⟩ := List.cons.inj same
    exact digit
  · rename_i same
    simp at same

/-- A decimal numeral begins with a digit, or a point and a digit. -/
theorem beginsNumber_decimal {cs : List Char} (numeral : Literal.DecimalNumeral cs) :
    BeginsNumber cs := by
  obtain ⟨all, fractional, some_, -⟩ := numeral
  next whole digits fraction exponent =>
  cases whole with
  | cons c whole => exact beginsNumber_of_digits (all c (by simp)) _
  | nil =>
    cases fractional with
    | absent => exact absurd some_ (by simp)
    | point all' =>
      cases digits with
      | nil => exact absurd some_ (by simp)
      | cons c digits => exact all' c (by simp)

/-- The reader of numbers gets through a decimal numeral and waits for nothing behind it. -/
theorem statesThrough_decimalNumeral {cs : List Char} (numeral : Literal.DecimalNumeral cs) :
    ∃ last, statesThrough freshNumber cs = some last ∧ last.sign = false := by
  obtain ⟨all, fractional, -, power⟩ := numeral
  obtain ⟨met, through⟩ := statesThrough_mantissa all fractional
  cases power with
  | absent => exact ⟨_, by rw [List.append_nil, through], rfl⟩
  | marked kind signed =>
    refine ⟨{ freshNumber with exponent := true, point := met }, ?_, rfl⟩
    rw [statesThrough_append, through, Option.bind_some, statesThrough,
      next?_exponent kind _ rfl rfl, Option.bind_some, statesThrough_signed signed rfl]
    rfl

/-- The reader of numbers gets through a hexadecimal numeral. -/
theorem statesThrough_hex {mark : Char} (kind : mark = 'x' ∨ mark = 'X') {digits : List Char}
    (some_ : digits ≠ []) (all : digits.all (fun c => (hexValue? c).isSome) = true) :
    statesThrough freshNumber ('0' :: mark :: digits)
      = some { freshNumber with hex := true } := by
  have marked : freshNumber.next? mark = some { freshNumber with hex := true } := by
    rcases kind with rfl | rfl <;> rfl
  have zero : freshNumber.next? '0' = some freshNumber := next?_digit (by decide) _
  rw [statesThrough, zero, Option.bind_some, statesThrough, marked, Option.bind_some,
    statesThrough_digits all (fun sign c hex => next?_hexDigit hex rfl) some_]
  rfl

/-- The reader of numbers gets through every text that has a value, and waits for nothing behind
it. -/
theorem statesThrough_value? {cs : List Char} {value : Float}
    (known : Literal.value? cs = some value) :
    BeginsNumber cs ∧ ∃ last, statesThrough freshNumber cs = some last ∧ last.sign = false := by
  have numeral : Literal.Numeral cs := Literal.value?_isSome_iff.1 (by rw [known]; rfl)
  rcases numeral with hex | decimal
  · obtain ⟨kind, some_, all⟩ := hex
    exact ⟨beginsNumber_of_digits (by decide) _, _,
      statesThrough_hex kind some_ (List.all_eq_true.2 all), rfl⟩
  · exact ⟨beginsNumber_decimal decimal, statesThrough_decimalNumeral decimal⟩

end Stencil.Lexing
