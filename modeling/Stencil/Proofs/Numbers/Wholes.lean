import Mathlib
import Stencil.Number.Text
/-!
# Whole numbers as doubles and as text

A whole number below `2 ^ 53` is a double: its digits in base two fill the significand from the
top. The fewest decimal digits that read such a double back are those of the number itself, so
the text of the double is the decimal spelling of the number.
-/

set_option autoImplicit false

namespace Stencil.Number

open Float.Model Float.Model.UnpackedFloat

/-! ## The double of a whole number -/

/-- Zeros behind the digits of a number raise its leading digit by their count. -/
theorem log2_zeros {m : Nat} (positive : m ≠ 0) (k : Nat) : (m * 2 ^ k).log2 = m.log2 + k := by
  induction k with
  | zero => simp
  | succ k ih =>
    have split : m * 2 ^ (k + 1) = 2 * (m * 2 ^ k) := by rw [Nat.pow_succ]; ac_rfl
    have doubled : m * 2 ^ k ≠ 0 := Nat.mul_ne_zero positive (Nat.pos_iff_ne_zero.mp (Nat.two_pow_pos k))
    rw [split, Nat.log2_two_mul doubled, ih, Nat.add_assoc]

/-- Shifting zeros out of a mantissa loses nothing. -/
theorem shiftRight_zeros (m k : Nat) :
    ExtendedMantissa.mk (m * 2 ^ k) false false >>> k = ⟨m, false, false⟩ := by
  change Nat.repeat ExtendedMantissa.shiftRightOne k _ = _
  induction k generalizing m with
  | zero => simp [Nat.repeat]
  | succ k ih =>
    have split : m * 2 ^ (k + 1) = 2 * m * 2 ^ k := by rw [Nat.pow_succ]; ac_rfl
    simp [Nat.repeat, split, ih, ExtendedMantissa.shiftRightOne]

section Significands

variable {m : Nat} {e : Int} (bits : m.log2 = 52)

include bits in
theorem between_of_log2 : 2 ^ 52 ≤ m ∧ m < 2 ^ 53 := by
  have nonzero : m ≠ 0 := by rintro rfl; simp at bits
  exact (Nat.log2_eq_iff nonzero).mp bits

include bits in
/-- The exponent that the format wants for a significand of 53 bits is the one it has. -/
theorem targetExponent_exact (least : -1074 ≤ e) (k : Nat) :
    Format.binary64.targetExponent (totalExponent (m * 2 ^ k) (e - k)) = e := by
  have nonzero : m ≠ 0 := by rintro rfl; simp at bits
  simp only [totalExponent, log2_zeros nonzero, bits, Format.targetExponent, Format.minExponent,
    Format.mantissaBits]
  omega

include bits in
theorem shiftToTargetExponent_exact (least : -1074 ≤ e) (k : Nat) :
    shiftToTargetExponent Format.binary64 (m * 2 ^ k) (e - k) .exact = (⟨m, false, false⟩, e) := by
  have amount : (e - (e - k)).toNat = k := by omega
  simp only [shiftToTargetExponent, targetExponent_exact bits least, shiftToExponent, amount,
    ExtendedMantissa.ofMantissaAndAccuracy, shiftRight_zeros]
  simp

include bits in
/-- Rounding a number that fits gives the number. -/
theorem roundWithAccuracy_exact (least : -1074 ≤ e) (k : Nat) (positive : 0 < m) :
    roundWithAccuracy Format.binary64 .positive (m * 2 ^ k) (e - k) .exact =
      .finite .positive m e positive := by
  have again := shiftToTargetExponent_exact bits least 0
  simp only [Nat.pow_zero, Nat.mul_one, Int.natCast_zero, Int.sub_zero] at again
  simp [roundWithAccuracy, shiftToTargetExponent_exact bits least, ExtendedMantissa.roundedMantissa,
    ExtendedMantissa.accuracy, Accuracy.roundToNearestEven, again, Nat.pos_iff_ne_zero.mp positive]

include bits in
theorem mul_one_exact (least : -1074 ≤ e) (positive : 0 < m) :
    mul Format.binary64 (.finite .positive m e positive)
      (.finite .positive (2 ^ 52) (-52) (by decide)) = .finite .positive m e positive := by
  exact roundWithAccuracy_exact bits least 52 positive

/-- The sign of a packed number is the sign it was packed with. -/
theorem unpackSign_packComponents (format : Format) (sign : Sign)
    (exponent : BitVec format.exponentBits) (mantissa : BitVec format.mantissaBitsWithoutImplicit) :
    unpackSign (packComponents format sign exponent mantissa) = sign.toBitVec := by
  apply BitVec.eq_of_getLsbD_eq
  intro i below
  obtain rfl : i = 0 := by omega
  simp [unpackSign, packComponents, BitVec.getLsbD_append, BitVec.getElem_append]

/-- The implicit bit stands in front of the mantissa. -/
theorem toNat_implicit (width : Nat) (mantissa : BitVec width) :
    (1#1 ++ mantissa).toNat = 2 ^ width + mantissa.toNat := by
  rw [BitVec.toNat_append, ← Nat.shiftLeft_add_eq_or_of_lt mantissa.isLt]
  simp [Nat.shiftLeft_eq]

/-- A packed positive number, as a number. -/
theorem toNat_packComponents {power : Nat} (fits : power < 2 ^ 11) (mantissa : Nat) :
    (packComponents Format.binary64 .positive (BitVec.ofNat 11 power) (BitVec.ofNat 52 mantissa)).toNat =
      power * 2 ^ 52 + mantissa % 2 ^ 52 := by
  simp only [packComponents, Sign.toBitVec, BitVec.toNat_append, BitVec.toNat_ofNat]
  rw [Nat.mod_eq_of_lt fits, ← Nat.shiftLeft_add_eq_or_of_lt (Nat.mod_lt _ (Nat.two_pow_pos 52)),
    Nat.shiftLeft_eq]
  simp

include bits in
/-- The packed form of a normal double. -/
theorem pack_exact (least : -1074 ≤ e) (greatest : e ≤ 971) (positive : 0 < m) :
    pack Format.binary64 (.finite .positive m e positive) =
      packComponents Format.binary64 .positive (BitVec.ofNat 11 (e + 1075).toNat)
        (BitVec.ofNat 52 m) := by
  have bias : (e + 1023 + 52).toNat = (e + 1075).toNat := by omega
  have fits : ¬ 2048 ≤ (e + 1075).toNat + 1 := by omega
  simp [UnpackedFloat.pack, Format.exponentBias, Format.mantissaBits, bits, bias, fits]

include bits in
theorem unpack_pack (least : -1074 ≤ e) (greatest : e ≤ 971) (positive : 0 < m) :
    unpack Format.binary64 (pack Format.binary64 (.finite .positive m e positive)) =
      .finite .positive m e positive := by
  have small : (e + 1075).toNat < 2 ^ 11 := by omega
  have packed : (BitVec.ofNat 11 (e + 1075).toNat).toNat = (e + 1075).toNat := by
    rw [BitVec.toNat_ofNat, Nat.mod_eq_of_lt small]
  have notTop : BitVec.ofNat 11 (e + 1075).toNat ≠ -1#11 := by
    intro same
    have top : (e + 1075).toNat = 2047 := packed.symm.trans (congrArg BitVec.toNat same)
    omega
  have notBottom : BitVec.ofNat 11 (e + 1075).toNat ≠ 0#11 := by
    intro same
    have bottom : (e + 1075).toNat = 0 := packed.symm.trans (congrArg BitVec.toNat same)
    omega
  rw [pack_exact bits least greatest]
  simp only [UnpackedFloat.unpack, unpackExponent_packComponents, unpackMantissa_packComponents,
    unpackSign_packComponents]
  have lead : (1#1 ++ BitVec.ofNat 52 m).toNat = m := by
    obtain ⟨lower, upper⟩ := between_of_log2 bits
    rw [toNat_implicit, BitVec.toNat_ofNat]
    omega
  have power : ((BitVec.ofNat 11 (e + 1075).toNat).toNat : Int) - (1023 + 52) = e := by
    rw [packed]
    omega
  rw [if_neg notTop, if_neg notBottom]
  exact UnpackedFloat.finite.injEq .. |>.mpr ⟨rfl, lead, power⟩

end Significands

/-- What a double holds is read off its packed form. -/
theorem unpack_model (u : UnpackedFloat) :
    (Float.Model.pack u).unpack = unpack Format.binary64 (pack Format.binary64 u) :=
  rfl

theorem mul_model (a b : Float.Model) :
    a * b = Float.Model.pack (mul Format.binary64 a.unpack b.unpack) :=
  rfl

/-- The one of the format. -/
theorem unpack_one :
    unpack Format.binary64 (0x3FF0000000000000 : UInt64).toBitVec =
      .finite .positive (2 ^ 52) (-52) (by decide) := by
  rfl

/-- The significand of a whole number: its digits in base two, filled up with zeros. -/
def wholeSignificand (n : Nat) : Nat :=
  n * 2 ^ (52 - n.log2)

section Wholes

variable {n : Nat} (positive : 0 < n) (small : n < 2 ^ 53)

include positive small in
theorem log2_le_of_small : n.log2 ≤ 52 := by
  have := (Nat.log2_lt (Nat.pos_iff_ne_zero.mp positive)).mpr small
  omega

include positive small in
theorem log2_wholeSignificand : (wholeSignificand n).log2 = 52 := by
  have := log2_le_of_small positive small
  rw [wholeSignificand, log2_zeros (Nat.pos_iff_ne_zero.mp positive)]
  omega

include positive in
theorem wholeSignificand_pos : 0 < wholeSignificand n :=
  Nat.mul_pos positive (Nat.two_pow_pos _)

include small in
theorem ofNat_whole :
    UnpackedFloat.ofNat Format.binary64 n =
      .finite .positive (wholeSignificand n) (n.log2 - 52) (wholeSignificand_pos positive) := by
  have bound := log2_le_of_small positive small
  have above : compare (n : Int) 0 = .gt := Int.compare_eq_gt.mpr (by omega)
  have target : Format.binary64.targetExponent (totalExponent n 0) = (n.log2 : Int) - 52 := by
    simp only [totalExponent, Format.targetExponent, Format.minExponent, Format.mantissaBits]
    omega
  have amount : (0 - ((n.log2 : Int) - 52)).toNat = 52 - n.log2 := by omega
  have power : 0 - ((52 - n.log2 : Nat) : Int) = (n.log2 : Int) - 52 := by omega
  have rounded := roundWithAccuracy_exact (e := (n.log2 : Int) - 52)
    (log2_wholeSignificand positive small) (by omega) 0 (wholeSignificand_pos positive)
  simp only [UnpackedFloat.ofNat, UnpackedFloat.ofInt, UnpackedFloat.normalize, above,
    Int.toNat_natCast, UnpackedFloat.round, target, decreaseExponent, amount, power, Nat.shiftLeft_eq]
  simpa [wholeSignificand] using rounded

include small in
/-- The double of a small whole number is the number itself. -/
theorem toModel_toFloat :
    n.toFloat.toModel =
      Float.Model.pack (.finite .positive (wholeSignificand n) (n.log2 - 52) (wholeSignificand_pos positive)) := by
  have scientific : n.toFloat = Float.ofScientific n false 0 := rfl
  have word : n.toUInt64.toNat = n := by
    rw [Nat.toUInt64_eq, UInt64.toNat_ofNat']
    omega
  have converted : n.toUInt64.toFloat.toModel =
      Float.Model.pack (UnpackedFloat.ofNat Format.binary64 n) := by
    change Float.Model.pack (UnpackedFloat.ofNat Format.binary64 n.toUInt64.toNat) = _
    rw [word]
  have product : n.toFloat.toModel = n.toUInt64.toFloat.toModel * Float.Model.ofBits 0x3FF0000000000000 := by
    rw [scientific, Float.ofScientific, dif_pos ⟨small, by decide⟩]
    rfl
  have one : (Float.Model.ofBits 0x3FF0000000000000).unpack =
      .finite .positive (2 ^ 52) (-52) (by decide) := by
    rw [Float.Model.ofBits, unpack_model, unpack_one, unpack_pack (by decide) (by decide) (by decide)]
  rw [product, converted, ofNat_whole positive small]
  have bound := log2_le_of_small positive small
  have bits := log2_wholeSignificand positive small
  rw [mul_model, one, unpack_model, unpack_pack bits (by omega) (by omega), mul_one_exact bits (by omega)]

include positive small in
theorem unpack_toFloat :
    n.toFloat.toModel.unpack =
      .finite .positive (wholeSignificand n) (n.log2 - 52) (wholeSignificand_pos positive) := by
  have bound := log2_le_of_small positive small
  rw [toModel_toFloat positive small, unpack_model,
    unpack_pack (log2_wholeSignificand positive small) (by omega) (by omega)]

include positive small in
theorem toNat_toBits_toFloat :
    n.toFloat.toBits.toNat = (n.log2 + 1023) * 2 ^ 52 + wholeSignificand n % 2 ^ 52 := by
  have bound := log2_le_of_small positive small
  have power : ((n.log2 : Int) - 52 + 1075).toNat = n.log2 + 1023 := by omega
  change (n.toFloat.toModel.toBits.toBitVec).toNat = _
  rw [toModel_toFloat positive small]
  change (UnpackedFloat.pack Format.binary64 _).toNat = _
  rw [pack_exact (log2_wholeSignificand positive small) (by omega) (by omega), power,
    toNat_packComponents (by omega)]

/-- A whole number as a binary number, with zeros behind its binary digits. -/
def Binary.ofWhole (n zeros : Nat) (narrowBelow : Bool) : Binary :=
  ⟨n * 2 ^ zeros, -(zeros : Int), narrowBelow⟩

include positive small in
/-- The bits of a whole number hold its digits and its power of two. -/
theorem ofBits_toFloat :
    ∃ narrowBelow, Binary.ofBits n.toFloat.toBits.toNat =
      .ofWhole n (52 - n.log2) narrowBelow := by
  have bound := log2_le_of_small positive small
  obtain ⟨lower, upper⟩ := between_of_log2 (log2_wholeSignificand positive small)
  have whole : 2 ^ 52 + wholeSignificand n % 2 ^ 52 = n * 2 ^ (52 - n.log2) := by
    change _ = wholeSignificand n
    omega
  have biased : ((n.log2 + 1023) * 2 ^ 52 + wholeSignificand n % 2 ^ 52) / 2 ^ 52 % 2048 = n.log2 + 1023 := by
    omega
  have fraction : ((n.log2 + 1023) * 2 ^ 52 + wholeSignificand n % 2 ^ 52) % 2 ^ 52 =
      wholeSignificand n % 2 ^ 52 := by
    omega
  have exponent : ((n.log2 + 1023 : Nat) : Int) - 1075 = -((52 - n.log2 : Nat) : Int) := by omega
  rw [toNat_toBits_toFloat positive small, Binary.ofBits]
  simp only [Nat.pow_eq, biased, fraction, whole, exponent]
  rw [if_neg (by omega)]
  exact ⟨_, rfl⟩

end Wholes

/-! ## The decimal of a whole number -/

/-- Zeros behind a number are zeros behind its digits. -/
theorem toDigits_zeros {m : Nat} (positive : 0 < m) (zeros : Nat) :
    Nat.toDigits 10 (m * 10 ^ zeros) = Nat.toDigits 10 m ++ List.replicate zeros '0' := by
  induction zeros with
  | zero => simp
  | succ zeros ih =>
    have split : m * 10 ^ (zeros + 1) = 10 * (m * 10 ^ zeros) + 0 := by
      rw [Nat.pow_succ, Nat.add_zero]; ac_rfl
    have longer : 0 < m * 10 ^ zeros := Nat.mul_pos positive (Nat.pow_pos (by decide))
    rw [split, ← Nat.toDigits_append_toDigits (by decide) longer (by decide), ih,
      Nat.toDigits_zero, List.replicate_succ', List.append_assoc]

namespace Binary

/-- The count of units that are not above the number. -/
def unitsBelow (b : Binary) (unit : Int) : Nat :=
  4 * b.significand * (Nat.pow 10 (-unit).toNat * Nat.pow 2 (b.exponent - 2).toNat) /
    (Nat.pow 10 unit.toNat * Nat.pow 2 (2 - b.exponent).toNat)

/-- Whether a count of units reads back as the number. -/
def readsBack (b : Binary) (unit : Int) (count : Nat) : Bool :=
  let perQuarter := Nat.pow 10 (-unit).toNat * Nat.pow 2 (b.exponent - 2).toNat
  let least := (4 * b.significand - if b.narrowBelow then 1 else 2) * perQuarter
  let greatest := (4 * b.significand + 2) * perQuarter
  let at_ := count * (Nat.pow 10 unit.toNat * Nat.pow 2 (2 - b.exponent).toNat)
  if b.significand % 2 = 0 then least ≤ at_ && at_ ≤ greatest else least < at_ && at_ < greatest

/-- Where the neighbour above does not read back, the one below decides. -/
theorem onGrid_of_below {b : Binary} {unit : Int} (tie : Tie)
    (above : b.readsBack unit (b.unitsBelow unit + 1) = false) :
    b.onGrid tie unit =
      if b.readsBack unit (b.unitsBelow unit) then some (b.unitsBelow unit) else none := by
  unfold onGrid
  dsimp only
  split
  next upper => exact absurd (above.symm.trans upper) (by decide)
  next lower _ => exact (if_pos lower).symm
  next upper => exact absurd (above.symm.trans upper) (by decide)
  next lower _ =>
    have missed : b.readsBack unit (b.unitsBelow unit) = false := lower
    rw [missed]
    exact (if_neg Bool.false_ne_true).symm

/-- Of the multiples of a step of at least four, only the number itself is within two of it. -/
theorem near_iff {a b step below : Nat} (positive : 0 < b) (wide : 4 ≤ step) (some_ : 1 ≤ below)
    (few : below ≤ 2) :
    ((b * step - below ≤ a * step ∧ a * step ≤ b * step + 2) ↔ a = b) ∧
      ((b * step - below < a * step ∧ a * step < b * step + 2) ↔ a = b) := by
  have inside := Nat.mul_pos positive (by omega : 0 < step)
  rcases Nat.lt_trichotomy a b with less | rfl | more
  · have apart := Nat.mul_le_mul_right step (Nat.succ_le_of_lt less)
    rw [Nat.succ_mul] at apart
    constructor <;> omega
  · constructor <;> omega
  · have apart := Nat.mul_le_mul_right step (Nat.succ_le_of_lt more)
    rw [Nat.succ_mul] at apart
    constructor <;> omega

section Wholes

variable {n : Nat} (positive : 0 < n) (zeros : Nat) (narrowBelow : Bool)

theorem unitsBelow_ofWhole (unit : Nat) :
    (ofWhole n zeros narrowBelow).unitsBelow unit = n / 10 ^ unit := by
  have perUnit : (2 - -(zeros : Int)).toNat = zeros + 2 := by omega
  have perQuarter : (-(zeros : Int) - 2).toNat = 0 := by omega
  have noFraction : (-(unit : Int)).toNat = 0 := by omega
  have quarters : 4 * (n * 2 ^ zeros) = n * 2 ^ (zeros + 2) := by
    rw [Nat.pow_add, Nat.mul_comm 4, Nat.mul_assoc]
  simp only [unitsBelow, ofWhole, Nat.pow_eq, perUnit, perQuarter, noFraction, quarters,
    Int.toNat_natCast, Nat.pow_zero, Nat.mul_one]
  exact Nat.mul_div_mul_right _ _ (Nat.two_pow_pos _)

include positive in
/-- Half a binary place is less than one, so a whole number is read back from itself only. -/
theorem readsBack_ofWhole (unit count : Nat) :
    (ofWhole n zeros narrowBelow).readsBack unit count = decide (count * 10 ^ unit = n) := by
  have perUnit : (2 - -(zeros : Int)).toNat = zeros + 2 := by omega
  have perQuarter : (-(zeros : Int) - 2).toNat = 0 := by omega
  have noFraction : (-(unit : Int)).toNat = 0 := by omega
  have quarters : 4 * (n * 2 ^ zeros) = n * 2 ^ (zeros + 2) := by
    rw [Nat.pow_add, Nat.mul_comm 4, Nat.mul_assoc]
  have wide : 4 ≤ 2 ^ (zeros + 2) := by
    have := Nat.two_pow_pos zeros
    rw [Nat.pow_add]
    omega
  simp only [readsBack, ofWhole, Nat.pow_eq, perUnit, perQuarter, noFraction, quarters,
    Int.toNat_natCast, Nat.pow_zero, Nat.mul_one, ← Nat.mul_assoc]
  have some_ : 1 ≤ (if narrowBelow = true then 1 else 2) := by split <;> decide
  have few : (if narrowBelow = true then 1 else 2) ≤ 2 := by split <;> decide
  obtain ⟨closed, open_⟩ := near_iff (a := count * 10 ^ unit) positive wide some_ few
  rw [Bool.eq_iff_iff, decide_eq_true_iff]
  split
  · rw [Bool.and_eq_true, decide_eq_true_iff, decide_eq_true_iff]
    exact closed
  · rw [Bool.and_eq_true, decide_eq_true_iff, decide_eq_true_iff]
    exact open_

include positive in
/-- A whole number lies on the grids of the powers of ten that divide it, and on no other. -/
theorem onGrid_ofWhole (tie : Tie) (unit : Nat) :
    (ofWhole n zeros narrowBelow).onGrid tie unit =
      if 10 ^ unit ∣ n then some (n / 10 ^ unit) else none := by
  have tens : 0 < 10 ^ unit := Nat.pow_pos (by decide)
  have above : (n / 10 ^ unit + 1) * 10 ^ unit ≠ n := by
    have := Nat.lt_div_mul_add (a := n) tens
    rw [Nat.succ_mul]
    omega
  have below : n / 10 ^ unit * 10 ^ unit = n ↔ 10 ^ unit ∣ n :=
    ⟨fun same => ⟨_, same.symm.trans (Nat.mul_comm ..)⟩, Nat.div_mul_cancel⟩
  rw [onGrid_of_below tie (by
      rw [readsBack_ofWhole positive, unitsBelow_ofWhole]
      exact decide_eq_false above),
    readsBack_ofWhole positive, unitsBelow_ofWhole]
  simp only [decide_eq_true_iff, below]

include positive in
theorem magnitude_ofWhole :
    (ofWhole n zeros narrowBelow).magnitude = (Decimal.digitCount n : Int) - 1 := by
  have numerator : (-(zeros : Int)).toNat = 0 := by omega
  have denominator : (- -(zeros : Int)).toNat = zeros := by omega
  have least : 2 ^ zeros ≤ n * 2 ^ zeros := Nat.le_mul_of_pos_left _ positive
  simp only [magnitude, ofWhole, Nat.pow_eq, numerator, denominator, Nat.pow_zero, Nat.mul_one]
  rw [if_pos least, Nat.mul_div_cancel _ (Nat.two_pow_pos zeros)]

include positive in
/-- The search for the shortest decimal of a whole number ends at a power of ten that divides
it. -/
theorem shortestFrom_ofWhole (tie : Tie) {unit tries : Nat} (enough : unit ≤ tries) :
    ∃ unit' : Nat, 10 ^ unit' ∣ n ∧
      (ofWhole n zeros narrowBelow).shortestFrom tie unit tries = ⟨n / 10 ^ unit', unit'⟩ := by
  induction tries generalizing unit with
  | zero =>
    obtain rfl : unit = 0 := by omega
    have divides : 10 ^ 0 ∣ n := Nat.one_dvd n
    refine ⟨0, divides, ?_⟩
    rw [shortestFrom, onGrid_ofWhole positive, if_pos divides]
    rfl
  | succ tries ih =>
    rw [shortestFrom, onGrid_ofWhole positive]
    by_cases divides : 10 ^ unit ∣ n
    · exact ⟨unit, divides, by rw [if_pos divides]⟩
    · have some_ : unit ≠ 0 := by
        rintro rfl
        exact divides (Nat.one_dvd _)
      have finer : (unit : Int) - 1 = (unit - 1 : Nat) := by omega
      simpa only [if_neg divides, finer] using ih (by omega : unit - 1 ≤ tries)

end Wholes

end Binary

namespace Decimal

/-- Zeros behind a number count as digits of it. -/
theorem digitCount_zeros {m : Nat} (positive : 0 < m) (zeros : Nat) :
    digitCount (m * 10 ^ zeros) = digitCount m + zeros := by
  rw [digitCount, toDigits_zeros positive, List.length_append, List.length_replicate, digitCount]

/-- Moving zeros from the digits to the exponent leaves the number as it is. -/
theorem trimWithin_whole (most m zeros : Nat) :
    ∃ m' zeros' : Nat, trimWithin most ⟨m, zeros⟩ = ⟨m', zeros'⟩ ∧ m' * 10 ^ zeros' = m * 10 ^ zeros := by
  induction most generalizing m zeros with
  | zero => exact ⟨m, zeros, rfl, rfl⟩
  | succ most ih =>
    rw [trimWithin]
    split
    · rename_i ends
      obtain ⟨m', zeros', trimmed, same⟩ := ih (m / 10) (zeros + 1)
      refine ⟨m', zeros', trimmed, same.trans ?_⟩
      rw [Nat.pow_succ', ← Nat.mul_assoc, Nat.div_mul_cancel (Nat.dvd_of_mod_eq_zero ends.2)]
    · exact ⟨m, zeros, rfl, rfl⟩

/-- The shortest decimal of a whole number is the number. -/
theorem shortest_toFloat (tie : Tie) {n : Nat} (positive : 0 < n) (small : n < 2 ^ 53) :
    ∃ m zeros : Nat, shortest tie n.toFloat = ⟨m, zeros⟩ ∧ m * 10 ^ zeros = n := by
  obtain ⟨narrowBelow, bits⟩ := ofBits_toFloat positive small
  have few : digitCount n ≤ 17 :=
    (Nat.length_toDigits_le_iff (by decide) (by decide)).mpr (Nat.lt_trans small (by decide))
  have first : (digitCount n : Int) - 1 = (digitCount n - 1 : Nat) := by
    have : 0 < digitCount n := Nat.length_toDigits_pos
    omega
  obtain ⟨unit, divides, found⟩ := Binary.shortestFrom_ofWhole positive (52 - n.log2) narrowBelow tie
    (by omega : digitCount n - 1 ≤ 17)
  have nonzero : (Binary.ofWhole n (52 - n.log2) narrowBelow).significand ≠ 0 :=
    Nat.pos_iff_ne_zero.mp (wholeSignificand_pos positive)
  obtain ⟨m, zeros, trimmed, same⟩ := trimWithin_whole (digitCount (n / 10 ^ unit)) (n / 10 ^ unit) unit
  refine ⟨m, zeros, ?_, same.trans (Nat.div_mul_cancel divides)⟩
  rw [shortest, bits, if_neg nonzero, Binary.magnitude_ofWhole positive, first, found]
  exact trimmed

end Decimal

/-! ## The text of a whole number -/

theorem isNegative_toFloat {n : Nat} (positive : 0 < n) (small : n < 2 ^ 53) :
    Style.isNegative n.toFloat = false := by
  have bound := log2_le_of_small positive small
  rw [Style.isNegative, decide_eq_false_iff_not, toNat_toBits_toFloat positive small, Nat.pow_eq]
  omega

/-- A decimal without a fraction is written with its zeros. -/
theorem positional_whole (style : Style) (wholes : style.wholeAsFraction = false) {m : Nat}
    (positive : 0 < m) (zeros : Nat) :
    style.positional ⟨m, zeros⟩ = Nat.toDigits 10 (m * 10 ^ zeros) := by
  rw [Style.positional, if_pos (Int.natCast_nonneg zeros), Style.fractionText, wholes]
  simp [toDigits_zeros positive]

/-- The text of a whole number below `2 ^ 53` is its decimal spelling. -/
theorem toText_toFloat {n : Nat} (small : n < 2 ^ 53) : toText n.toFloat = toString n := by
  rcases Nat.eq_zero_or_pos n with rfl | positive
  · decide
  have unpacked := unpack_toFloat positive small
  have number : n.toFloat.isNaN = false := by
    change n.toFloat.toModel.unpack.isNaN = false
    rw [unpacked]
    rfl
  have finite_ : n.toFloat.isInf = false := by
    change n.toFloat.toModel.unpack.isInf = false
    rw [unpacked]
    rfl
  obtain ⟨m, zeros, short, same⟩ := Decimal.shortest_toFloat .toGreater positive small
  have some_ : 0 < m := by
    rcases Nat.eq_zero_or_pos m with rfl | some_
    · omega
    · exact some_
  have few : Decimal.digitCount n ≤ 16 :=
    (Nat.length_toDigits_le_iff (by decide) (by decide)).mpr (Nat.lt_trans small (by decide))
  have size : (⟨m, zeros⟩ : Decimal).magnitude = (Decimal.digitCount n : Int) - 1 := by
    rw [← same, Decimal.digitCount_zeros some_, Decimal.magnitude]
    dsimp only
    omega
  rw [toText, Style.write, number, finite_, isNegative_toFloat positive small]
  simp only [Bool.false_eq_true, if_false, scriptStyle, short]
  rw [if_neg (Nat.pos_iff_ne_zero.mp some_), size, if_pos (by omega),
    positional_whole _ rfl some_, same, Nat.toString_eq_ofList_toDigits]
  rfl

end Stencil.Number
