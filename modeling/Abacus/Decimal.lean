/-! Decimals, binary64 values, and the way from one to the other and back.

A magnitude is the bit pattern of a value without its sign, as a natural number, so that magnitudes are ordered as the
values they stand for. A decimal is read as the magnitude nearest to it. A value is written as the shortest decimal
that is read as it, without an exponent: powers of ten are tried from the largest to the smallest, and on each only the
two multiples that enclose the value; if any multiple is read as the value, then one of these two is. -/
namespace Abacus

/-- The number `coefficient * 10 ^ exponent`. -/
structure Decimal where
  coefficient : Nat
  exponent : Int
deriving DecidableEq, Repr

namespace Decimal

def numerator (d : Decimal) : Nat := d.coefficient * Nat.pow 10 d.exponent.toNat

def denominator (d : Decimal) : Nat := Nat.pow 10 (-d.exponent).toNat

/-- The digits of `n`, none of them a leading zero except that of 0 itself. -/
def digits (n : Nat) : List Char := Nat.toDigits 10 n

/-- The digits of `n` after a decimal point, `places` of them, without the zeros at their end. -/
def fraction (places n : Nat) : List Char :=
  let shown := digits n
  ((List.replicate (places - shown.length) '0' ++ shown).reverse.dropWhile (· == '0')).reverse

def plain (d : Decimal) : List Char :=
  let whole := digits (d.numerator / d.denominator)
  match fraction (-d.exponent).toNat (d.numerator % d.denominator) with
  | [] => whole
  | places => whole ++ '.' :: places

end Decimal

namespace Binary64

/-- The bits of a value without its sign. -/
def magnitude (x : Float) : Nat := x.toBits.toNat % 0x8000000000000000

def isNegative (x : Float) : Bool := x.toBits.toNat / 0x8000000000000000 == 1

def infinity : Nat := 0x7FF0000000000000

def isFinite (x : Float) : Bool := magnitude x < infinity

def bits (negative : Bool) (m : Nat) : Nat := m + if negative then 0x8000000000000000 else 0

private theorem bits_mod {negative : Bool} {m : Nat} (bound : m ≤ infinity) :
    bits negative m % 0x8000000000000000 = m := by
  unfold infinity at bound
  cases negative <;> simp only [bits, Bool.false_eq_true, if_true, if_false] <;> omega

private theorem bits_lt {negative : Bool} {m : Nat} (bound : m ≤ infinity) :
    bits negative m < UInt64.size := by
  unfold infinity at bound
  unfold UInt64.size
  cases negative <;> simp only [bits, Bool.false_eq_true, if_true, if_false] <;> omega

/-- Bits whose magnitude is at most infinity stand for a value: they are no NaN but the one that
the format keeps. -/
theorem valid_bits (n : Nat) (bound : n % 0x8000000000000000 ≤ infinity) :
    Float.Model.Format.binary64.Valid (UInt64.ofNat n).toBitVec where
  eq_packedNaN exponent significand := by
    exfalso
    apply significand
    apply BitVec.eq_of_toNat_eq
    have ones := congrArg BitVec.toNat exponent
    unfold infinity at bound
    simp only [Float.Model.UnpackedFloat.unpackExponent, Float.Model.UnpackedFloat.unpackMantissa,
      BitVec.toNat_cast, BitVec.extractLsb_toNat] at ones ⊢
    simp [Nat.shiftRight_eq_div_pow] at ones ⊢
    omega

def ofMagnitude (negative : Bool) (m : Nat) (bound : m ≤ infinity) : Float :=
  .ofModel ⟨UInt64.ofNat (bits negative m), valid_bits _ (by rwa [bits_mod bound])⟩

theorem toNat_ofMagnitude (negative : Bool) (m : Nat) (bound : m ≤ infinity) :
    (ofMagnitude negative m bound).toBits.toNat = bits negative m :=
  UInt64.toNat_ofNat_of_lt' (bits_lt bound)

theorem magnitude_ofMagnitude (negative : Bool) (m : Nat) (bound : m ≤ infinity) :
    magnitude (ofMagnitude negative m bound) = m := by
  rw [magnitude, toNat_ofMagnitude, bits_mod bound]

theorem isNegative_ofMagnitude (negative : Bool) (m : Nat) (bound : m ≤ infinity) :
    isNegative (ofMagnitude negative m bound) = negative := by
  rw [isNegative, toNat_ofMagnitude, bits]
  unfold infinity at bound
  cases negative <;> simp only [Bool.false_eq_true, if_true, if_false, beq_iff_eq, beq_eq_false_iff_ne] <;> omega

theorem toBits_injective {x y : Float} (same : x.toBits = y.toBits) : x = y := by
  obtain ⟨⟨bits, valid⟩⟩ := x
  obtain ⟨⟨bits', valid'⟩⟩ := y
  cases (same : bits = bits')
  rfl

theorem ofMagnitude_magnitude (x : Float) (bound : magnitude x ≤ infinity) :
    ofMagnitude (isNegative x) (magnitude x) bound = x := by
  apply toBits_injective
  apply UInt64.toNat_inj.mp
  rw [toNat_ofMagnitude, bits, magnitude, isNegative]
  have size := x.toBits.toNat_lt
  split
  · simp only [beq_iff_eq] at *
    omega
  · simp only [beq_iff_eq] at *
    omega

/-- A finite magnitude as a multiple of the least subnormal value, 2 ^ -1074. -/
def units (m : Nat) : Nat :=
  match m / 0x10000000000000 with
  | 0 => m
  | binade + 1 => (m % 0x10000000000000 + 0x10000000000000) <<< binade

/-- The whole number nearest to a quotient, the even one of two. -/
def roundedQuotient (num den : Nat) : Nat :=
  let floor := num / den
  let twice := 2 * (num % den)
  if twice < den || (twice == den && floor % 2 == 0) then floor else floor + 1

/-- The magnitude nearest to a quotient, ties to even. A significand that rounds up to the next
power of two carries into the exponent, and past the last finite value into infinity. -/
def nearest (num den : Nat) : Nat :=
  let scaled := num <<< 1074
  let binade := (scaled / den).log2 - 52
  min infinity (binade * 0x10000000000000 + roundedQuotient scaled (den <<< binade))

theorem nearest_le_infinity (num den : Nat) : nearest num den ≤ infinity := Nat.min_le_left _ _

end Binary64

namespace Decimal

def magnitude (d : Decimal) : Nat := Binary64.nearest d.numerator d.denominator

def signed (negative : Bool) (d : Decimal) : Float :=
  Binary64.ofMagnitude negative d.magnitude (Binary64.nearest_le_infinity _ _)

def toFloat (d : Decimal) : Float := d.signed false

/-- The multiple of `10 ^ (place - 1074)` nearest to `whole * 10 ^ -1074` that is read as the
magnitude `m`. The upper one of two that are equally near is taken. -/
def multiple? (m whole place : Nat) : Option Nat :=
  let low := whole / Nat.pow 10 place
  let above := whole % Nat.pow 10 place
  let reads (n : Nat) : Bool := (Decimal.mk n (place - 1074)).magnitude == m
  if reads (low + 1) && (Nat.pow 10 place ≤ 2 * above || !reads low) then some (low + 1)
  else if reads low then some low
  else none

/-- The decimal of the highest place, up to `place`, on which a multiple is found. The last place is
left to the whole number itself. -/
def search (found : Nat → Option Nat) (whole : Nat) : Nat → Decimal
  | 0 => ⟨whole, -1074⟩
  | place + 1 =>
    match found (place + 1) with
    | some n => ⟨n, (place + 1 : Nat) - 1074⟩
    | none => search found whole place

/-- At least as many digits as `n` has, since `2 ^ 93 < 10 ^ 28`. -/
def digitBound (n : Nat) : Nat := (n.log2 + 1) * 28 / 93 + 1

/-- The decimal with the fewest digits that is read as the finite magnitude `m`, and of those the
one nearest to its value. -/
def shortest (m : Nat) : Decimal :=
  let whole := Binary64.units m * Nat.pow 5 1074
  search (multiple? m whole) whole (digitBound whole)

end Decimal

structure ValueNotation where
  infinity : String
  negativeZero : String

namespace ValueNotation

/-- The text of a value. A NaN has no sign. -/
def write (style : ValueNotation) (x : Float) : String :=
  let sign := if Binary64.isNegative x then "-" else ""
  let m := Binary64.magnitude x
  if m = 0 then if Binary64.isNegative x then style.negativeZero else "0"
  else if m < Binary64.infinity then sign ++ String.ofList (Decimal.shortest m).plain
  else if m = Binary64.infinity then sign ++ style.infinity
  else "NaN"

/-- As a calculator shows a result: infinity is spelt out and zero has no sign. -/
def display : ValueNotation := ⟨"Infinity", "0"⟩

def literal : ValueNotation := ⟨"inf", "-0"⟩

end ValueNotation

namespace Numeral

/-- A run of digits and points is a numeral if it has a digit and no second point. -/
def wellFormed (run : List Char) : Bool :=
  run.any Char.isDigit && run.count '.' ≤ 1

def ofDigits (run : List Char) : Nat :=
  Nat.ofDigitChars 10 run 0

theorem ofDigits_digits (n : Nat) : ofDigits (Decimal.digits n) = n :=
  Nat.ofDigitChars_ten_toDigits

/-- The exact value: all digits as one number, divided by ten for each digit after the point. -/
def decimal (run : List Char) : Decimal where
  coefficient := ofDigits (run.filter Char.isDigit)
  exponent := -((run.dropWhile (· != '.')).countP Char.isDigit)

def toFloat? (run : List Char) : Option Float :=
  if wellFormed run then some (decimal run).toFloat else none

end Numeral

end Abacus
