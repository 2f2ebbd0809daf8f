namespace PatternAction

-- Powers of whole numbers are those of the core library, whatever other powers there are.
attribute [default_instance 20000, instance (high)] instPowNat

-- The whole number nearest to a quotient; a tie goes to the even one.
def roundQuotient (num den : Nat) : Nat :=
  let q := num / den
  let twice := 2 * (num % den)
  if twice < den ∨ (twice = den ∧ q % 2 = 0) then q else q + 1

theorem roundQuotient_le (num den : Nat) : roundQuotient num den ≤ num / den + 1 := by
  unfold roundQuotient
  simp only
  split <;> omega

theorem le_roundQuotient (num den : Nat) : num / den ≤ roundQuotient num den := by
  unfold roundQuotient
  simp only
  split <;> omega

namespace Number

def one : Nat := 2 ^ 1074

-- Magnitudes from here on are infinite.
def limit : Nat := 2 ^ 2098

-- Numbers of about this many units lie `2 ^ spacing` units apart.
def spacing (units : Nat) : Nat := units.log2 - 52

theorem pow_spacing_dvd {m : Nat} (h : m ≤ 2 ^ 53) (k : Nat) :
    2 ^ spacing (m * 2 ^ k) ∣ m * 2 ^ k := by
  by_cases hm : m = 0
  · simp [hm]
  have pos : m * 2 ^ k ≠ 0 := Nat.mul_ne_zero hm (Nat.ne_of_gt (Nat.pow_pos (by decide)))
  rcases Nat.lt_or_eq_of_le h with h | rfl
  · have : (m * 2 ^ k).log2 < 53 + k := by
      rw [Nat.log2_lt pos, Nat.pow_add]
      exact Nat.mul_lt_mul_of_pos_right h (Nat.pow_pos (by decide))
    have : spacing (m * 2 ^ k) ≤ k := by unfold spacing; omega
    exact Nat.dvd_trans (Nat.pow_dvd_pow 2 this) (Nat.dvd_mul_left _ _)
  · rw [← Nat.pow_add]
    apply Nat.pow_dvd_pow
    have : (2 ^ (53 + k)).log2 = 53 + k := Nat.log2_two_pow
    unfold spacing
    omega

-- A quotient of whole numbers, rounded to a multiple of the spacing at its size.
def roundUnits (num den : Nat) : Nat :=
  let k := spacing (num / den)
  roundQuotient num (den * 2 ^ k) * 2 ^ k

theorem pow_spacing_dvd_roundUnits (num den : Nat) :
    2 ^ spacing (roundUnits num den) ∣ roundUnits num den := by
  apply pow_spacing_dvd
  refine Nat.le_trans (roundQuotient_le _ _) (Nat.succ_le_of_lt ?_)
  rw [← Nat.div_div_eq_div_mul]
  apply Nat.div_lt_of_lt_mul
  rw [← Nat.pow_add]
  refine Nat.lt_of_lt_of_le Nat.lt_log2_self (Nat.pow_le_pow_right (by decide) ?_)
  unfold spacing
  omega

end Number

-- The size of a finite number, in units of 2⁻¹⁰⁷⁴, the least positive number. Only multiples of the
-- spacing at their size exist.
structure Magnitude where
  units : Nat
  lt_limit : units < Number.limit
  dvd : 2 ^ Number.spacing units ∣ units
deriving DecidableEq

inductive Number
  | nan
  | infinite (negative : Bool)
  | finite (negative : Bool) (size : Magnitude)
deriving DecidableEq

namespace Number

def ofRatio (negative : Bool) (num den : Nat) : Number :=
  if h : roundUnits num den < limit then
    .finite negative ⟨roundUnits num den, h, pow_spacing_dvd_roundUnits num den⟩
  else .infinite negative

def ofUnits (negative : Bool) (units : Nat) : Number := ofRatio negative units 1

def zero : Number := ofUnits false 0

instance : Inhabited Number := ⟨zero⟩

def ofNat (n : Nat) : Number := ofUnits false (n * one)

def signed (negative : Bool) (size : Magnitude) : Int :=
  if negative then -(size.units : Int) else size.units

-- The sign, which zero has too.
def signBit : Number → Bool
  | nan => false
  | infinite negative | finite negative _ => negative

def isZero : Number → Bool
  | finite _ size => size.units == 0
  | _ => false

def isNegative (x : Number) : Bool := x.signBit && !x.isZero

def isNan : Number → Bool
  | nan => true
  | _ => false

def neg : Number → Number
  | nan => nan
  | infinite negative => infinite (!negative)
  | finite negative size => finite (!negative) size

def abs : Number → Number
  | nan => nan
  | infinite _ => infinite false
  | finite _ size => finite false size

-- An exact sum of zero is negative only if both terms are.
def add : Number → Number → Number
  | nan, _ | _, nan => nan
  | infinite a, infinite b => if a = b then infinite a else nan
  | infinite a, finite _ _ => infinite a
  | finite _ _, infinite b => infinite b
  | finite a x, finite b y =>
    let sum := signed a x + signed b y
    if sum = 0 then ofUnits (a && b) 0 else ofUnits (sum < 0) sum.natAbs

def sub (x y : Number) : Number := x.add y.neg

def mul : Number → Number → Number
  | nan, _ | _, nan => nan
  | infinite a, infinite b => infinite (a != b)
  | infinite a, finite b y => if y.units = 0 then nan else infinite (a != b)
  | finite a x, infinite b => if x.units = 0 then nan else infinite (a != b)
  | finite a x, finite b y => ofRatio (a != b) (x.units * y.units) one

def div : Number → Number → Number
  | nan, _ | _, nan => nan
  | infinite _, infinite _ => nan
  | infinite a, finite b _ => infinite (a != b)
  | finite a _, infinite b => ofUnits (a != b) 0
  | finite a x, finite b y =>
    if y.units = 0 then
      if x.units = 0 then nan else infinite (a != b)
    else ofRatio (a != b) (x.units * one) y.units

-- The remainder of the division that cuts off the fraction; it has the sign of the dividend.
def mod : Number → Number → Number
  | nan, _ | _, nan => nan
  | infinite _, _ => nan
  | finite a x, infinite _ => finite a x
  | finite a x, finite _ y => if y.units = 0 then nan else ofUnits a (x.units % y.units)

def trunc : Number → Number
  | finite negative size => ofUnits negative (size.units / one * one)
  | x => x

-- The whole part, moved into `[lo, hi]`; zero for what is not a number.
def toIntWithin (lo hi : Int) : Number → Int
  | nan => 0
  | infinite negative => if negative then lo else hi
  | finite negative size =>
    let whole : Int := size.units / one
    max lo (min hi (if negative then -whole else whole))

-- The bits of the interchange format, as a number below 2⁶⁴.
def toBits : Number → Nat
  | nan => 2047 * 2 ^ 52 + 2 ^ 51
  | infinite negative => negative.toNat * 2 ^ 63 + 2047 * 2 ^ 52
  | finite negative size =>
    let k := spacing size.units
    negative.toNat * 2 ^ 63 + k * 2 ^ 52 + size.units / 2 ^ k

def ofBits (bits : Nat) : Number :=
  let negative := bits / 2 ^ 63 % 2 == 1
  let exponent := bits / 2 ^ 52 % 2048
  let fraction := bits % 2 ^ 52
  if exponent = 2047 then
    if fraction = 0 then infinite negative else nan
  else if exponent = 0 then ofUnits negative fraction
  else ofUnits negative ((2 ^ 52 + fraction) * 2 ^ (exponent - 1))

-- The power, as the machine computes it.
def pow (x y : Number) : Number :=
  let float (n : Number) : Float := Float.ofBits n.toBits.toUInt64
  ofBits (Float.pow (float x) (float y)).toBits.toNat

-- The order of two numbers, unless one of them is not a number. The two zeros are equal.
def compare? : Number → Number → Option Ordering
  | nan, _ | _, nan => none
  | infinite a, infinite b => some (compare b.toNat a.toNat)
  | infinite a, finite _ _ => some (if a then .lt else .gt)
  | finite _ _, infinite b => some (if b then .gt else .lt)
  | finite a x, finite b y => some (compare (signed a x) (signed b y))

end Number

end PatternAction
