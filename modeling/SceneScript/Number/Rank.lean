/-
The magnitudes of binary64 as places in one ascending list. Rank 0 is zero, the subnormal values
and then the normal ones follow, and the rank after the largest finite value is infinity's. A
rank is the bit pattern without its sign, so a carry out of one binade lands on the first value
of the next, and a quotient is rounded without a case for it.
-/
namespace SceneScript.Number

/-! ## Values by rank -/

/-- The rank of the least normal value. A finite value has a mantissa below the double of it. -/
def normalRank : Nat := 0x10000000000000

/-- The rank of infinity; a finite value's rank is smaller. -/
def infinityRank : Nat := 0x7FF0000000000000

/-- The integer `m` of the value `m * 2 ^ e` at a rank. -/
def mantissa (rank : Nat) : Nat :=
  if rank < normalRank then rank else normalRank + rank % normalRank

/-- The exponent `e` of the value `m * 2 ^ e` at a rank. -/
def exponent (rank : Nat) : Int :=
  if rank < normalRank then -1074 else (rank / normalRank : Nat) - 1075

theorem mantissa_lt (rank : Nat) : mantissa rank < 2 * normalRank := by
  unfold mantissa normalRank; split <;> omega

theorem mantissa_pos {rank : Nat} (h : 0 < rank) : 0 < mantissa rank := by
  unfold mantissa normalRank; split <;> omega

/-- The bit of a negative sign, which stands in front of a rank. -/
def signBit : Nat := 0x8000000000000000

/-- The value with a sign and a rank. -/
def ofRank (negative : Bool) (rank : Nat) : Float :=
  Float.ofBits (UInt64.ofNat (if negative then signBit + rank else rank))

/-- The rank of a value's magnitude. -/
def rankOf (x : Float) : Nat := x.toBits.toNat % signBit

/-- The sign of a value; zeros have one too. -/
def isNegative (x : Float) : Bool := signBit ≤ x.toBits.toNat

/-! ## Rounding a quotient -/

/-- `num / den` rounded to the nearest integer, a half going to the even neighbour. -/
def roundHalfEven (num den : Nat) : Nat :=
  let below := num / den
  let rest := 2 * (num % den)
  if rest < den ∨ (rest = den ∧ below % 2 = 0) then below else below + 1

/-- A whole quotient is not moved. -/
theorem roundHalfEven_mul (n : Nat) {den : Nat} (h : 0 < den) :
    roundHalfEven (n * den) den = n := by
  simp [roundHalfEven, Nat.mul_div_cancel n h, h]

/-- The rounded quotient is one of the two integers around the exact one. -/
theorem roundHalfEven_eq_or (num den : Nat) :
    roundHalfEven num den = num / den ∨ roundHalfEven num den = num / den + 1 := by
  simp only [roundHalfEven]; split <;> simp

/-- The largest `t` for which `2 ^ t` is at most `num / den`. -/
def log2Quotient (num den : Nat) : Int :=
  let t : Int := (num.log2 : Int) - den.log2
  if num <<< (-t).toNat < den <<< t.toNat then t - 1 else t

/-- The rank of the magnitude nearest to `num / den`, a tie going to the even mantissa. The
quotient is rounded on the grid of its binade, which is never finer than the subnormal grid. -/
def rankOfQuotient (num den : Nat) : Nat :=
  if num = 0 then 0
  else
    let e := max (log2Quotient num den - 52) (-1074)
    let steps := roundHalfEven (num <<< (-e).toNat) (den <<< e.toNat)
    min ((e + 1074).toNat * normalRank + steps) infinityRank

end SceneScript.Number
