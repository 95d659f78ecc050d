/-
Decimals: digits and a power of ten, of any length. A decimal is read as the nearest binary64
magnitude, and a magnitude is written with the fewest digits that read back as it; of two such
decimals the nearer one is taken, and of two equally near ones the larger.
-/
import SceneScript.Number.Rank
namespace SceneScript.Number

/-- The number `digits * 10 ^ exponent`; zeros may stand in front of the digits. -/
structure Decimal where
  digits : List Char
  exponent : Int
deriving Repr, DecidableEq

namespace Decimal

/-- The integer that the digits spell. -/
def integer (d : Decimal) : Nat := Nat.ofDigitChars 10 d.digits 0

/-- The decimal that spells an integer. -/
def ofInteger (n : Nat) (exponent : Int) : Decimal := ⟨Nat.toDigits 10 n, exponent⟩

@[simp] theorem integer_ofInteger (n : Nat) (e : Int) : (ofInteger n e).integer = n :=
  Nat.ofDigitChars_ten_toDigits

/-! ## Reading -/

/-- The rank of the magnitude nearest to a decimal. A decimal beyond the range on either side is
settled by its exponent and length alone, so no power is formed that the digits do not pay for. -/
def rank (d : Decimal) : Nat :=
  if d.integer = 0 then 0
  else if 310 < d.exponent then infinityRank
  else if d.digits.length + d.exponent < -330 then 0
  else rankOfQuotient (d.integer * Nat.pow 10 d.exponent.toNat) (Nat.pow 10 (-d.exponent).toNat)

/-! ## Writing -/

/-- The exact decimal value of a finite magnitude. -/
def exact (rank : Nat) : Decimal :=
  let e := Number.exponent rank
  if 0 ≤ e then ofInteger (mantissa rank <<< e.toNat) 0
  else ofInteger (mantissa rank * Nat.pow 5 (-e).toNat) e

/-- A magnitude cut to `count` digits: the exact decimal's two neighbours of that length are
tried, and of those that read back the nearer one is kept, the upper one if they are equally
near. -/
def candidate (rank count : Nat) : Option Decimal :=
  let whole := exact rank
  let dropped := whole.digits.length - count
  let unit := Nat.pow 10 dropped
  let lower := ofInteger (whole.integer / unit) (whole.exponent + dropped)
  let upper := ofInteger (whole.integer / unit + 1) (whole.exponent + dropped)
  if lower.rank = rank then
    if upper.rank = rank ∧ unit ≤ 2 * (whole.integer % unit) then some upper else some lower
  else if upper.rank = rank then some upper
  else none

/-- What `candidate` keeps reads back. -/
theorem rank_of_candidate {rank count : Nat} {d : Decimal} (h : candidate rank count = some d) :
    d.rank = rank := by
  simp only [candidate] at h
  split at h
  · split at h
    · rename_i hu; cases h; exact hu.1
    · rename_i hl _; cases h; exact hl
  · split at h
    · rename_i hu; cases h; exact hu
    · cases h

/-- Zeros at the end of the digits move into the exponent. -/
def normalize (d : Decimal) : Decimal :=
  let kept := (d.digits.reverse.dropWhile (· = '0')).reverse
  ⟨kept, d.exponent + (d.digits.length - kept.length : Nat)⟩

/-- The decimal with the fewest digits that reads back as a finite magnitude. Seventeen digits
are enough; should none be found, the exact value is written. -/
def shortest (rank : Nat) : Decimal :=
  if rank = 0 then ⟨['0'], 0⟩
  else (((List.range' 1 17).findSome? (candidate rank)).getD (exact rank)).normalize

end Decimal

end SceneScript.Number
