/-
How a number is written. The digits are always the fewest that read back; a style decides when
they are followed by an exponent instead of being spread around the point, and how a whole
number ends.
-/
import SceneScript.Number.Decimal
namespace SceneScript.Number

/-- The decisions of a number format. -/
structure Style where
  /-- The powers of ten of a leading digit that is written in its place, without an exponent. -/
  isPlain : Int → Bool
  /-- What follows a whole number that is written without an exponent. -/
  wholeEnd : List Char

/-- An integer with a minus sign if it is negative. -/
def integerText (n : Int) : List Char :=
  if n < 0 then '-' :: Nat.toDigits 10 n.natAbs else Nat.toDigits 10 n.natAbs

/-- The digits spread around the point. -/
def Style.plain (style : Style) (d : Decimal) : List Char :=
  let point : Int := d.digits.length + d.exponent
  if 0 ≤ d.exponent then d.digits ++ List.replicate d.exponent.toNat '0' ++ style.wholeEnd
  else if 0 < point then d.digits.take point.toNat ++ '.' :: d.digits.drop point.toNat
  else '0' :: '.' :: (List.replicate (-point).toNat '0' ++ d.digits)

/-- The first digit, the others after a point if there are any, and the power of ten. -/
def scientific (d : Decimal) : List Char :=
  let power := integerText (d.digits.length + d.exponent - 1)
  match d.digits with
  | [first] => first :: 'e' :: power
  | digits => digits.take 1 ++ '.' :: (digits.drop 1 ++ 'e' :: power)

/-- A decimal in a style. -/
def Style.decimal (style : Style) (d : Decimal) : List Char :=
  if style.isPlain (d.digits.length + d.exponent - 1) then style.plain d else scientific d

/-- A magnitude in a style. -/
def Style.magnitude (style : Style) (rank : Nat) : List Char :=
  if rank = infinityRank then ['i', 'n', 'f'] else style.decimal (Decimal.shortest rank)

/-- A number in a style. A zero keeps its sign, and what is not a number has none. -/
def Style.number (style : Style) (x : Float) : List Char :=
  if x.isNaN then ['N', 'a', 'N']
  else if isNegative x then '-' :: style.magnitude (rankOf x)
  else style.magnitude (rankOf x)

end SceneScript.Number
