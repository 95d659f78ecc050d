/-
Numerals: the words that stand for numbers. A real numeral is an optional sign before `inf`,
`infinity` or `nan` in any letter case, or before digits with at most one point and an optional
exponent; an integer numeral is an optional sign before digits. Digits are those of ASCII.
-/
import SceneScript.Number.Decimal
namespace SceneScript.Number

/-! ## Integers -/

/-- The number that a non-empty run of digits spells. -/
def digits? (cs : List Char) : Option Nat :=
  if cs ≠ [] ∧ cs.all Char.isDigit then some (Nat.ofDigitChars 10 cs 0) else none

/-- A numeral without a minus sign. -/
def natural? : List Char → Option Nat
  | '+' :: cs => digits? cs
  | cs => digits? cs

/-- A numeral with any sign. -/
def integer? : List Char → Option Int
  | '-' :: cs => (digits? cs).map fun n => -(n : Int)
  | cs => (natural? cs).map fun n => (n : Int)

theorem digits?_eq_some_iff {cs : List Char} {n : Nat} :
    digits? cs = some n ↔ cs ≠ [] ∧ cs.all Char.isDigit = true ∧ Nat.ofDigitChars 10 cs 0 = n := by
  unfold digits?
  split
  · rename_i h; simp [h.1, h.2]
  · rename_i h
    exact ⟨nofun, fun ⟨hne, hall, _⟩ => absurd ⟨hne, hall⟩ h⟩

/-! ## Reals -/

/-- What a real numeral says besides its sign. -/
inductive Magnitude where
  | decimal (value : Decimal)
  | infinity
  | nan
deriving Repr, DecidableEq

/-- A real numeral. -/
structure Numeral where
  negative : Bool
  magnitude : Magnitude
deriving Repr, DecidableEq

/-- The power of ten that the end of a numeral adds. -/
def exponentPart? : List Char → Option Int
  | [] => some 0
  | c :: cs => if c = 'e' ∨ c = 'E' then integer? cs else none

/-- Digits with at most one point among or beside them, then an optional exponent. -/
def decimal? (cs : List Char) : Option Decimal :=
  let whole := cs.takeWhile Char.isDigit
  let (fraction, rest) := match cs.dropWhile Char.isDigit with
    | '.' :: tail => (tail.takeWhile Char.isDigit, tail.dropWhile Char.isDigit)
    | tail => ([], tail)
  if whole ++ fraction = [] then none
  else (exponentPart? rest).map fun e => ⟨whole ++ fraction, e - fraction.length⟩

/-- A real numeral without its sign. -/
def magnitude? (cs : List Char) : Option Magnitude :=
  let name := cs.map Char.toLower
  if name = ['i', 'n', 'f'] ∨ name = ['i', 'n', 'f', 'i', 'n', 'i', 't', 'y'] then some .infinity
  else if name = ['n', 'a', 'n'] then some .nan
  else (decimal? cs).map .decimal

/-- The real numeral that the characters spell, if they spell one. -/
def numeral? : List Char → Option Numeral
  | '-' :: cs => (magnitude? cs).map fun m => ⟨true, m⟩
  | '+' :: cs => (magnitude? cs).map fun m => ⟨false, m⟩
  | cs => (magnitude? cs).map fun m => ⟨false, m⟩

/-- The binary64 value of a numeral: the nearest one, with the numeral's sign. -/
def Numeral.toFloat (n : Numeral) : Float :=
  match n.magnitude with
  | .decimal d => ofRank n.negative d.rank
  | .infinity => ofRank n.negative infinityRank
  | .nan => 0 / 0

/-! ## Words as numbers -/

/-- Types whose values are written as one word. -/
class FromWord (α : Type) where
  /-- The value that a word stands for, if it stands for one. -/
  ofWord? : String → Option α

export FromWord (ofWord?)

/-- The integer of a word, if it lies between two bounds. -/
def integerWithin? (least greatest : Int) (word : String) : Option Int :=
  (integer? word.toList).filter fun n => least ≤ n ∧ n ≤ greatest

/-- The natural number of a word, if it lies below a bound. -/
def naturalBelow? (bound : Nat) (word : String) : Option Nat :=
  (natural? word.toList).filter fun n => n < bound

instance : FromWord Float where
  ofWord? word := (numeral? word.toList).map Numeral.toFloat

instance : FromWord Int8 where
  ofWord? word := (integerWithin? Int8.minValue.toInt Int8.maxValue.toInt word).map Int8.ofInt

instance : FromWord Int32 where
  ofWord? word := (integerWithin? Int32.minValue.toInt Int32.maxValue.toInt word).map Int32.ofInt

instance : FromWord Int64 where
  ofWord? word := (integerWithin? Int64.minValue.toInt Int64.maxValue.toInt word).map Int64.ofInt

instance : FromWord UInt8 where
  ofWord? word := (naturalBelow? UInt8.size word).map UInt8.ofNat

instance : FromWord UInt32 where
  ofWord? word := (naturalBelow? UInt32.size word).map UInt32.ofNat

instance : FromWord UInt64 where
  ofWord? word := (naturalBelow? UInt64.size word).map UInt64.ofNat

instance : FromWord Bool where
  ofWord? word := if word = "true" then some true else if word = "false" then some false else none

end SceneScript.Number
