/-
Printed numbers read back. Whatever a style makes of the digits of a number, it is a numeral of which the number is
the value (`spells_number`), and it is one word. So what a dump or the summary says of a scene can be written
into a script, and the script says the same.
-/
import SceneScript.Scene.Dump
import SceneScript.Proofs.Integers
import SceneScript.Proofs.Layout
import SceneScript.Proofs.Reals
import SceneScript.Proofs.Shortest
namespace SceneScript.Number

theorem IsNumeralChar.isBlank {c : Char} (h : IsNumeralChar c) : Text.isBlank c = false :=
  h.eq_false (by decide) (by decide)

/-! ## Layouts -/

theorem spellsDigits_toDigits (n : Nat) : SpellsDigits (Nat.toDigits 10 n) n :=
  spellsDigits_iff.2 ⟨fun _ hc => Nat.isDigit_of_mem_toDigits (by decide) (by decide) hc,
    Nat.ofDigitChars_ten_toDigits⟩

theorem spellsInteger_integerText (n : Int) : SpellsInteger true (integerText n) n := by
  rw [integerText]
  split
  · have h : SpellsInteger true ('-' :: Nat.toDigits 10 n.natAbs) _ :=
      .minus rfl Nat.toDigits_ne_nil (spellsDigits_toDigits n.natAbs)
    rwa [show -(n.natAbs : Int) = n by omega] at h
  · have h : SpellsInteger true (Nat.toDigits 10 n.natAbs) _ :=
      .unmarked Nat.toDigits_ne_nil (spellsDigits_toDigits n.natAbs)
    rwa [show (n.natAbs : Int) = n by omega] at h

section
variable {d : Decimal}

/-- The digits and a power of ten behind them. -/
theorem spells_whole {w e : List Char} {k : Int} (hw : ∀ c ∈ w, c.isDigit = true) (hne : w ≠ [])
    (he : SpellsExponent e k) : SpellsDecimal (w ++ e) (⟨w, k⟩ : Decimal).value := by
  rw [value_whole (spellsDigits_ofDigitChars hw)]
  exact .whole hne (spellsDigits_ofDigitChars hw) he

/-- The digits with a point among them, and a power of ten. -/
theorem spells_pointed {w f e : List Char} {k : Int} (h : ∀ c ∈ w ++ f, c.isDigit = true) (hne : w ++ f ≠ [])
    (he : SpellsExponent e k) :
    SpellsDecimal (w ++ '.' :: (f ++ e)) (⟨w ++ f, k - f.length⟩ : Decimal).value := by
  obtain ⟨hw, hf⟩ := List.forall_mem_append.1 h
  rw [value_pointed (spellsDigits_ofDigitChars hw) (spellsDigits_ofDigitChars hf)]
  exact .pointed hne (spellsDigits_ofDigitChars hw) (spellsDigits_ofDigitChars hf) he

theorem spells_scientific (h : d.IsDigital) (hne : d.digits ≠ []) :
    SpellsDecimal (scientific d) d.value := by
  obtain ⟨digits, e⟩ := d
  have hpower : SpellsExponent ('e' :: integerText (digits.length + e - 1)) (digits.length + e - 1) :=
    .marked (.inl rfl) (spellsInteger_integerText _)
  have hlength : 0 < digits.length := List.length_pos_of_ne_nil hne
  rw [scientific]
  split
  · rename_i first hfirst
    obtain rfl : digits = [first] := hfirst
    have hplace : (([first] : List Char).length + e - 1 : Int) = e := by
      rw [List.length_singleton]
      omega
    have hspells := spells_whole h hne hpower
    rwa [hplace] at hspells ⊢
  · have hplace : (digits.length + e - 1 - (digits.drop 1).length : Int) = e := by
      rw [List.length_drop]
      omega
    have hdigits := List.take_append_drop 1 digits
    have hspells := spells_pointed (w := digits.take 1) (f := digits.drop 1) (hdigits.symm ▸ h)
      (hdigits.symm ▸ hne) hpower
    rwa [hplace, hdigits] at hspells

theorem isDigit_of_mem_zeros (zeros : Nat) : ∀ c ∈ List.replicate zeros '0', c.isDigit = true := by
  intro c hc
  rw [List.eq_of_mem_replicate hc]
  decide

theorem spells_plain {style : Style} (hend : style.wholeEnd = [] ∨ style.wholeEnd = ['.', '0'])
    (h : d.IsDigital) (hne : d.digits ≠ []) : SpellsDecimal (style.plain d) d.value := by
  obtain ⟨digits, e⟩ := d
  have hlength : 0 < digits.length := List.length_pos_of_ne_nil hne
  rw [Style.plain]
  simp only
  split
  · rename_i he
    have hpadded : ∀ c ∈ digits ++ List.replicate e.toNat '0', c.isDigit = true :=
      List.forall_mem_append.2 ⟨h, isDigit_of_mem_zeros _⟩
    have hpadded_ne : digits ++ List.replicate e.toNat '0' ≠ [] := List.append_ne_nil_of_left_ne_nil hne _
    rcases hend with hend | hend
    · have hspells := spells_whole hpadded hpadded_ne .none
      rwa [Decimal.value_padded, zero_add, Int.toNat_of_nonneg he, ← hend] at hspells
    · have hspells := spells_pointed (f := ['0']) (List.forall_mem_append.2 ⟨hpadded, isDigit_of_mem_zeros 1⟩)
        (List.append_ne_nil_of_left_ne_nil hpadded_ne _) .none
      have hone : ['0'] = List.replicate 1 '0' := rfl
      rw [List.length_singleton, hone, Decimal.value_padded, Decimal.value_padded] at hspells
      rw [show (0 - (1 : Nat) + (1 : Nat) + e.toNat : Int) = e by omega] at hspells
      rwa [hend]
  split
  · rename_i he hpoint
    have hplace : (0 - (digits.drop (digits.length + e).toNat).length : Int) = e := by
      rw [List.length_drop]
      omega
    have hdigits := List.take_append_drop (digits.length + e).toNat digits
    have hspells := spells_pointed (w := digits.take (digits.length + e).toNat)
      (f := digits.drop (digits.length + e).toNat) (hdigits.symm ▸ h) (hdigits.symm ▸ hne) .none
    rwa [hplace, hdigits, List.append_nil] at hspells
  · rename_i he hpoint
    have hplace : (0 - (List.replicate (-(digits.length + e)).toNat '0' ++ digits).length : Int) = e := by
      rw [List.length_append, List.length_replicate]
      omega
    have hspells := spells_pointed (w := ['0']) (f := List.replicate (-(digits.length + e)).toNat '0' ++ digits)
      (List.forall_mem_append.2 ⟨isDigit_of_mem_zeros 1, List.forall_mem_append.2 ⟨isDigit_of_mem_zeros _, h⟩⟩)
      (List.cons_ne_nil _ _) .none
    have hvalue := (Decimal.value_zeros_append 1 _ e).trans
      (Decimal.value_zeros_append (-(digits.length + e)).toNat digits e)
    rw [hplace, List.append_nil] at hspells
    exact hvalue ▸ hspells

end

/-! ## Printed values -/

section
variable {style : Style} (hend : style.wholeEnd = [] ∨ style.wholeEnd = ['.', '0'])
include hend

theorem spells_magnitude {rank : Nat} (h : rank ≤ infinityRank) :
    ∃ amount, SpellsAmount (style.magnitude rank) amount ∧
      ∀ negative, amount.IsValue negative (ofRank negative rank) := by
  rw [Style.magnitude]
  split
  · rename_i hinfinite
    refine ⟨.infinity, .infinity (.inl (spellsName_infLetters.2 (by decide))), fun negative => ?_⟩
    exact ⟨isNegative_ofRank h, isInf_iff.2 ((rankOf_ofRank h).trans hinfinite)⟩
  · have hdigital := Decimal.isDigital_shortest h
    have hne := Decimal.digits_shortest_ne_nil h
    refine ⟨.exactly (Decimal.shortest rank).value, .decimal ?_,
      (Decimal.shortest_roundsTo h).isValue (Decimal.value_nonneg _)⟩
    rw [Style.decimal]
    split
    · exact spells_plain hend hdigital hne
    · exact spells_scientific hdigital hne

/-- What is printed of a value is a numeral of which it is the value. -/
theorem spells_number (x : Float) :
    ∃ negative amount, SpellsReal (style.number x) negative amount ∧ amount.IsValue negative x := by
  rw [Style.number]
  split
  · rename_i hnan
    exact ⟨false, .nan, .intro .none (.nan (spellsName_nanLetters.2 (by decide))), hnan⟩
  rename_i hnumber
  obtain ⟨amount, hspells, hvalue⟩ := spells_magnitude hend (not_lt.1 (mt isNaN_iff.2 hnumber))
  have hx := hvalue (isNegative x)
  rw [ofRank_isNegative_rankOf] at hx
  refine ⟨isNegative x, amount, ?_, hx⟩
  split
  · rename_i hsign
    rw [hsign]
    exact .intro .minus hspells
  · rename_i hsign
    rw [Bool.eq_false_of_not_eq_true hsign]
    exact .intro .none hspells

/-- A printed number is not empty and holds none but the characters of numerals. -/
theorem number_chars (x : Float) : style.number x ≠ [] ∧ ∀ c ∈ style.number x, IsNumeralChar c := by
  obtain ⟨negative, amount, hspells, -⟩ := spells_number hend x
  exact hspells.chars

/-- What is printed of a value is read as the value. -/
theorem ofWord?_number (x : Float) : ofWord? (String.ofList (style.number x)) = some x := by
  obtain ⟨negative, amount, hspells, hx⟩ := spells_number hend x
  rw [← String.toList_ofList (l := style.number x)] at hspells
  obtain ⟨y, hy, hword⟩ := hspells.exists_value
  rwa [hy.unique hx] at hword

/-- Different values are printed differently. -/
theorem number_injective : Function.Injective style.number := by
  intro x y h
  have hx := ofWord?_number hend x
  rw [h, ofWord?_number hend y] at hx
  exact (Option.some.inj hx).symm

end

/-! ## Exponents -/

theorem mark_not_mem_plain {style : Style} (hend : style.wholeEnd = [] ∨ style.wholeEnd = ['.', '0'])
    {d : Decimal} (h : d.IsDigital) : 'e' ∉ style.plain d := by
  have hdigits : 'e' ∉ d.digits := fun hmem => absurd (h _ hmem) (by decide)
  have htake (n : Nat) : 'e' ∉ d.digits.take n := fun hmem => hdigits (List.mem_of_mem_take hmem)
  have hdrop (n : Nat) : 'e' ∉ d.digits.drop n := fun hmem => hdigits (List.mem_of_mem_drop hmem)
  have hwhole : 'e' ∉ style.wholeEnd := by
    rcases hend with hend | hend <;> rw [hend] <;> decide
  rw [Style.plain]
  split
  · simp [hdigits, hwhole]
  split
  · simp [htake, hdrop]
  · simp [hdigits]

theorem mark_mem_scientific (d : Decimal) : 'e' ∈ scientific d := by
  rw [scientific]
  split <;> simp

/-- Only finite numbers are written with an exponent, and those that the style does not write plainly. -/
theorem mark_mem_number_iff {style : Style} (hend : style.wholeEnd = [] ∨ style.wholeEnd = ['.', '0'])
    (x : Float) : 'e' ∈ style.number x ↔ rankOf x < infinityRank ∧ style.isPlain
      ((Decimal.shortest (rankOf x)).digits.length + (Decimal.shortest (rankOf x)).exponent - 1) = false := by
  have hsign (cs : List Char) : 'e' ∈ '-' :: cs ↔ 'e' ∈ cs := by simp
  have hnumber (hx : x.isNaN = false) : 'e' ∈ style.number x ↔ 'e' ∈ style.magnitude (rankOf x) := by
    rw [Style.number, hx, if_neg Bool.false_ne_true, apply_ite ('e' ∈ ·), hsign, ite_self]
  rcases lt_trichotomy (rankOf x) infinityRank with h | h | h
  · rw [hnumber (kinds_of_lt h).2.2, Style.magnitude, if_neg h.ne, Style.decimal]
    cases style.isPlain _ with
    | false => exact iff_of_true (mark_mem_scientific _) ⟨h, rfl⟩
    | true =>
      refine iff_of_false ?_ fun hplain => Bool.noConfusion hplain.2
      exact mark_not_mem_plain hend (Decimal.isDigital_shortest h.le)
  · rw [hnumber (kinds_of_eq h).2.2, Style.magnitude, if_pos h]
    exact iff_of_false (by decide) fun hlt => h.not_lt hlt.1
  · rw [Style.number, if_pos (kinds_of_gt h).2.2]
    exact iff_of_false (by decide) fun hlt => h.not_gt hlt.1

end SceneScript.Number

namespace SceneScript

open Number

namespace Dump

/-- In a dump the numbers below a ten-thousandth and those from ten to the sixteenth on have an exponent. -/
theorem mark_mem_number_iff (x : Float) : 'e' ∈ style.number x ↔ x.isFinite = true ∧
    magnitudeOf x ≠ 0 ∧ (magnitudeOf x < 1 / 10 ^ 4 ∨ 10 ^ 16 ≤ magnitudeOf x) := by
  rw [Number.mark_mem_number_iff (.inr rfl), isFinite_iff, magnitudeOf_eq]
  refine and_congr_right fun h => ?_
  rcases Nat.eq_zero_or_pos (rankOf x) with hzero | hpos
  · rw [hzero, magnitudeAt_zero]
    exact iff_of_false (by decide) fun hne => hne.1 rfl
  have hbounds := Decimal.value_bounds hpos h.le
  have hleast := (hbounds (-4)).trans <| Decimal.le_value_shortest_iff h.le 0x3F1A36E2EB1C432C (by decide)
    (by norm_num [magnitudeAt, mantissa, exponent, normalRank])
    (by norm_num [magnitudeAt, mantissa, exponent, normalRank]) (by decide +kernel)
  have hlarge := (hbounds 16).trans <| Decimal.le_value_shortest_iff h.le 0x4341C37937E07FFF (by decide)
    (by norm_num [magnitudeAt, mantissa, exponent, normalRank])
    (by norm_num [magnitudeAt, mantissa, exponent, normalRank]) (by decide +kernel)
  have hplain (p : Int) : style.isPlain p = false ↔ ¬ -4 ≤ p ∨ 16 ≤ p := by
    change decide (-4 ≤ p ∧ p < 16) = false ↔ _
    rw [decide_eq_false_iff_not]
    omega
  have hne : magnitudeAt (rankOf x) ≠ 0 := by
    rw [← magnitudeAt_zero]
    exact (strictMono_magnitudeAt hpos).ne'
  have hten : (10 : ℚ) ^ (-4 : Int) = 1 / 10 ^ 4 := by norm_num
  have hten' : (10 : ℚ) ^ (16 : Int) = 10 ^ 16 := by norm_num
  rw [hten] at hleast
  rw [hten'] at hlarge
  rw [hplain, hleast, hlarge, not_le]
  exact (and_iff_right hne).symm

end Dump

open Script Text

/-- The text of a number in a style. -/
def Number.Style.text (style : Style) (x : Float) : String := String.ofList (style.number x)

/-- A value as the word of an argument. -/
def Script.Value.text (style : Style) : Value Float → String
  | .integer n => String.ofList (integerText n.toInt)
  | .number x => style.text x

def Script.Value.kind : Value Float → Kind
  | .integer _ => .integer
  | .number _ => .number

/-- The numbers of a style are words that are read as the numbers again. So a line that gives a command such
words for arguments is read as that command with the same values. -/
structure Number.Style.ReadsBack (style : Style) : Prop where
  word : ∀ x, words (style.text x) = [style.text x]
  value : ∀ x line command taken rest,
    Reader.value Float ⟨line, command, taken, style.text x :: rest⟩ = (.ok x, ⟨line, command, taken + 1, rest⟩)
  line : ∀ (c : Command) (values : List (Value Float)) (line : List Char),
    Spells (c.name :: values.map (Value.text style)) line → values.map Value.kind = c.kinds →
    ∃ words, command? (String.ofList line) = some (c, words) ∧ c.read words = .ok (c.directives values)

theorem ofWord?_integerText (n : Int32) : ofWord? (String.ofList (integerText n.toInt)) = some n := by
  have hspells := spellsInteger_integerText n.toInt
  rw [← String.toList_ofList (l := integerText n.toInt)] at hspells
  obtain ⟨m, hm, hword⟩ :=
    readsRange_int32.ofWord?_eq_some hspells n.le_toInt (Int.le_sub_one_of_lt n.toInt_lt)
  rwa [Int32.toInt_inj.1 hm] at hword

section
variable {style : Style} (hend : style.wholeEnd = [] ∨ style.wholeEnd = ['.', '0'])
include hend

theorem read?_text (value : Value Float) : value.kind.read? (value.text style) = some value := by
  cases value with
  | integer n => exact congrArg (Option.map Value.integer) (ofWord?_integerText n)
  | number x => exact congrArg (Option.map Value.number) (ofWord?_number hend x)

theorem readValues_text (values : List (Value Float)) (taken : Nat) :
    readValues taken (values.map Value.kind) (values.map (Value.text style)) = .ok values := by
  induction values generalizing taken with
  | nil => rfl
  | cons value values ih =>
    rw [List.map_cons, List.map_cons, readValues, read?_text hend, ih]
    rfl

theorem readsBack : style.ReadsBack where
  word := fun x => by
    obtain ⟨hne, hchars⟩ := number_chars hend x
    have hblank : ∀ c ∈ style.number x, isBlank c = false := fun c hc => (hchars c hc).isBlank
    rw [words, Style.text, String.toList_ofList, wordsFrom_of_forall hblank hne, List.map_singleton]
  value := fun x line command taken rest =>
    Reader.value_cons_of_some line command taken rest (ofWord?_number hend x)
  line := fun c values line hspells hkinds => by
    have hcomment : c.name.toList.head? ≠ some '#' := by cases c <;> decide
    have hcommand : Command.ofName? c.name = some c := by cases c <;> rfl
    refine ⟨values.map (Value.text style), ?_, ?_⟩
    · rw [command?, statement?_of_spells hspells, if_neg hcomment]
      exact congrArg (Option.map fun c => (c, values.map (Value.text style))) hcommand
    · rw [Command.read, ← hkinds, readValues_text hend]
      rfl

end

end SceneScript
