/-
Words that spell real numbers. They are those of a grammar (`SpellsReal`): a sign, which may be left out, and a
decimal or a name, and each of them stands for an exact number, an infinity or an undefined value. The words
that are read as real numerals are these (`SpellsReal.exists_numeral`, `spellsReal_of_numeral?`), and what is read
of a decimal has the value that the word stands for.
-/
import SceneScript.Number.Numeral
import SceneScript.Proofs.Nearest
namespace SceneScript.Number

/-! ## Decimals -/

/-- No power at the end, or one of ten behind the mark of an exponent. -/
inductive SpellsExponent : List Char → Int → Prop
  | none : SpellsExponent [] 0
  | marked {mark : Char} {cs : List Char} {k : Int} (hmark : mark = 'e' ∨ mark = 'E')
      (h : SpellsInteger true cs k) : SpellsExponent (mark :: cs) k

/-- Digits, of which there is at least one, with at most one point before, among or behind them, then a power
of ten; and the number that they spell. -/
inductive SpellsDecimal : List Char → ℚ → Prop
  | whole {w e : List Char} {n : Nat} {k : Int} (hne : w ≠ []) (hw : SpellsDigits w n)
      (he : SpellsExponent e k) : SpellsDecimal (w ++ e) (n * 10 ^ k)
  | pointed {w f e : List Char} {n m : Nat} {k : Int} (hne : w ++ f ≠ []) (hw : SpellsDigits w n)
      (hf : SpellsDigits f m) (he : SpellsExponent e k) :
      SpellsDecimal (w ++ '.' :: (f ++ e)) ((n + m / 10 ^ f.length) * 10 ^ k)

theorem exponentPart?_eq_some_iff {cs : List Char} {k : Int} :
    exponentPart? cs = some k ↔ SpellsExponent cs k := by
  cases cs with
  | nil =>
    constructor
    · rintro ⟨⟩
      exact .none
    · rintro ⟨⟩
      rfl
  | cons c cs =>
    rw [exponentPart?]
    split
    · rename_i hmark
      rw [integer?_eq_some_iff]
      constructor
      · exact .marked hmark
      · rintro (_ | ⟨-, h⟩)
        exact h
    · rename_i hmark
      constructor
      · nofun
      · rintro (_ | ⟨hmark', -⟩)
        exact absurd hmark' hmark

/-- What follows digits does not go on with digits or a point. -/
theorem SpellsExponent.head {e : List Char} {k : Int} (h : SpellsExponent e k) :
    e.takeWhile Char.isDigit = [] ∧ e.dropWhile Char.isDigit = e ∧ ∀ tail, e ≠ '.' :: tail := by
  cases h with
  | none => exact ⟨rfl, rfl, nofun⟩
  | marked hmark h =>
    rcases hmark with rfl | rfl
    · exact ⟨rfl, rfl, nofun⟩
    · exact ⟨rfl, rfl, nofun⟩

theorem takeWhile_digits {w : List Char} (hw : ∀ c ∈ w, c.isDigit = true) {rest : List Char}
    (h : rest.takeWhile Char.isDigit = []) : (w ++ rest).takeWhile Char.isDigit = w := by
  rw [List.takeWhile_append_of_pos hw, h, List.append_nil]

theorem decimal?_whole {w e : List Char} {n : Nat} {k : Int} (hne : w ≠ []) (hw : SpellsDigits w n)
    (he : SpellsExponent e k) : decimal? (w ++ e) = some ⟨w, k⟩ := by
  obtain ⟨htake, hdrop, hpoint⟩ := he.head
  rw [decimal?, takeWhile_digits hw.isDigit htake, List.dropWhile_append_of_pos hw.isDigit, hdrop]
  split
  rename_i heq
  split at heq
  · exact absurd rfl (hpoint _)
  · cases heq
    rw [List.append_nil, if_neg hne, exponentPart?_eq_some_iff.2 he]
    simp

theorem decimal?_pointed {w f e : List Char} {n m : Nat} {k : Int} (hne : w ++ f ≠ [])
    (hw : SpellsDigits w n) (hf : SpellsDigits f m) (he : SpellsExponent e k) :
    decimal? (w ++ '.' :: (f ++ e)) = some ⟨w ++ f, k - f.length⟩ := by
  obtain ⟨htake, hdrop, -⟩ := he.head
  rw [decimal?, takeWhile_digits hw.isDigit rfl, List.dropWhile_append_of_pos hw.isDigit]
  simp only [List.dropWhile_cons_of_neg (show ¬ Char.isDigit '.' = true by decide),
    takeWhile_digits hf.isDigit htake, List.dropWhile_append_of_pos hf.isDigit, hdrop, if_neg hne,
    exponentPart?_eq_some_iff.2 he, Option.map_some]

theorem value_whole {w : List Char} {n : Nat} (hw : SpellsDigits w n) (k : Int) :
    (⟨w, k⟩ : Decimal).value = n * 10 ^ k := by
  rw [Decimal.value, Decimal.integer, hw.ofDigitChars]

theorem value_pointed {w f : List Char} {n m : Nat} (hw : SpellsDigits w n) (hf : SpellsDigits f m) (k : Int) :
    (⟨w ++ f, k - f.length⟩ : Decimal).value = (n + m / 10 ^ f.length) * 10 ^ k := by
  have hten : (10 : ℚ) ≠ 0 := by norm_num
  rw [Decimal.value, Decimal.integer, Nat.ofDigitChars_append, hw.ofDigitChars,
    Nat.ofDigitChars_eq_ofDigitChars_zero, hf.ofDigitChars, zpow_sub₀ hten, zpow_natCast]
  push_cast
  field_simp

/-- What is spelt is read, as a decimal of the value spelt. -/
theorem SpellsDecimal.exists_decimal {cs : List Char} {q : ℚ} (h : SpellsDecimal cs q) :
    ∃ d, decimal? cs = some d ∧ d.IsDigital ∧ d.value = q := by
  rcases h with ⟨hne, hw, he⟩ | ⟨hne, hw, hf, he⟩
  · exact ⟨_, decimal?_whole hne hw he, hw.isDigit, value_whole hw _⟩
  · exact ⟨_, decimal?_pointed hne hw hf he, List.forall_mem_append.2 ⟨hw.isDigit, hf.isDigit⟩,
      value_pointed hw hf _⟩

/-- What is read as a decimal spells its value. -/
theorem spellsDecimal_of_decimal? {cs : List Char} {d : Decimal} (h : decimal? cs = some d) :
    SpellsDecimal cs d.value := by
  have hdigits (l : List Char) : SpellsDigits (l.takeWhile Char.isDigit)
      (Nat.ofDigitChars 10 (l.takeWhile Char.isDigit) 0) :=
    spellsDigits_ofDigitChars fun c hc => List.mem_takeWhile_imp hc
  have hsplit (l : List Char) : l.takeWhile Char.isDigit ++ l.dropWhile Char.isDigit = l :=
    List.takeWhile_append_dropWhile
  have hcs := hsplit cs
  have hw := hdigits cs
  rw [decimal?] at h
  generalize cs.takeWhile Char.isDigit = w, cs.dropWhile Char.isDigit = behind at *
  split at h
  rename_i fraction rest heq
  split at h
  · cases h
  rename_i hnil
  obtain ⟨k, hk, rfl⟩ := Option.map_eq_some_iff.1 h
  have he := exponentPart?_eq_some_iff.1 hk
  split at heq
  · rename_i tail
    obtain ⟨rfl, rfl⟩ := Prod.mk.inj heq
    have hspells := SpellsDecimal.pointed hnil hw (hdigits tail) he
    rw [hsplit tail, hcs] at hspells
    rwa [value_pointed hw (hdigits tail)]
  · obtain ⟨rfl, rfl⟩ := Prod.mk.inj heq
    rw [List.append_nil] at hnil ⊢
    rw [List.length_nil, Nat.cast_zero, sub_zero, value_whole hw, ← hcs]
    exact .whole hnil hw he

/-- A decimal begins with a digit or a point. -/
theorem SpellsDecimal.head {cs : List Char} {q : ℚ} (h : SpellsDecimal cs q) :
    ∃ c rest, cs = c :: rest ∧ (c.isDigit = true ∨ c = '.') := by
  have hdigits {w : List Char} {n : Nat} (rest : List Char) (hne : w ≠ []) (hw : SpellsDigits w n) :
      ∃ c rest', w ++ rest = c :: rest' ∧ (c.isDigit = true ∨ c = '.') := by
    obtain ⟨c, w, rfl⟩ := List.exists_cons_of_ne_nil hne
    exact ⟨c, w ++ rest, rfl, .inl (hw.isDigit c List.mem_cons_self)⟩
  cases h with
  | whole hne hw he => exact hdigits _ hne hw
  | @pointed w f e n m k hne hw hf he =>
    rcases eq_or_ne w [] with rfl | hne
    · exact ⟨'.', f ++ e, rfl, .inr rfl⟩
    · exact hdigits _ hne hw

/-! ## Names -/

/-- A name in any case: each letter of it is one of two. -/
def SpellsName (cs : List Char) (letters : List (Char × Char)) : Prop :=
  List.Forall₂ (fun c letter => c = letter.1 ∨ c = letter.2) cs letters

def infLetters : List (Char × Char) := [('i', 'I'), ('n', 'N'), ('f', 'F')]

def infinityLetters : List (Char × Char) :=
  infLetters ++ [('i', 'I'), ('n', 'N'), ('i', 'I'), ('t', 'T'), ('y', 'Y')]

def nanLetters : List (Char × Char) := [('n', 'N'), ('a', 'A'), ('n', 'N')]

theorem toNat_toLower (c : Char) :
    c.toLower.toNat = if 65 ≤ c.toNat ∧ c.toNat ≤ 90 then c.toNat + 32 else c.toNat := by
  have hupper : c.isUpper = true ↔ 65 ≤ c.toNat ∧ c.toNat ≤ 90 := by
    simp only [Char.isUpper, ge_iff_le, UInt32.le_iff_toNat_le, decide_eq_true_eq]
    exact Iff.rfl
  by_cases h : c.isUpper = true
  · have hbounds := hupper.1 h
    rw [Char.toLower_eq_of_isUpper h, if_pos hbounds, Char.toNat_ofNat, if_pos (.inl (by omega))]
  · rw [Char.toLower_eq_of_not_isUpper h, if_neg (mt hupper.2 h)]

theorem spellsName_iff {cs : List Char} {letters : List (Char × Char)}
    (h : ∀ letter ∈ letters, 97 ≤ letter.1.toNat ∧ letter.1.toNat ≤ 122 ∧ letter.2.toNat + 32 = letter.1.toNat) :
    SpellsName cs letters ↔ cs.map Char.toLower = letters.map Prod.fst := by
  have hletter : ∀ letter ∈ letters, ∀ c : Char, c = letter.1 ∨ c = letter.2 ↔ c.toLower = letter.1 :=
    fun letter hl c => by
      have hl := h letter hl
      rw [← Char.toNat_inj, ← Char.toNat_inj, ← Char.toNat_inj, toNat_toLower]
      split <;> omega
  clear h
  induction letters generalizing cs with
  | nil => rw [SpellsName, List.forall₂_nil_right_iff, List.map_nil, List.map_eq_nil_iff]
  | cons letter letters ih =>
    rw [List.forall_mem_cons] at hletter
    cases cs with
    | nil => exact iff_of_false nofun nofun
    | cons c cs =>
      rw [SpellsName, List.forall₂_cons, hletter.1, List.map_cons, List.map_cons, List.cons.injEq]
      exact and_congr_right' (ih hletter.2)

/-! ## Numerals -/

/-- What a numeral stands for besides its sign. -/
inductive Amount where
  | exactly (q : ℚ)
  | infinity
  | nan

/-- A decimal, or the name of an infinity or of the undefined value. -/
inductive SpellsAmount : List Char → Amount → Prop
  | decimal {cs : List Char} {q : ℚ} (h : SpellsDecimal cs q) : SpellsAmount cs (.exactly q)
  | infinity {cs : List Char} (h : SpellsName cs infLetters ∨ SpellsName cs infinityLetters) :
      SpellsAmount cs .infinity
  | nan {cs : List Char} (h : SpellsName cs nanLetters) : SpellsAmount cs .nan

/-- A real numeral: a sign, which may be left out, and an amount. -/
inductive SpellsReal : List Char → Bool → Amount → Prop
  | intro {sign cs : List Char} {negative : Bool} {amount : Amount} (hsign : SpellsSign sign negative)
      (h : SpellsAmount cs amount) : SpellsReal (sign ++ cs) negative amount

/-- The amount of a magnitude that has been read. -/
def Magnitude.amount : Magnitude → Amount
  | .decimal d => .exactly d.value
  | .infinity => .infinity
  | .nan => .nan

/-- A decimal that has been read is one of digits. -/
def Magnitude.IsDigital (m : Magnitude) : Prop := ∀ d, m = .decimal d → d.IsDigital

theorem spellsName_infLetters {cs : List Char} :
    SpellsName cs infLetters ↔ cs.map Char.toLower = ['i', 'n', 'f'] := spellsName_iff (by decide)

theorem spellsName_infinityLetters {cs : List Char} :
    SpellsName cs infinityLetters ↔ cs.map Char.toLower = ['i', 'n', 'f', 'i', 'n', 'i', 't', 'y'] :=
  spellsName_iff (by decide)

theorem spellsName_nanLetters {cs : List Char} :
    SpellsName cs nanLetters ↔ cs.map Char.toLower = ['n', 'a', 'n'] := spellsName_iff (by decide)

/-- What a numeral says begins with none of the signs. -/
theorem SpellsAmount.head {cs : List Char} {amount : Amount} (h : SpellsAmount cs amount) (rest : List Char) :
    cs ≠ '+' :: rest ∧ cs ≠ '-' :: rest := by
  have hname {letter : Char} {letters : List Char} (hname : cs.map Char.toLower = letter :: letters)
      (hplus : '+'.toLower ≠ letter) (hminus : '-'.toLower ≠ letter) : cs ≠ '+' :: rest ∧ cs ≠ '-' :: rest := by
    constructor
    · rintro rfl
      exact hplus (List.cons.inj hname).1
    · rintro rfl
      exact hminus (List.cons.inj hname).1
  cases h with
  | decimal h =>
    obtain ⟨c, rest', rfl, hc⟩ := h.head
    constructor
    · rintro ⟨⟩
      revert hc
      decide
    · rintro ⟨⟩
      revert hc
      decide
  | infinity h =>
    rcases h with h | h
    · exact hname (spellsName_infLetters.1 h) (by decide) (by decide)
    · exact hname (spellsName_infinityLetters.1 h) (by decide) (by decide)
  | nan h => exact hname (spellsName_nanLetters.1 h) (by decide) (by decide)

theorem SpellsAmount.exists_magnitude {cs : List Char} {amount : Amount} (h : SpellsAmount cs amount) :
    ∃ m, magnitude? cs = some m ∧ m.IsDigital ∧ m.amount = amount := by
  cases h with
  | decimal h =>
    obtain ⟨d, hd, hdigital, rfl⟩ := h.exists_decimal
    refine ⟨.decimal d, ?_, fun _ hd' => Magnitude.decimal.inj hd' ▸ hdigital, rfl⟩
    -- no name begins like a decimal
    obtain ⟨c, rest, rfl, hc⟩ := h.head
    have hlower : c.toLower = c := by
      have hupper : ¬ (65 ≤ c.toNat ∧ c.toNat ≤ 90) := by
        rcases hc with hc | rfl
        · have hbounds : 48 ≤ c.toNat ∧ c.toNat ≤ 57 := Char.isDigit_iff_toNat.1 hc
          omega
        · decide
      rw [← Char.toNat_inj, toNat_toLower, if_neg hupper]
    have hi : c ≠ 'i' := by
      rintro rfl
      revert hc
      decide
    have hn : c ≠ 'n' := by
      rintro rfl
      revert hc
      decide
    simp only [magnitude?, List.map_cons, hlower, List.cons.injEq, hi, hn, false_and, or_self, if_false, hd,
      Option.map_some]
  | infinity h =>
    rw [spellsName_infLetters, spellsName_infinityLetters] at h
    exact ⟨.infinity, if_pos h, nofun, rfl⟩
  | nan h =>
    rw [spellsName_nanLetters] at h
    refine ⟨.nan, ?_, nofun, rfl⟩
    rw [magnitude?, h]
    rfl

theorem spellsAmount_of_magnitude? {cs : List Char} {m : Magnitude} (h : magnitude? cs = some m) :
    SpellsAmount cs m.amount := by
  simp only [magnitude?] at h
  split at h
  · rename_i hname
    cases h
    exact .infinity (hname.imp spellsName_infLetters.2 spellsName_infinityLetters.2)
  split at h
  · rename_i hname
    cases h
    exact .nan (spellsName_nanLetters.2 hname)
  · obtain ⟨d, hd, rfl⟩ := Option.map_eq_some_iff.1 h
    exact .decimal (spellsDecimal_of_decimal? hd)

theorem numeral?_of_head {cs : List Char} (h : ∀ rest, cs ≠ '+' :: rest ∧ cs ≠ '-' :: rest) :
    numeral? cs = (magnitude? cs).map fun m => ⟨false, m⟩ := by
  unfold numeral?
  split
  · exact absurd rfl (h _).2
  · exact absurd rfl (h _).1
  · rfl

theorem spellsReal_of_numeral? {cs : List Char} {n : Numeral} (h : numeral? cs = some n) :
    SpellsReal cs n.negative n.magnitude.amount := by
  unfold numeral? at h
  split at h
  · obtain ⟨m, hm, rfl⟩ := Option.map_eq_some_iff.1 h
    exact .intro .minus (spellsAmount_of_magnitude? hm)
  · obtain ⟨m, hm, rfl⟩ := Option.map_eq_some_iff.1 h
    exact .intro .plus (spellsAmount_of_magnitude? hm)
  · obtain ⟨m, hm, rfl⟩ := Option.map_eq_some_iff.1 h
    exact .intro .none (spellsAmount_of_magnitude? hm)

theorem SpellsReal.exists_numeral {cs : List Char} {negative : Bool} {amount : Amount}
    (h : SpellsReal cs negative amount) :
    ∃ m, numeral? cs = some ⟨negative, m⟩ ∧ m.IsDigital ∧ m.amount = amount := by
  obtain ⟨hsign, h⟩ := h
  obtain ⟨m, hm, hdigital, rfl⟩ := h.exists_magnitude
  refine ⟨m, ?_, hdigital, rfl⟩
  cases hsign with
  | none => rw [List.nil_append, numeral?_of_head h.head, hm, Option.map_some]
  | plus => rw [List.singleton_append, numeral?, hm, Option.map_some]
  | minus => rw [List.singleton_append, numeral?, hm, Option.map_some]

/-! ## The characters of numerals -/

/-- The characters of numerals that are no digits. -/
def numeralMarks : List Char :=
  ['+', '-', '.', 'A', 'E', 'F', 'I', 'N', 'T', 'Y', 'a', 'e', 'f', 'i', 'n', 't', 'y']

def IsNumeralChar (c : Char) : Prop := c.isDigit = true ∨ c ∈ numeralMarks

/-- A test that all of them fail. -/
theorem IsNumeralChar.eq_false {p : Char → Bool} (hdigits : ∀ d < 10, p d.digitChar = false)
    (hmarks : numeralMarks.any p = false) {c : Char} (h : IsNumeralChar c) : p c = false := by
  rcases h with h | h
  · obtain ⟨d, hd, rfl⟩ := exists_digitChar h
    exact hdigits d hd
  · exact Bool.eq_false_of_not_eq_true (List.any_eq_false.1 hmarks c h)

theorem SpellsDigits.chars {cs : List Char} {n : Nat} (h : SpellsDigits cs n) : ∀ c ∈ cs, IsNumeralChar c :=
  fun c hc => .inl (h.isDigit c hc)

theorem SpellsInteger.chars {signed : Bool} {cs : List Char} {n : Int} (h : SpellsInteger signed cs n) :
    ∀ c ∈ cs, IsNumeralChar c := by
  cases h with
  | unmarked hne h => exact h.chars
  | plus hne h => exact List.forall_mem_cons.2 ⟨.inr (by decide), h.chars⟩
  | minus hsigned hne h => exact List.forall_mem_cons.2 ⟨.inr (by decide), h.chars⟩

theorem SpellsInteger.ne_nil {signed : Bool} {cs : List Char} {n : Int} (h : SpellsInteger signed cs n) :
    cs ≠ [] := by
  cases h with
  | unmarked hne h => exact hne
  | plus hne h | minus hsigned hne h => exact List.cons_ne_nil _ _

theorem SpellsExponent.chars {cs : List Char} {k : Int} (h : SpellsExponent cs k) :
    ∀ c ∈ cs, IsNumeralChar c := by
  cases h with
  | none => nofun
  | marked hmark h =>
    refine List.forall_mem_cons.2 ⟨.inr ?_, h.chars⟩
    rcases hmark with rfl | rfl <;> decide

theorem SpellsDecimal.chars {cs : List Char} {q : ℚ} (h : SpellsDecimal cs q) : ∀ c ∈ cs, IsNumeralChar c := by
  cases h with
  | whole hne hw he => exact List.forall_mem_append.2 ⟨hw.chars, he.chars⟩
  | pointed hne hw hf he =>
    exact List.forall_mem_append.2 ⟨hw.chars,
      List.forall_mem_cons.2 ⟨.inr (by decide), List.forall_mem_append.2 ⟨hf.chars, he.chars⟩⟩⟩

theorem SpellsName.chars {cs : List Char} {letters : List (Char × Char)} (h : SpellsName cs letters)
    (hletters : ∀ letter ∈ letters, letter.1 ∈ numeralMarks ∧ letter.2 ∈ numeralMarks) :
    ∀ c ∈ cs, IsNumeralChar c := by
  induction h with
  | nil => nofun
  | cons hc h ih =>
    rw [List.forall_mem_cons] at hletters
    refine List.forall_mem_cons.2 ⟨.inr ?_, ih hletters.2⟩
    rcases hc with rfl | rfl
    · exact hletters.1.1
    · exact hletters.1.2

theorem SpellsName.ne_nil {cs : List Char} {letters : List (Char × Char)} (h : SpellsName cs letters)
    (hne : letters ≠ []) : cs ≠ [] := by
  rintro rfl
  exact hne (List.forall₂_nil_left_iff.1 h)

theorem SpellsAmount.chars {cs : List Char} {amount : Amount} (h : SpellsAmount cs amount) :
    cs ≠ [] ∧ ∀ c ∈ cs, IsNumeralChar c := by
  cases h with
  | decimal h =>
    refine ⟨?_, h.chars⟩
    obtain ⟨c, rest, rfl, -⟩ := h.head
    exact List.cons_ne_nil c rest
  | infinity h =>
    rcases h with h | h
    · exact ⟨h.ne_nil (by decide), h.chars (by decide)⟩
    · exact ⟨h.ne_nil (by decide), h.chars (by decide)⟩
  | nan h => exact ⟨h.ne_nil (by decide), h.chars (by decide)⟩

/-- A numeral is not empty and holds none but these characters. -/
theorem SpellsReal.chars {cs : List Char} {negative : Bool} {amount : Amount} (h : SpellsReal cs negative amount) :
    cs ≠ [] ∧ ∀ c ∈ cs, IsNumeralChar c := by
  obtain ⟨hsign, h⟩ := h
  refine ⟨List.append_ne_nil_of_right_ne_nil _ h.chars.1, List.forall_mem_append.2 ⟨?_, h.chars.2⟩⟩
  cases hsign with
  | none => nofun
  | plus | minus => exact List.forall_mem_singleton.2 (.inr (by decide))

end SceneScript.Number
