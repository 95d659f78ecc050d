/-
Numerals of whole numbers. Digits spell a number in base ten, and a sign may stand before them. The words that
are read as whole numbers are those that spell one, and what is read is the number that they spell
(`integer?_eq_some_iff`, `natural?_eq_some_iff`).
-/
import Mathlib
import SceneScript.Number.Numeral
namespace SceneScript.Number

/-! ## Digits -/

/-- Digits, none or more, and the number that they spell. -/
inductive SpellsDigits : List Char → Nat → Prop
  | nil : SpellsDigits [] 0
  | append {cs : List Char} {n d : Nat} (h : SpellsDigits cs n) (hd : d < 10) :
      SpellsDigits (cs ++ [d.digitChar]) (10 * n + d)

theorem exists_digitChar {c : Char} (h : c.isDigit = true) : ∃ d < 10, c = d.digitChar := by
  rw [Char.isDigit_iff_toNat] at h
  have hc : 48 ≤ c.toNat ∧ c.toNat ≤ 57 := h
  refine ⟨c.toNat - 48, by omega, Char.toNat_inj.1 ?_⟩
  rw [Nat.toNat_digitChar_of_lt_ten (by omega)]
  omega

theorem SpellsDigits.isDigit {cs : List Char} {n : Nat} (h : SpellsDigits cs n) : ∀ c ∈ cs, c.isDigit = true := by
  induction h with
  | nil => nofun
  | append h hd ih =>
    rw [List.forall_mem_append]
    exact ⟨ih, by simpa using hd⟩

theorem SpellsDigits.ofDigitChars {cs : List Char} {n : Nat} (h : SpellsDigits cs n) :
    Nat.ofDigitChars 10 cs 0 = n := by
  induction h with
  | nil => rfl
  | append h hd ih =>
    rw [Nat.ofDigitChars_append, ih, Nat.ofDigitChars_cons_digitChar_of_lt_ten hd, Nat.ofDigitChars_nil]

theorem spellsDigits_ofDigitChars {cs : List Char} (h : ∀ c ∈ cs, c.isDigit = true) :
    SpellsDigits cs (Nat.ofDigitChars 10 cs 0) := by
  induction cs using List.reverseRecOn with
  | nil => exact .nil
  | append_singleton cs c ih =>
    rw [List.forall_mem_append] at h
    obtain ⟨d, hd, rfl⟩ := exists_digitChar (h.2 c (List.mem_singleton_self c))
    rw [Nat.ofDigitChars_append, Nat.ofDigitChars_cons_digitChar_of_lt_ten hd, Nat.ofDigitChars_nil]
    exact .append (ih h.1) hd

theorem spellsDigits_iff {cs : List Char} {n : Nat} :
    SpellsDigits cs n ↔ (∀ c ∈ cs, c.isDigit = true) ∧ Nat.ofDigitChars 10 cs 0 = n :=
  ⟨fun h => ⟨h.isDigit, h.ofDigitChars⟩, fun ⟨h, hn⟩ => hn ▸ spellsDigits_ofDigitChars h⟩

/-- A number has no more places than there are digits. -/
theorem SpellsDigits.lt {cs : List Char} {n : Nat} (h : SpellsDigits cs n) : n < 10 ^ cs.length := by
  induction h with
  | nil => exact Nat.one_pos
  | append h hd ih =>
    rw [List.length_append, List.length_singleton, Nat.pow_succ]
    omega

theorem digits?_iff_spells {cs : List Char} {n : Nat} :
    digits? cs = some n ↔ cs ≠ [] ∧ SpellsDigits cs n := by
  rw [digits?_eq_some_iff, spellsDigits_iff, List.all_eq_true]

/-! ## Signs -/

/-- An optional sign, and whether it is a minus sign. -/
inductive SpellsSign : List Char → Bool → Prop
  | none : SpellsSign [] false
  | plus : SpellsSign ['+'] false
  | minus : SpellsSign ['-'] true

/-- A sign, which may be left out, before one digit or more, and the integer that they spell. Unless `signed`,
there is no minus sign. -/
inductive SpellsInteger (signed : Bool) : List Char → Int → Prop
  | unmarked {cs : List Char} {n : Nat} (hne : cs ≠ []) (h : SpellsDigits cs n) : SpellsInteger signed cs n
  | plus {cs : List Char} {n : Nat} (hne : cs ≠ []) (h : SpellsDigits cs n) :
      SpellsInteger signed ('+' :: cs) n
  | minus {cs : List Char} {n : Nat} (hsigned : signed = true) (hne : cs ≠ []) (h : SpellsDigits cs n) :
      SpellsInteger signed ('-' :: cs) (-n)

theorem natural?_of_spells {cs : List Char} {n : Nat} (hne : cs ≠ []) (h : SpellsDigits cs n) :
    natural? cs = some n := by
  unfold natural?
  split
  · exact absurd (h.isDigit '+' List.mem_cons_self) (by decide)
  · exact digits?_iff_spells.2 ⟨hne, h⟩

theorem natural?_eq_some_iff {cs : List Char} {n : Nat} :
    natural? cs = some n ↔ SpellsInteger false cs n := by
  constructor
  · intro h
    unfold natural? at h
    split at h
    · obtain ⟨hne, hdigits⟩ := digits?_iff_spells.1 h
      exact .plus hne hdigits
    · obtain ⟨hne, hdigits⟩ := digits?_iff_spells.1 h
      exact .unmarked hne hdigits
  · generalize hm : (n : Int) = m
    rintro (⟨hne, hdigits⟩ | ⟨hne, hdigits⟩ | ⟨hsigned, -, -⟩)
    · obtain rfl := Int.ofNat.inj hm
      exact natural?_of_spells hne hdigits
    · obtain rfl := Int.ofNat.inj hm
      exact digits?_iff_spells.2 ⟨hne, hdigits⟩
    · cases hsigned

theorem integer?_minus (cs : List Char) :
    integer? ('-' :: cs) = (digits? cs).map fun n : Nat => -(n : Int) := by
  rw [integer?]
  cases digits? cs <;> rfl

theorem integer?_of_ne_minus {cs : List Char} (h : ∀ rest, cs ≠ '-' :: rest) :
    integer? cs = (natural? cs).map fun n : Nat => (n : Int) := by
  unfold integer?
  split
  · exact absurd rfl (h _)
  · cases natural? cs <;> rfl

/-- A word without a minus sign is read as an integer as it is without signs. -/
theorem SpellsInteger.of_false {cs : List Char} {n : Int} (h : SpellsInteger false cs n) :
    SpellsInteger true cs n ∧ ∀ rest, cs ≠ '-' :: rest := by
  cases h with
  | unmarked hne h =>
    refine ⟨.unmarked hne h, ?_⟩
    rintro rest rfl
    exact absurd (h.isDigit '-' List.mem_cons_self) (by decide)
  | plus hne h => exact ⟨.plus hne h, fun rest heq => absurd (List.cons.inj heq).1 (by decide)⟩
  | minus hsigned => cases hsigned

theorem integer?_eq_some_iff {cs : List Char} {n : Int} : integer? cs = some n ↔ SpellsInteger true cs n := by
  constructor
  · intro h
    by_cases hminus : ∃ rest, cs = '-' :: rest
    · obtain ⟨rest, rfl⟩ := hminus
      rw [integer?_minus] at h
      obtain ⟨m, hm, rfl⟩ := Option.map_eq_some_iff.1 h
      obtain ⟨hne, hdigits⟩ := digits?_iff_spells.1 hm
      exact .minus rfl hne hdigits
    · rw [integer?_of_ne_minus (not_exists.1 hminus)] at h
      obtain ⟨m, hm, rfl⟩ := Option.map_eq_some_iff.1 h
      exact (natural?_eq_some_iff.1 hm).of_false.1
  · rintro (⟨hne, h⟩ | ⟨hne, h⟩ | ⟨-, hne, h⟩)
    · have hfalse : SpellsInteger false cs _ := .unmarked hne h
      rw [integer?_of_ne_minus hfalse.of_false.2, natural?_eq_some_iff.2 hfalse]
      rfl
    · have hfalse : SpellsInteger false _ _ := .plus hne h
      rw [integer?_of_ne_minus hfalse.of_false.2, natural?_eq_some_iff.2 hfalse]
      rfl
    · rw [integer?_minus, digits?_iff_spells.2 ⟨hne, h⟩]
      rfl

end SceneScript.Number
