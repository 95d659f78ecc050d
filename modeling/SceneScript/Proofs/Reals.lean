/-
Real numbers from words. A word that spells a real numeral is read as the binary64 value of what it stands for
(`Amount.IsValue`), of which there is one: the value nearest to the exact number, whatever number of digits that
is written with, or an infinity or the undefined value. All other words are refused.
-/
import SceneScript.Proofs.Ranks
import SceneScript.Proofs.Spelling
import SceneScript.Script.Arguments
namespace SceneScript.Number

/-! ## The nearest value -/

/-- A magnitude with a sign. -/
def signed (negative : Bool) (q : ℚ) : ℚ := if negative then -q else q

/-- The exact number that a finite value is. -/
def valueOf (x : Float) : ℚ := signed (isNegative x) (magnitudeOf x)

/-- No finite value is nearer to a number, and if another one is as near, the mantissa is even. -/
structure IsNearest (q : ℚ) (x : Float) : Prop where
  finite : x.isFinite = true
  near : ∀ y : Float, y.isFinite = true → |valueOf x - q| ≤ |valueOf y - q|
  even : ∀ y : Float, y.isFinite = true → |valueOf y - q| = |valueOf x - q| →
    valueOf y = valueOf x ∨ mantissa (rankOf x) % 2 = 0

/-- The values of an amount with a sign. What is as far as half a step beyond the last finite magnitude is
infinite. -/
def Amount.IsValue (negative : Bool) (x : Float) : Amount → Prop
  | exactly q => isNegative x = negative ∧
      if (2 : ℚ) ^ 1024 - 2 ^ 970 ≤ q then x.isInf = true else IsNearest (signed negative q) x
  | infinity => isNegative x = negative ∧ x.isInf = true
  | nan => x.isNaN = true

section
variable {q : ℚ} {negative : Bool} {rank : Nat}

theorem magnitudeOf_nonneg (x : Float) : 0 ≤ magnitudeOf x := by
  rw [magnitudeOf]
  positivity

theorem abs_signed_sub (negative : Bool) (p q : ℚ) : |signed negative p - signed negative q| = |p - q| := by
  cases negative
  · rfl
  · change |-p - -q| = |p - q|
    rw [neg_sub_neg, abs_sub_comm]

/-- Between values of different signs lies zero. -/
theorem abs_signed_not_sub {p : ℚ} (hp : 0 ≤ p) (hq : 0 ≤ q) :
    |signed (!negative) p - signed negative q| = p + q := by
  cases negative
  · change |-p - q| = p + q
    rw [← neg_add', abs_neg, abs_of_nonneg (add_nonneg hp hq)]
  · change |p - -q| = p + q
    rw [sub_neg_eq_add, abs_of_nonneg (add_nonneg hp hq)]

/-- The value at the rank to which a magnitude is rounded is the nearest one, with either sign. -/
theorem RoundsTo.isNearest (h : RoundsTo q rank) (hq : 0 ≤ q) (hfinite : rank < infinityRank) (negative : Bool) :
    IsNearest (signed negative q) (ofRank negative rank) := by
  have hnear := h.nearest hfinite
  have hrank : rankOf (ofRank negative rank) = rank := rankOf_ofRank hfinite.le
  have hvalue : valueOf (ofRank negative rank) = signed negative (magnitudeAt rank) := by
    rw [valueOf, isNegative_ofRank hfinite.le, magnitudeOf_eq, hrank]
  obtain ⟨hzero, htie⟩ := hnear 0
  rw [magnitudeAt_zero, zero_sub, abs_neg, abs_of_nonneg hq] at hzero htie
  refine ⟨isFinite_iff.2 (hrank.trans_lt hfinite), fun y _ => ?_, fun y _ heq => ?_⟩
  · rw [hvalue, abs_signed_sub, valueOf]
    by_cases hsign : isNegative y = negative
    · rw [hsign, abs_signed_sub]
      exact (hnear (rankOf y)).1
    · rw [Bool.eq_not_of_ne hsign, abs_signed_not_sub (magnitudeOf_nonneg y) hq]
      exact hzero.trans (le_add_of_nonneg_left (magnitudeOf_nonneg y))
  · rw [hvalue, abs_signed_sub, valueOf] at heq
    rw [hvalue, valueOf, hrank]
    by_cases hsign : isNegative y = negative
    · rw [hsign, abs_signed_sub] at heq
      refine ((hnear (rankOf y)).2 heq.symm).imp_left fun hy => ?_
      rw [hsign, magnitudeOf_eq, hy]
    · -- a value of the other sign is as near only if it is a zero
      rw [Bool.eq_not_of_ne hsign, abs_signed_not_sub (magnitudeOf_nonneg y) hq] at heq
      have hy : magnitudeOf y = 0 := le_antisymm (by linarith) (magnitudeOf_nonneg y)
      rw [hy, zero_add] at heq
      refine (htie heq.symm).imp_left fun hrank0 => ?_
      rw [hy, ← hrank0, magnitudeAt_zero]
      cases negative <;> cases isNegative y <;> simp [signed]

/-- Two magnitudes that are nearest to a number, and even if that is a tie, are one. -/
theorem eq_of_near {rank' : Nat} (h : rank < infinityRank) (h' : rank' < infinityRank)
    (hnear : ∀ other < infinityRank, |magnitudeAt rank - q| ≤ |magnitudeAt other - q|)
    (hdist : |magnitudeAt rank' - q| = |magnitudeAt rank - q|)
    (heven : rank' = rank ∨ mantissa rank % 2 = 0) (heven' : rank = rank' ∨ mantissa rank' % 2 = 0) :
    rank = rank' := by
  wlog hlt : rank < rank' generalizing rank rank'
  · rcases (not_lt.1 hlt).eq_or_lt with heq | hgt
    · exact heq.symm
    · exact (this h' h (fun other ho => hdist.trans_le (hnear other ho)) hdist.symm heven' heven hgt).symm
  have hsucc := strictMono_magnitudeAt (Nat.lt_succ_self rank)
  have hmono := strictMono_magnitudeAt hlt
  have hmiddle : 2 * q = magnitudeAt rank + magnitudeAt rank' := by
    rcases abs_eq_abs.1 hdist with heq | heq <;> linarith
  by_cases hnext : rank + 1 < rank'
  · -- a magnitude between the two is nearer than both
    have hlast := strictMono_magnitudeAt hnext
    have hbetween : |magnitudeAt (rank + 1) - q| < |magnitudeAt rank - q| := by
      rw [abs_of_neg (show magnitudeAt rank - q < 0 by linarith), abs_lt]
      exact ⟨by linarith, by linarith⟩
    exact absurd (hnear (rank + 1) (by omega)) (not_le.2 hbetween)
  · have hrank := (rank_even_iff rank).2 (heven.resolve_left hlt.ne')
    have hrank' := (rank_even_iff rank').2 (heven'.resolve_left hlt.ne)
    omega

theorem signed_inj {p : ℚ} : signed negative p = signed negative q ↔ p = q := by
  cases negative
  · exact Iff.rfl
  · exact neg_inj

/-- Of each sign there is one value nearest to a number. -/
theorem IsNearest.unique {x y : Float} (hx : IsNearest (signed negative q) x)
    (hy : IsNearest (signed negative q) y) (hxs : isNegative x = negative) (hys : isNegative y = negative) :
    x = y := by
  have hdist : |valueOf y - signed negative q| = |valueOf x - signed negative q| :=
    le_antisymm (hy.near x hx.finite) (hx.near y hy.finite)
  have heven := hx.even y hy.finite hdist
  have heven' := hy.even x hx.finite hdist.symm
  rw [valueOf, valueOf, hxs, hys, signed_inj] at heven heven'
  rw [valueOf, valueOf, hxs, hys, abs_signed_sub, abs_signed_sub] at hdist
  have hrank : rankOf x = rankOf y := by
    refine eq_of_near (isFinite_iff.1 hx.finite) (isFinite_iff.1 hy.finite) (fun other ho => ?_) hdist
      (heven.imp_left fun h => strictMono_magnitudeAt.injective h)
      (heven'.imp_left fun h => strictMono_magnitudeAt.injective h)
    have hother := hx.near (ofRank negative other) (isFinite_iff.2 ((rankOf_ofRank ho.le).trans_lt ho))
    rwa [valueOf, valueOf, hxs, isNegative_ofRank ho.le, abs_signed_sub, abs_signed_sub, magnitudeOf_eq,
      magnitudeOf_eq, rankOf_ofRank ho.le] at hother
  rw [← ofRank_isNegative_rankOf x, ← ofRank_isNegative_rankOf y, hxs, hys, hrank]

theorem eq_of_isInf {x y : Float} (hx : x.isInf = true) (hy : y.isInf = true)
    (h : isNegative x = isNegative y) : x = y := by
  rw [← ofRank_isNegative_rankOf x, ← ofRank_isNegative_rankOf y, h, isInf_iff.1 hx, isInf_iff.1 hy]

/-- An amount has one value with each sign. -/
theorem Amount.IsValue.unique {amount : Amount} {x y : Float} (hx : amount.IsValue negative x)
    (hy : amount.IsValue negative y) : x = y := by
  cases amount with
  | exactly q =>
    obtain ⟨hxs, hx⟩ := hx
    obtain ⟨hys, hy⟩ := hy
    split at hx
    · rename_i hlarge
      rw [if_pos hlarge] at hy
      exact eq_of_isInf hx hy (hxs.trans hys.symm)
    · rename_i hlarge
      rw [if_neg hlarge] at hy
      exact hx.unique hy hxs hys
  | infinity => exact eq_of_isInf hx.2 hy.2 (hx.1.trans hy.1.symm)
  | nan => exact eq_of_isNaN hx hy

theorem RoundsTo.isValue (h : RoundsTo q rank) (hq : 0 ≤ q) (negative : Bool) :
    (Amount.exactly q).IsValue negative (ofRank negative rank) := by
  have hbound : rank = infinityRank ↔ (2 : ℚ) ^ 1024 - 2 ^ 970 ≤ q := by exact_mod_cast h.eq_infinityRank_iff
  refine ⟨isNegative_ofRank h.le, ?_⟩
  split
  · rename_i hlarge
    exact isInf_iff.2 ((rankOf_ofRank h.le).trans (hbound.2 hlarge))
  · rename_i hsmall
    exact h.isNearest hq (h.le.lt_of_ne (mt hbound.1 hsmall)) negative

/-! ## Numerals -/

/-- A numeral is read as the value of its amount. -/
theorem Numeral.toFloat_isValue {n : Numeral} (h : n.magnitude.IsDigital) :
    n.magnitude.amount.IsValue n.negative n.toFloat := by
  obtain ⟨negative, m⟩ := n
  cases m with
  | decimal d => exact (Decimal.rank_roundsTo (h d rfl)).isValue d.value_nonneg negative
  | infinity => exact ⟨isNegative_ofRank le_rfl, isInf_iff.2 (rankOf_ofRank le_rfl)⟩
  | nan =>
    change (0 / 0 : Float).isNaN = true
    rfl

end

theorem SpellsReal.exists_value {word : String} {negative : Bool} {amount : Amount}
    (h : SpellsReal word.toList negative amount) :
    ∃ x : Float, amount.IsValue negative x ∧ ofWord? word = some x := by
  obtain ⟨m, hm, hdigital, rfl⟩ := h.exists_numeral
  refine ⟨Numeral.toFloat ⟨negative, m⟩, Numeral.toFloat_isValue (n := ⟨negative, m⟩) hdigital, ?_⟩
  change (numeral? word.toList).map Numeral.toFloat = _
  rw [hm, Option.map_some]

end SceneScript.Number

namespace SceneScript.Script

open Number

/-- A word that spells a real numeral is read as the one value of what it stands for, and any other word is
refused. -/
theorem reals_read (line : Nat) (command word : String) (taken : Nat) (rest : List String) :
    (∀ negative amount, SpellsReal word.toList negative amount → ∃ x : Float,
      (∀ y, amount.IsValue negative y ↔ y = x) ∧
      Reader.value Float ⟨line, command, taken, word :: rest⟩ = (.ok x, ⟨line, command, taken + 1, rest⟩)) ∧
    ((∀ negative amount, ¬ SpellsReal word.toList negative amount) →
      Reader.value Float ⟨line, command, taken, word :: rest⟩ =
        (.error (.notANumber line command word), ⟨line, command, taken + 1, rest⟩)) := by
  refine ⟨fun negative amount hspells => ?_, fun hnone => ?_⟩
  · obtain ⟨x, hx, hword⟩ := hspells.exists_value
    exact ⟨x, fun y => ⟨fun hy => hy.unique hx, fun hy => hy ▸ hx⟩,
      Reader.value_cons_of_some line command taken rest hword⟩
  · refine Reader.value_cons_of_none line command taken rest ?_
    change (numeral? word.toList).map Numeral.toFloat = none
    rw [Option.map_eq_none_iff, Option.eq_none_iff_forall_ne_some]
    intro n hn
    exact hnone n.negative n.magnitude.amount (spellsReal_of_numeral? hn)

/-- A number halfway between two values goes to the even one, and no digit is set apart from the others. -/
theorem reals_read_halfway :
    (∃ x : Float, valueOf x = -9007199254740992 ∧
      Reader.value Float ⟨3, "light", 0, ["-9007199254740993", "1_0"]⟩ = (.ok x, ⟨3, "light", 1, ["1_0"]⟩)) ∧
    Reader.value Float ⟨3, "light", 1, ["1_0"]⟩ =
      (.error (.notANumber 3 "light" "1_0"), ⟨3, "light", 2, []⟩) := by
  obtain ⟨hread, -⟩ := reals_read 3 "light" "-9007199254740993" 0 ["1_0"]
  obtain ⟨-, hrefused⟩ := reals_read 3 "light" "1_0" 1 []
  refine ⟨?_, hrefused fun negative amount h => ?_⟩
  · have hnumeral : numeral? "-9007199254740993".toList =
        some ⟨true, .decimal ⟨"9007199254740993".toList, 0⟩⟩ := by decide +kernel
    have hvalue : (⟨"9007199254740993".toList, 0⟩ : Decimal).value = 9007199254740993 := by
      have hinteger : (⟨"9007199254740993".toList, 0⟩ : Decimal).integer = 9007199254740993 := by decide +kernel
      rw [Decimal.value, hinteger]
      norm_num
    have hspells := spellsReal_of_numeral? hnumeral
    rw [Magnitude.amount, hvalue] at hspells
    obtain ⟨x, hx, hread⟩ := hread true _ hspells
    have hbelow : magnitudeAt (1076 * normalRank) = 9007199254740992 := by
      norm_num [magnitudeAt, mantissa, exponent, normalRank]
    have habove : magnitudeAt (1076 * normalRank + 1) = 9007199254740994 := by
      norm_num [magnitudeAt, mantissa, exponent, normalRank]
    have hrounds : RoundsTo 9007199254740993 (1076 * normalRank) := by
      refine ⟨1076 * normalRank, ?_, ?_, ?_⟩
      · rw [hbelow]
        norm_num
      · rw [habove]
        norm_num
      · rw [roundedFrom, hbelow, habove, if_pos (.inr ⟨by norm_num, by decide⟩)]
        rfl
    obtain rfl := (hx _).1 (hrounds.isValue (by norm_num) true)
    refine ⟨_, ?_, hread⟩
    rw [valueOf, isNegative_ofRank (by decide), magnitudeOf_eq, rankOf_ofRank (by decide), hbelow]
    rfl
  · obtain ⟨m, hm, -⟩ := h.exists_numeral
    have hnone : numeral? "1_0".toList = none := by decide +kernel
    rw [hnone] at hm
    cases hm

end SceneScript.Script
