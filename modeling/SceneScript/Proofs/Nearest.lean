/-
The magnitude nearest to an exact number. The magnitudes ascend with their ranks (`strictMono_magnitudeAt`), so
a number lies between two successive ones, and `RoundsTo` says to which of the two it is rounded. Reading a
quotient or a decimal rounds it so, whatever it looks like (`rankOfQuotient_roundsTo`, `Decimal.rank_roundsTo`).
-/
import SceneScript.Number.Decimal
import SceneScript.Proofs.Digits
import SceneScript.Proofs.Packing
namespace SceneScript.Number

/-! ## Magnitudes by rank -/

/-- The magnitude at a rank, exactly. At infinity's rank it is `2 ^ 1024`, the first number out of range. -/
def magnitudeAt (rank : Nat) : ℚ := mantissa rank * 2 ^ exponent rank

theorem magnitudeOf_eq (x : Float) : magnitudeOf x = magnitudeAt (rankOf x) := rfl

/-- The magnitudes of a binade, and the first one behind it, are the multiples of a power of two. -/
theorem magnitudeAt_grid {k steps : Nat} (hle : steps ≤ 2 * normalRank) (h : k = 0 ∨ normalRank ≤ steps) :
    magnitudeAt (k * normalRank + steps) = steps * 2 ^ (k - 1074 : Int) := by
  by_cases hsub : k * normalRank + steps < normalRank
  · obtain rfl : k = 0 := by
      rw [normalRank] at *
      omega
    rw [Nat.zero_mul, Nat.zero_add] at *
    rw [magnitudeAt, mantissa, exponent, if_pos hsub, if_pos hsub]
    rfl
  have hge : normalRank ≤ steps := by
    rcases h with rfl | h
    · omega
    · exact h
  rcases Nat.lt_or_eq_of_le hle with hlt | rfl
  · have hdiv : (k * normalRank + steps) / normalRank = k + 1 := by
      rw [normalRank] at *
      omega
    have hmod : normalRank + (k * normalRank + steps) % normalRank = steps := by
      rw [normalRank] at *
      omega
    rw [magnitudeAt, mantissa, exponent, if_neg hsub, if_neg hsub, hdiv, hmod]
    congr 2
    omega
  · have hdiv : (k * normalRank + 2 * normalRank) / normalRank = k + 2 := by
      rw [normalRank]
      omega
    have hmod : (k * normalRank + 2 * normalRank) % normalRank = 0 := by
      rw [normalRank]
      omega
    rw [magnitudeAt, mantissa, exponent, if_neg hsub, if_neg hsub, hdiv, hmod]
    rw [show ((k + 2 : Nat) : Int) - 1075 = k - 1074 + 1 by omega, zpow_add₀ two_ne_zero]
    push_cast
    ring

/-- A rank counts the mantissa of its magnitude on top of the binades below. -/
theorem eq_grid (rank : Nat) :
    ∃ k : Nat, exponent rank = k - 1074 ∧ rank = k * normalRank + mantissa rank ∧
      (k = 0 ∨ normalRank ≤ mantissa rank) := by
  rw [exponent, mantissa]
  split
  · exact ⟨0, rfl, by omega, .inl rfl⟩
  · rename_i h
    refine ⟨rank / normalRank - 1, ?_, ?_, .inr (Nat.le_add_right ..)⟩
    · have := Nat.div_pos (not_lt.1 h) (by decide : 0 < normalRank)
      omega
    · rw [normalRank] at *
      omega

/-- The step to the next magnitude is one in the last place of the mantissa. -/
theorem magnitudeAt_succ (rank : Nat) : magnitudeAt (rank + 1) = magnitudeAt rank + 2 ^ exponent rank := by
  obtain ⟨k, he, hrank, hk⟩ := eq_grid rank
  have hlt := mantissa_lt rank
  have hnext : magnitudeAt (k * normalRank + (mantissa rank + 1)) = _ :=
    magnitudeAt_grid hlt (hk.imp_right (·.trans (Nat.le_succ _)))
  rw [← Nat.add_assoc, ← hrank] at hnext
  rw [hnext, magnitudeAt, he]
  push_cast
  ring

theorem strictMono_magnitudeAt : StrictMono magnitudeAt := by
  refine strictMono_nat_of_lt_succ fun rank => ?_
  rw [magnitudeAt_succ]
  exact lt_add_of_pos_right _ (by positivity)

@[simp] theorem magnitudeAt_zero : magnitudeAt 0 = 0 := by
  simp [magnitudeAt, mantissa, normalRank]

theorem magnitudeAt_infinityRank : magnitudeAt infinityRank = 2 ^ (1024 : Int) := by
  have h : magnitudeAt (2046 * normalRank + normalRank) = _ := magnitudeAt_grid (by decide) (.inr le_rfl)
  rw [show 2046 * normalRank + normalRank = infinityRank from rfl] at h
  rw [h, show (normalRank : ℚ) = 2 ^ (52 : Int) from by rw [normalRank]; norm_num, ← zpow_add₀ two_ne_zero]
  rfl

theorem rank_even_iff (rank : Nat) : rank % 2 = 0 ↔ mantissa rank % 2 = 0 := by
  rw [mantissa, normalRank]
  split <;> omega

/-! ## Rounding an exact number -/

/-- Where a number is rounded to whose magnitude is the one at a rank, or between that and the next: the nearer
one, or if both are as near the one with the even rank. -/
def roundedFrom (q : ℚ) (below : Nat) : Nat :=
  if 2 * q < magnitudeAt below + magnitudeAt (below + 1) ∨
      (2 * q = magnitudeAt below + magnitudeAt (below + 1) ∧ below % 2 = 0) then below
  else below + 1

/-- A number is rounded to a rank. What lies behind the last finite magnitude, or is rounded up from it, is
infinite. -/
def RoundsTo (q : ℚ) (rank : Nat) : Prop :=
  ∃ below, magnitudeAt below ≤ q ∧ q < magnitudeAt (below + 1) ∧ rank = min (roundedFrom q below) infinityRank

section
variable {q : ℚ} {rank : Nat}

theorem roundedFrom_cases (q : ℚ) (below : Nat) :
    roundedFrom q below = below ∨ roundedFrom q below = below + 1 := by
  rw [roundedFrom]
  split
  · exact .inl rfl
  · exact .inr rfl

/-- A number is rounded to one rank only. -/
theorem RoundsTo.unique {rank' : Nat} (h : RoundsTo q rank) (h' : RoundsTo q rank') : rank = rank' := by
  obtain ⟨below, hle, hlt, rfl⟩ := h
  obtain ⟨below', hle', hlt', rfl⟩ := h'
  have h1 := strictMono_magnitudeAt.lt_iff_lt.1 (hle.trans_lt hlt')
  have h2 := strictMono_magnitudeAt.lt_iff_lt.1 (hle'.trans_lt hlt)
  obtain rfl : below = below' := by omega
  rfl

/-- A larger number is not rounded to a smaller magnitude. -/
theorem RoundsTo.mono {q' : ℚ} {rank' : Nat} (h : RoundsTo q rank) (h' : RoundsTo q' rank') (hle : q ≤ q') :
    rank ≤ rank' := by
  obtain ⟨below, hle1, hlt1, rfl⟩ := h
  obtain ⟨below', hle2, hlt2, rfl⟩ := h'
  have hbelow : below ≤ below' :=
    Nat.lt_succ_iff.1 (strictMono_magnitudeAt.lt_iff_lt.1 (hle1.trans_lt (hle.trans_lt hlt2)))
  refine min_le_min_right _ ?_
  rcases Nat.lt_or_eq_of_le hbelow with hlt | rfl
  · rcases roundedFrom_cases q below with h | h <;> rcases roundedFrom_cases q' below' with h' | h' <;> omega
  · rw [roundedFrom, roundedFrom]
    split
    · split <;> omega
    · rename_i hfar
      rw [if_neg]
      rintro (hnear | ⟨htie, heven⟩)
      · exact hfar (.inl (by linarith))
      · rcases hle.lt_or_eq with hlt | rfl
        · exact hfar (.inl (by linarith))
        · exact hfar (.inr ⟨htie, heven⟩)

/-- The magnitudes themselves are not moved. -/
theorem roundsTo_magnitudeAt (h : rank ≤ infinityRank) : RoundsTo (magnitudeAt rank) rank := by
  have hlt := strictMono_magnitudeAt (Nat.lt_succ_self rank)
  refine ⟨rank, le_rfl, hlt, ?_⟩
  rw [roundedFrom, if_pos (.inl (by linarith)), Nat.min_eq_left h]

theorem RoundsTo.le (h : RoundsTo q rank) : rank ≤ infinityRank := by
  obtain ⟨below, -, -, rfl⟩ := h
  exact Nat.min_le_right _ _

/-- The numbers out of range begin half a step behind the last finite magnitude. -/
theorem add_pred_infinityRank :
    magnitudeAt (infinityRank - 1) + magnitudeAt infinityRank = 2 * (2 ^ (1024 : Int) - 2 ^ (970 : Int)) := by
  have hstep := magnitudeAt_succ (infinityRank - 1)
  have hhalf : (2 : ℚ) ^ (971 : Int) = 2 * 2 ^ (970 : Int) := zpow_one_add₀ two_ne_zero 970
  rw [show infinityRank - 1 + 1 = infinityRank from rfl, magnitudeAt_infinityRank,
    show exponent (infinityRank - 1) = 971 from rfl, hhalf] at hstep
  rw [magnitudeAt_infinityRank]
  generalize (2 : ℚ) ^ (1024 : Int) = bound at *
  linarith

theorem RoundsTo.eq_infinityRank_iff (h : RoundsTo q rank) :
    rank = infinityRank ↔ 2 ^ (1024 : Int) - 2 ^ (970 : Int) ≤ q := by
  obtain ⟨below, hle, hlt, rfl⟩ := h
  have hsum := add_pred_infinityRank
  have hlast := strictMono_magnitudeAt (show infinityRank - 1 < infinityRank by decide)
  generalize (2 : ℚ) ^ (1024 : Int) - 2 ^ (970 : Int) = bound at *
  rcases lt_trichotomy below (infinityRank - 1) with hbelow | rfl | hbelow
  · -- the next magnitude is finite too
    have hnext := strictMono_magnitudeAt.monotone (show below + 1 ≤ infinityRank - 1 by omega)
    refine iff_of_false ?_ (by linarith)
    rcases roundedFrom_cases q below with hr | hr <;> omega
  · have hodd : ¬ (infinityRank - 1) % 2 = 0 := by decide
    rw [show infinityRank - 1 + 1 = infinityRank from rfl] at hlt
    rw [roundedFrom, show infinityRank - 1 + 1 = infinityRank from rfl]
    simp only [hodd, and_false, or_false]
    split
    · exact iff_of_false (by decide) (by linarith)
    · exact iff_of_true (Nat.min_self _) (by linarith)
  · have hge := strictMono_magnitudeAt.monotone (show infinityRank ≤ below by omega)
    refine iff_of_true ?_ (by linarith)
    rcases roundedFrom_cases q below with hr | hr <;> omega

/-- No finite magnitude is nearer than that of the rank a number is rounded to, and if another one is as near,
the mantissa is even. -/
theorem RoundsTo.nearest (h : RoundsTo q rank) (hfinite : rank < infinityRank) (other : Nat) :
    |magnitudeAt rank - q| ≤ |magnitudeAt other - q| ∧
      (|magnitudeAt rank - q| = |magnitudeAt other - q| → other = rank ∨ mantissa rank % 2 = 0) := by
  obtain ⟨below, hle, hlt, rfl⟩ := h
  rw [Nat.min_eq_left (by omega), ← rank_even_iff]
  clear hfinite
  have hbelow : |magnitudeAt below - q| = q - magnitudeAt below := by
    rw [abs_sub_comm, abs_of_nonneg (by linarith)]
  have habove : |magnitudeAt (below + 1) - q| = magnitudeAt (below + 1) - q := abs_of_pos (by linarith)
  have hdown : other < below → q - magnitudeAt below < |magnitudeAt other - q| := fun h => by
    have hm := strictMono_magnitudeAt h
    rw [abs_sub_comm, abs_of_nonneg (by linarith)]
    linarith
  have hup : below + 1 < other → magnitudeAt (below + 1) - q < |magnitudeAt other - q| := fun h => by
    have hm := strictMono_magnitudeAt h
    rw [abs_of_pos (by linarith)]
    linarith
  rw [roundedFrom]
  split
  · rename_i hnear
    rw [hbelow]
    rcases lt_trichotomy other below with h | rfl | h
    · exact ⟨(hdown h).le, fun heq => absurd heq (hdown h).ne⟩
    · exact ⟨hbelow.ge, fun _ => .inl rfl⟩
    · have habove' : magnitudeAt (below + 1) - q ≤ |magnitudeAt other - q| := by
        rcases Nat.lt_or_eq_of_le h with h | rfl
        · exact (hup h).le
        · exact habove.ge
      rcases hnear with hnear | ⟨htie, heven⟩
      · have hlt : q - magnitudeAt below < |magnitudeAt other - q| := by linarith
        exact ⟨hlt.le, fun heq => absurd heq hlt.ne⟩
      · exact ⟨by linarith, fun _ => .inr heven⟩
  · rename_i hfar
    rw [not_or, not_lt, not_and] at hfar
    obtain ⟨hfar, htie⟩ := hfar
    rw [habove]
    rcases lt_trichotomy other (below + 1) with h | rfl | h
    · have hbelow' : q - magnitudeAt below ≤ |magnitudeAt other - q| := by
        rcases Nat.lt_or_eq_of_le (Nat.lt_succ_iff.1 h) with h | rfl
        · exact (hdown h).le
        · exact hbelow.ge
      refine ⟨by linarith, fun heq => .inr ?_⟩
      have hodd := htie (by linarith)
      omega
    · exact ⟨habove.ge, fun _ => .inl rfl⟩
    · exact ⟨(hup h).le, fun heq => absurd heq (hup h).ne⟩

end

/-! ## Quotients -/

section
variable {num den : Nat}

/-- Shifting one of two numbers divides their quotient by a power of two. -/
theorem shifted_quotient (num den : Nat) (e : Int) :
    ((num <<< (-e).toNat : Nat) : ℚ) / (den <<< e.toNat : Nat) = num / den / 2 ^ e := by
  rw [Nat.shiftLeft_eq, Nat.shiftLeft_eq]
  push_cast
  rcases le_total 0 e with he | he
  · rw [Int.toNat_of_nonpos (Int.neg_nonpos_of_nonneg he), pow_zero, mul_one, ← zpow_natCast,
      Int.toNat_of_nonneg he, div_div]
  · rw [Int.toNat_of_nonpos he, pow_zero, mul_one, ← zpow_natCast, Int.toNat_of_nonneg (by omega), zpow_neg,
      div_div, ← div_eq_mul_inv, div_div, mul_comm (den : ℚ)]

theorem log2Quotient_spec (hn : 0 < num) (hd : 0 < den) :
    (2 : ℚ) ^ log2Quotient num den ≤ num / den ∧ (num / den : ℚ) < 2 ^ (log2Quotient num den + 1) := by
  have hden : (0 : ℚ) < den := by exact_mod_cast hd
  have hnum1 : (2 : ℚ) ^ (num.log2 : Int) ≤ num := by exact_mod_cast Nat.log2_self_le hn.ne'
  have hnum2 : (num : ℚ) < 2 ^ (num.log2 + 1 : Int) := by exact_mod_cast Nat.lt_log2_self
  have hden1 : (2 : ℚ) ^ (den.log2 : Int) ≤ den := by exact_mod_cast Nat.log2_self_le hd.ne'
  have hden2 : (den : ℚ) < 2 ^ (den.log2 + 1 : Int) := by exact_mod_cast Nat.lt_log2_self
  have hupper : (num / den : ℚ) < 2 ^ (num.log2 - den.log2 + 1 : Int) := by
    rw [div_lt_iff₀ hden]
    calc (num : ℚ) < 2 ^ (num.log2 + 1 : Int) := hnum2
      _ = 2 ^ (num.log2 - den.log2 + 1 : Int) * 2 ^ (den.log2 : Int) := by
        rw [← zpow_add₀ two_ne_zero]
        congr 1
        omega
      _ ≤ 2 ^ (num.log2 - den.log2 + 1 : Int) * den := by gcongr
  have hlower : (2 : ℚ) ^ (num.log2 - den.log2 - 1 : Int) ≤ num / den := by
    rw [le_div_iff₀ hden]
    calc (2 : ℚ) ^ (num.log2 - den.log2 - 1 : Int) * den
        ≤ 2 ^ (num.log2 - den.log2 - 1 : Int) * 2 ^ (den.log2 + 1 : Int) := by gcongr
      _ = 2 ^ (num.log2 : Int) := by
        rw [← zpow_add₀ two_ne_zero]
        congr 1
        omega
      _ ≤ num := hnum1
  have htest (t : Int) : num <<< (-t).toNat < den <<< t.toNat ↔ (num / den : ℚ) < 2 ^ t := by
    have hshift : (0 : ℚ) < (den <<< t.toNat : Nat) := by
      rw [Nat.shiftLeft_eq]
      exact_mod_cast Nat.mul_pos hd (Nat.two_pow_pos _)
    rw [← Nat.cast_lt (α := ℚ), ← div_lt_one hshift, shifted_quotient, div_lt_one (by positivity)]
  rw [log2Quotient]
  simp only [htest]
  split
  · rename_i h
    rw [Int.sub_add_cancel]
    exact ⟨hlower, h⟩
  · rename_i h
    exact ⟨not_lt.1 h, hupper⟩

/-- The integers around a quotient, and on which side of their middle it lies. -/
theorem div_bounds (num : Nat) (hd : 0 < den) :
    ((num / den : Nat) : ℚ) ≤ num / den ∧ (num / den : ℚ) < (num / den : Nat) + 1 ∧
      (2 * (num % den) < den ↔ 2 * (num / den : ℚ) < 2 * (num / den : Nat) + 1) ∧
      (2 * (num % den) = den ↔ 2 * (num / den : ℚ) = 2 * (num / den : Nat) + 1) := by
  have hden : (0 : ℚ) < den := by exact_mod_cast hd
  have hnum : (num : ℚ) = den * (num / den : Nat) + (num % den : Nat) := by
    exact_mod_cast (Nat.div_add_mod num den).symm
  have hrest : ((num % den : Nat) : ℚ) < den := by exact_mod_cast Nat.mod_lt num hd
  have hquotient : (num / den : ℚ) = (num / den : Nat) + (num % den : Nat) / den := by
    rw [hnum]
    field_simp
  have hnonneg : (0 : ℚ) ≤ (num % den : Nat) / den := by positivity
  have hlt : ((num % den : Nat) : ℚ) / den < 1 := (div_lt_one hden).2 hrest
  have hbelow : 2 * (num % den) < den ↔ 2 * (((num % den : Nat) : ℚ) / den) < 1 := by
    rw [← mul_div_assoc, div_lt_one hden]
    exact_mod_cast Iff.rfl
  have htie : 2 * (num % den) = den ↔ 2 * (((num % den : Nat) : ℚ) / den) = 1 := by
    rw [← mul_div_assoc, div_eq_one_iff_eq hden.ne']
    exact_mod_cast Iff.rfl
  rw [hquotient, hbelow, htie]
  refine ⟨by linarith, by linarith, ⟨fun h => by linarith, fun h => by linarith⟩,
    ⟨fun h => by linarith, fun h => by linarith⟩⟩

theorem rankOfQuotient_roundsTo (num : Nat) (hd : 0 < den) : RoundsTo (num / den) (rankOfQuotient num den) := by
  rw [rankOfQuotient]
  split
  · rename_i hzero
    have h := roundsTo_magnitudeAt (Nat.zero_le infinityRank)
    rw [magnitudeAt_zero] at h
    rwa [hzero, Nat.cast_zero, zero_div]
  rename_i hzero
  obtain ⟨hlower, hupper⟩ := log2Quotient_spec (Nat.pos_of_ne_zero hzero) hd
  obtain ⟨k, hk⟩ : ∃ k : Nat, max (log2Quotient num den - 52) (-1074) = k - 1074 :=
    ⟨(max (log2Quotient num den - 52) (-1074) + 1074).toNat, by omega⟩
  simp only [hk]
  have hscaled := shifted_quotient num den (k - 1074)
  have hpow : (0 : ℚ) < 2 ^ (k - 1074 : Int) := by positivity
  have hshift : 0 < den <<< (k - 1074 : Int).toNat := by
    rw [Nat.shiftLeft_eq]
    exact Nat.mul_pos hd (Nat.two_pow_pos _)
  obtain ⟨hfloor, hceil, hhalf, htie⟩ := div_bounds (num <<< (-(k - 1074 : Int)).toNat) hshift
  rw [hscaled] at hfloor hceil hhalf htie
  -- on the grid of its binade the quotient has no more places than a mantissa, and no fewer if it is normal
  have hlong : (num / den / 2 ^ (k - 1074 : Int) : ℚ) < (2 * normalRank : Nat) := by
    rw [div_lt_iff₀ hpow]
    calc (num / den : ℚ) < 2 ^ (log2Quotient num den + 1) := hupper
      _ ≤ 2 ^ (53 + (k - 1074) : Int) := zpow_le_zpow_right₀ one_le_two (by omega)
      _ = (2 * normalRank : Nat) * 2 ^ (k - 1074 : Int) := by
        rw [zpow_add₀ two_ne_zero, normalRank]
        norm_num
  have hshort : k = 0 ∨ (normalRank : ℚ) ≤ num / den / 2 ^ (k - 1074 : Int) := by
    refine or_iff_not_imp_left.2 fun hk0 => ?_
    rw [le_div_iff₀ hpow]
    calc (normalRank : ℚ) * 2 ^ (k - 1074 : Int) = 2 ^ (52 + (k - 1074) : Int) := by
          rw [zpow_add₀ two_ne_zero, normalRank]
          norm_num
      _ ≤ 2 ^ log2Quotient num den := zpow_le_zpow_right₀ one_le_two (by omega)
      _ ≤ num / den := hlower
  rw [roundHalfEven]
  generalize num <<< (-(k - 1074 : Int)).toNat = scaled, den <<< (k - 1074 : Int).toNat = unit at *
  generalize scaled / unit = below at *
  generalize hq : (num / den : ℚ) = q at *
  have hbelow : below + 1 ≤ 2 * normalRank := by
    have h := hfloor.trans_lt hlong
    exact_mod_cast h
  have hnormal : k = 0 ∨ normalRank ≤ below := by
    refine hshort.imp_right fun h => ?_
    have h' : (normalRank : ℚ) < (below + 1 : Nat) := by
      push_cast
      exact h.trans_lt hceil
    exact Nat.lt_succ_iff.1 (by exact_mod_cast h')
  have hdown := magnitudeAt_grid (k := k) (Nat.le_of_succ_le hbelow) hnormal
  have hup := magnitudeAt_grid (k := k) hbelow (hnormal.imp_right fun h => h.trans (Nat.le_succ _))
  rw [← Nat.add_assoc] at hup
  push_cast at hup
  have hunscaled : q = q / 2 ^ (k - 1074 : Int) * 2 ^ (k - 1074 : Int) := (div_mul_cancel₀ q hpow.ne').symm
  have hsum : (below * 2 ^ (k - 1074 : Int) + (below + 1) * 2 ^ (k - 1074 : Int) : ℚ) =
      (2 * below + 1) * 2 ^ (k - 1074 : Int) := by ring
  have hhalf' : 2 * q < (2 * below + 1) * 2 ^ (k - 1074 : Int) ↔ 2 * (scaled % unit) < unit := by
    rw [hhalf, ← div_lt_iff₀ hpow, mul_div_assoc]
  have htie' : 2 * q = (2 * below + 1) * 2 ^ (k - 1074 : Int) ↔ 2 * (scaled % unit) = unit := by
    rw [htie, ← div_eq_iff hpow.ne', mul_div_assoc]
  have hparity : (k * normalRank + below) % 2 = below % 2 := by
    rw [normalRank]
    omega
  refine ⟨k * normalRank + below, ?_, ?_, ?_⟩
  · rw [hdown]
    exact (le_div_iff₀ hpow).1 hfloor
  · rw [hup]
    exact (div_lt_iff₀ hpow).1 hceil
  · rw [roundedFrom, hdown, hup, hsum, Int.sub_add_cancel, Int.toNat_natCast]
    simp only [hhalf', htie', hparity, apply_ite (k * normalRank + ·), Nat.add_assoc]

end

/-! ## Out of range on either side -/

theorem exists_roundsTo {q : ℚ} (h : 0 ≤ q) : ∃ rank, RoundsTo q rank := by
  have hrounds := rankOfQuotient_roundsTo q.num.toNat q.den_pos
  have hnum : ((q.num.toNat : Nat) : ℚ) = q.num := by
    exact_mod_cast Int.toNat_of_nonneg (Rat.num_nonneg.2 h)
  rw [hnum, Rat.num_div_den] at hrounds
  exact ⟨_, hrounds⟩

theorem roundsTo_infinityRank {q : ℚ} (h : 2 ^ (1024 : Int) ≤ q) : RoundsTo q infinityRank := by
  have hpos : (0 : ℚ) < 2 ^ (1024 : Int) := by positivity
  obtain ⟨rank, hrounds⟩ := exists_roundsTo (hpos.le.trans h)
  have hhalf : (0 : ℚ) ≤ 2 ^ (970 : Int) := by positivity
  have hbound : (2 : ℚ) ^ (1024 : Int) - 2 ^ (970 : Int) ≤ q := (sub_le_self _ hhalf).trans h
  rwa [← hrounds.eq_infinityRank_iff.2 hbound]

theorem roundsTo_zero {q : ℚ} (h : 0 ≤ q) (hlt : q < 2 ^ (-1075 : Int)) : RoundsTo q 0 := by
  have hone : magnitudeAt 1 = 2 * 2 ^ (-1075 : Int) := by
    have hdouble : (2 : ℚ) ^ (1 + -1075 : Int) = 2 * 2 ^ (-1075 : Int) := zpow_one_add₀ two_ne_zero _
    rw [magnitudeAt_succ, magnitudeAt_zero, zero_add, ← hdouble]
    rfl
  have hpos : (0 : ℚ) < 2 ^ (-1075 : Int) := by positivity
  refine ⟨0, ?_, ?_, ?_⟩
  · rwa [magnitudeAt_zero]
  · rw [hone]
    linarith
  · rw [roundedFrom, hone, magnitudeAt_zero, if_pos (.inl (by linarith))]
    rfl

/-! ## Decimals -/

namespace Decimal

/-- The exact value of a decimal. -/
def value (d : Decimal) : ℚ := d.integer * 10 ^ d.exponent

/-- The digits of a decimal are digits. -/
def IsDigital (d : Decimal) : Prop := ∀ c ∈ d.digits, c.isDigit = true

theorem value_nonneg (d : Decimal) : 0 ≤ d.value := by
  rw [value]
  positivity

theorem IsDigital.integer_lt {d : Decimal} (h : d.IsDigital) : d.integer < 10 ^ d.digits.length :=
  (spellsDigits_ofDigitChars h).lt

/-- The value as a quotient of integers. -/
theorem value_eq_div (d : Decimal) :
    d.value = (d.integer * Nat.pow 10 d.exponent.toNat : Nat) / (Nat.pow 10 (-d.exponent).toNat : Nat) := by
  rw [value, Nat.pow_eq, Nat.pow_eq]
  push_cast
  rcases le_total 0 d.exponent with he | he
  · rw [Int.toNat_of_nonpos (Int.neg_nonpos_of_nonneg he), pow_zero, div_one, ← zpow_natCast,
      Int.toNat_of_nonneg he]
  · rw [Int.toNat_of_nonpos he, pow_zero, mul_one, ← zpow_natCast, Int.toNat_of_nonneg (by omega), zpow_neg,
      div_inv_eq_mul]

theorem two_pow_le_ten_pow : (2 : ℚ) ^ (1024 : Int) ≤ 10 ^ (311 : Int) := by
  have h : 2 ^ 1024 ≤ 10 ^ 311 := by decide +kernel
  exact_mod_cast h

theorem ten_pow_lt_two_pow : (10 : ℚ) ^ (-331 : Int) < 2 ^ (-1075 : Int) := by
  have h : 2 ^ 1075 < 10 ^ 331 := by decide +kernel
  rw [zpow_neg, zpow_neg]
  exact inv_strictAnti₀ (by positivity) (by exact_mod_cast h)

/-- A decimal is read as the magnitude to which its exact value is rounded. -/
theorem rank_roundsTo {d : Decimal} (h : d.IsDigital) : RoundsTo d.value d.rank := by
  rw [rank]
  split
  · rename_i hzero
    have hzero' : d.value = magnitudeAt 0 := by rw [value, hzero, Nat.cast_zero, zero_mul, magnitudeAt_zero]
    rw [hzero']
    exact roundsTo_magnitudeAt (Nat.zero_le _)
  rename_i hpos
  have hten : (0 : ℚ) < 10 ^ d.exponent := by positivity
  split
  · rename_i hlarge
    have hone : (1 : ℚ) ≤ d.integer := by exact_mod_cast Nat.pos_of_ne_zero hpos
    refine roundsTo_infinityRank ?_
    calc (2 : ℚ) ^ (1024 : Int) ≤ 10 ^ (311 : Int) := two_pow_le_ten_pow
      _ ≤ 10 ^ d.exponent := zpow_le_zpow_right₀ (by norm_num) hlarge
      _ ≤ d.value := le_mul_of_one_le_left hten.le hone
  split
  · rename_i hsmall
    have hlt : (d.integer : ℚ) < 10 ^ (d.digits.length : Int) := by exact_mod_cast h.integer_lt
    refine roundsTo_zero d.value_nonneg ?_
    calc d.value < 10 ^ (d.digits.length : Int) * 10 ^ d.exponent := mul_lt_mul_of_pos_right hlt hten
      _ = 10 ^ (d.digits.length + d.exponent) := (zpow_add₀ (by norm_num) _ _).symm
      _ ≤ 10 ^ (-331 : Int) := zpow_le_zpow_right₀ (by norm_num) (by omega)
      _ < 2 ^ (-1075 : Int) := ten_pow_lt_two_pow
  · rw [value_eq_div]
    exact rankOfQuotient_roundsTo _ (Nat.pow_pos (by decide))

end Decimal

end SceneScript.Number
