/-
Rounding in binary64. An exact `m * 2 ^ e` is rounded to the nearest multiple of a power of two, ties going
to the even one (`roundWithAccuracy_exact`). So what is rounded to zero, and what a power of two bounds, can
be read off the exact value (`gridSteps_eq_zero_iff`, `gridSteps_le`).
-/
import SceneScript.Proofs.Packing
namespace SceneScript.Number

open Float.Model Float.Model.UnpackedFloat

/-! ## Rounded quotients -/

section
variable {num den : Nat}

theorem le_roundHalfEven (num den : Nat) : num / den ≤ roundHalfEven num den := by
  rcases roundHalfEven_eq_or num den with h | h <;> omega

theorem roundHalfEven_le {n : Nat} (hpos : 0 < den) (h : num ≤ n * den) : roundHalfEven num den ≤ n := by
  rcases Nat.lt_or_eq_of_le h with hlt | rfl
  · have hdiv := (Nat.div_lt_iff_lt_mul hpos).2 hlt
    rcases roundHalfEven_eq_or num den with hr | hr <;> omega
  · exact (roundHalfEven_mul n hpos).le

/-- A half is rounded to zero, which is even. -/
theorem roundHalfEven_eq_zero_iff (hpos : 0 < den) : roundHalfEven num den = 0 ↔ 2 * num ≤ den := by
  by_cases hlt : num < den
  · simp only [roundHalfEven, Nat.div_eq_of_lt hlt, Nat.mod_eq_of_lt hlt, and_true]
    split <;> omega
  · have hdiv : 1 ≤ num / den := (Nat.one_le_div_iff hpos).2 (not_lt.1 hlt)
    rcases roundHalfEven_eq_or num den with hr | hr <;> omega

end

/-! ## Shifting -/

theorem shiftRight_succ (em : ExtendedMantissa) (k : Nat) :
    em >>> (k + 1) = (em >>> k).shiftRightOne := rfl

theorem mantissa_shiftRight (em : ExtendedMantissa) (k : Nat) :
    (em >>> k).mantissa = em.mantissa / 2 ^ k := by
  induction k with
  | zero => exact (Nat.div_one _).symm
  | succ k ih =>
    rw [shiftRight_succ, ExtendedMantissa.shiftRightOne, ih, Nat.div_div_eq_div_mul, Nat.pow_succ]

/-- The last place shifted out is the round bit, and the sticky bit says whether there was anything behind. -/
theorem shiftRight_eq (m k : Nat) :
    ExtendedMantissa.mk m false false >>> (k + 1) =
      ⟨m / 2 ^ (k + 1), m / 2 ^ k % 2 != 0, decide (m % 2 ^ k ≠ 0)⟩ := by
  induction k with
  | zero =>
    rw [Nat.pow_zero, Nat.mod_one, Nat.div_one]
    rfl
  | succ k ih =>
    rw [shiftRight_succ, ih, ExtendedMantissa.shiftRightOne, Nat.mod_pow_succ, Nat.div_div_eq_div_mul,
      ← Nat.pow_succ]
    rcases Nat.mod_two_eq_zero_or_one (m / 2 ^ k) with hbit | hbit
    · simp [hbit]
    · simp [hbit]

/-- What is shifted out is rounded away to the nearest, ties to even. -/
theorem roundedMantissa_shiftRight (m k : Nat) :
    (ExtendedMantissa.mk m false false >>> k).roundedMantissa = roundHalfEven m (2 ^ k) := by
  cases k with
  | zero =>
    have hround := roundHalfEven_mul m Nat.one_pos
    rw [Nat.mul_one] at hround
    exact hround.symm
  | succ k =>
    have hrest : m % 2 ^ k < 2 ^ k := Nat.mod_lt _ (Nat.two_pow_pos k)
    have hden : 2 ^ (k + 1) = 2 * 2 ^ k := Nat.pow_succ'
    rw [shiftRight_eq, ExtendedMantissa.roundedMantissa, roundHalfEven, Nat.mod_pow_succ, hden]
    generalize m / (2 * 2 ^ k) = below
    rcases Nat.mod_two_eq_zero_or_one (m / 2 ^ k) with hbit | hbit
    · by_cases h : m % 2 ^ k = 0
      · simp [hbit, h, ExtendedMantissa.accuracy, Accuracy.roundToNearestEven]
      · simp [hbit, h, ExtendedMantissa.accuracy, Accuracy.roundToNearestEven]
        omega
    · by_cases h : m % 2 ^ k = 0
      · simp [hbit, h, ExtendedMantissa.accuracy, Accuracy.roundToNearestEven]
        split <;> omega
      · simp [hbit, h, ExtendedMantissa.accuracy, Accuracy.roundToNearestEven]

theorem le_roundedMantissa (em : ExtendedMantissa) : em.mantissa ≤ em.roundedMantissa := by
  obtain ⟨m, round, sticky⟩ := em
  cases round <;> cases sticky <;>
    simp [ExtendedMantissa.roundedMantissa, ExtendedMantissa.accuracy, Accuracy.roundToNearestEven]

theorem roundedMantissa_le (em : ExtendedMantissa) : em.roundedMantissa ≤ em.mantissa + 1 := by
  obtain ⟨m, round, sticky⟩ := em
  cases round <;> cases sticky <;>
    simp [ExtendedMantissa.roundedMantissa, ExtendedMantissa.accuracy, Accuracy.roundToNearestEven]
  omega

theorem mantissa_ofMantissaAndAccuracy (m : Nat) (a : Accuracy) :
    (ExtendedMantissa.ofMantissaAndAccuracy m a).mantissa = m := by
  match a with
  | .exact | .inexact .lt | .inexact .eq | .inexact .gt => rfl

/-! ## The grid of a value -/

/-- The exponent of the grid that `m * 2 ^ e` is rounded on. -/
def gridExponent (m : Nat) (e : Int) : Int := max (m.log2 + e - 52) (-1074)

/-- The places of `m` behind the grid. -/
def excess (m : Nat) (e : Int) : Nat := (gridExponent m e - e).toNat

/-- The number of steps of the grid that `m * 2 ^ e` is rounded to. -/
def gridSteps (m : Nat) (e : Int) : Nat := roundHalfEven m (2 ^ excess m e)

theorem targetExponent_totalExponent (m : Nat) (e : Int) :
    Format.binary64.targetExponent (totalExponent m e) = gridExponent m e := by
  have hbits : (Format.binary64.mantissaBits : Int) = 53 := rfl
  have hmin : Format.binary64.minExponent = -1074 := rfl
  rw [Format.targetExponent, totalExponent, gridExponent, hbits, hmin]
  congr 1
  omega

theorem shiftToTargetExponent_eq (m : Nat) (e : Int) (a : Accuracy) :
    shiftToTargetExponent Format.binary64 m e a =
      (ExtendedMantissa.ofMantissaAndAccuracy m a >>> excess m e, e + excess m e) := by
  rw [shiftToTargetExponent, targetExponent_totalExponent]
  rfl

theorem le_add_excess (m : Nat) (e : Int) : -1074 ≤ e + excess m e := by
  rw [excess, gridExponent]
  omega

theorem excess_of_lt {m : Nat} {e : Int} (hm : m < 2 * normalRank) (he : -1074 ≤ e) : excess m e = 0 := by
  have hlog : m.log2 ≤ 52 := by
    rcases Nat.eq_zero_or_pos m with rfl | hpos
    · decide
    · exact Nat.lt_succ_iff.1 ((Nat.log2_lt hpos.ne').2 hm)
  rw [excess, gridExponent]
  omega

theorem div_excess_lt (m : Nat) (e : Int) : m / 2 ^ excess m e < 2 * normalRank := by
  have hlog : m.log2 + 1 ≤ 53 + excess m e := by
    rw [excess, gridExponent]
    omega
  have hle : 2 ^ (m.log2 + 1) ≤ 2 ^ (53 + excess m e) := Nat.pow_le_pow_right (by decide) hlog
  rw [Nat.pow_add 2 53] at hle
  exact (Nat.div_lt_iff_lt_mul (Nat.two_pow_pos _)).2 (lt_of_lt_of_le Nat.lt_log2_self hle)

theorem div_excess_pos {m : Nat} {e : Int} (hm : 0 < m) (he : -1074 ≤ e) : 0 < m / 2 ^ excess m e := by
  have hlog : excess m e ≤ m.log2 := by
    rw [excess, gridExponent]
    omega
  have hle : 2 ^ excess m e ≤ 2 ^ m.log2 := Nat.pow_le_pow_right (by decide) hlog
  exact Nat.div_pos (hle.trans (Nat.log2_self_le hm.ne')) (Nat.two_pow_pos _)

theorem gridSteps_le_two_mul (m : Nat) (e : Int) : gridSteps m e ≤ 2 * normalRank := by
  have h := div_excess_lt m e
  rcases roundHalfEven_eq_or m (2 ^ excess m e) with hr | hr <;> rw [gridSteps] <;> omega

/-- Where nothing is behind the grid but places of `m`, the steps make a mantissa of full length, or the
grid is the finest one. -/
theorem gridSteps_canonical {m : Nat} {e : Int} (hm : 0 < m) (he : e ≤ gridExponent m e) :
    normalRank ≤ gridSteps m e ∨ e + excess m e = -1074 := by
  by_cases hgrid : gridExponent m e = -1074
  · right
    rw [excess]
    omega
  · left
    have hlog : 52 + excess m e = m.log2 := by
      rw [excess, gridExponent] at *
      omega
    refine le_trans ((Nat.le_div_iff_mul_le (Nat.two_pow_pos _)).2 ?_) (le_roundHalfEven _ _)
    calc normalRank * 2 ^ excess m e = 2 ^ m.log2 := by rw [← hlog, Nat.pow_add]; rfl
      _ ≤ m := Nat.log2_self_le hm.ne'

/-! ## Exact bounds -/

theorem mul_zpow_le_iff {m k : Nat} {e : Int} : (m : ℚ) * 2 ^ e ≤ 2 ^ (e + k) ↔ m ≤ 2 ^ k := by
  have hpos : (0 : ℚ) < 2 ^ e := zpow_pos (by norm_num) e
  rw [zpow_add₀ two_ne_zero, mul_comm, mul_le_mul_iff_right₀ hpos, zpow_natCast]
  exact_mod_cast Iff.rfl

theorem log2_add_le {m : Nat} {e n : Int} (hm : 0 < m) (h : (m : ℚ) * 2 ^ e ≤ 2 ^ n) :
    m.log2 + e ≤ n := by
  have hlog : (2 : ℚ) ^ m.log2 ≤ m := by exact_mod_cast Nat.log2_self_le hm.ne'
  have hpos : (0 : ℚ) ≤ 2 ^ e := (zpow_pos (by norm_num) e).le
  have hle := (mul_le_mul_of_nonneg_right hlog hpos).trans h
  rw [← zpow_natCast, ← zpow_add₀ two_ne_zero] at hle
  exact (zpow_le_zpow_iff_right₀ one_lt_two).1 hle

theorem lt_log2_add {m : Nat} {e n : Int} (h : (2 : ℚ) ^ n ≤ m * 2 ^ e) : n < m.log2 + 1 + e := by
  have hlog : (m : ℚ) < 2 ^ (m.log2 + 1) := by exact_mod_cast Nat.lt_log2_self
  have hlt := h.trans_lt (mul_lt_mul_of_pos_right hlog (zpow_pos (by norm_num) e))
  rw [← zpow_natCast, ← zpow_add₀ two_ne_zero] at hlt
  exact_mod_cast (zpow_lt_zpow_iff_right₀ one_lt_two).1 hlt

/-- Up to half the least positive value, and no further, everything is rounded to zero. -/
theorem gridSteps_eq_zero_iff {m : Nat} {e : Int} (hm : 0 < m) :
    gridSteps m e = 0 ↔ (m : ℚ) * 2 ^ e ≤ 2 ^ (-1075 : Int) := by
  rw [gridSteps, roundHalfEven_eq_zero_iff (Nat.two_pow_pos _)]
  constructor
  · intro h
    have hlog : m.log2 < excess m e := by
      have hlt : 2 ^ m.log2 < 2 ^ excess m e := by
        have := Nat.log2_self_le hm.ne'
        omega
      exact (Nat.pow_lt_pow_iff_right (by decide)).1 hlt
    obtain ⟨k, hk⟩ : ∃ k, excess m e = k + 1 := ⟨excess m e - 1, by omega⟩
    have he : (-1075 : Int) = e + k := by
      rw [excess, gridExponent] at hk hlog
      omega
    rw [he, mul_zpow_le_iff]
    rw [hk, Nat.pow_succ] at h
    omega
  · intro h
    have hlog := log2_add_le hm h
    obtain ⟨k, hk⟩ : ∃ k : Nat, (-1075 : Int) = e + k := ⟨(-1075 - e).toNat, by omega⟩
    have hexcess : excess m e = k + 1 := by
      rw [excess, gridExponent]
      omega
    rw [hk, mul_zpow_le_iff] at h
    rw [hexcess, Nat.pow_succ]
    omega

theorem gridSteps_pos {m : Nat} {e : Int} (hm : 0 < m) (h : (2 : ℚ) ^ (-1074 : Int) ≤ m * 2 ^ e) :
    0 < gridSteps m e := by
  refine Nat.pos_of_ne_zero fun hzero => ?_
  have hle := h.trans ((gridSteps_eq_zero_iff hm).1 hzero)
  exact absurd ((zpow_le_zpow_iff_right₀ one_lt_two).1 hle) (by decide)

/-- Rounding does not leave what a power of two bounds. -/
theorem gridSteps_le {m : Nat} {e n : Int} (hn : -1074 ≤ n) (h : (m : ℚ) * 2 ^ e ≤ 2 ^ n) :
    (gridSteps m e : ℚ) * 2 ^ (e + excess m e) ≤ 2 ^ n := by
  rcases Nat.eq_zero_or_pos m with rfl | hm
  · rw [gridSteps, (roundHalfEven_eq_zero_iff (Nat.two_pow_pos _)).2 (Nat.zero_le _), Nat.cast_zero, zero_mul]
    exact (zpow_pos (by norm_num) n).le
  have hlog := log2_add_le hm h
  by_cases hexact : excess m e = 0
  · have hround := roundHalfEven_mul m Nat.one_pos
    rw [Nat.mul_one] at hround
    rwa [gridSteps, hexact, Nat.pow_zero, hround, Nat.cast_zero, add_zero]
  · obtain ⟨k, hk⟩ : ∃ k : Nat, n = e + excess m e + k := by
      refine ⟨(n - (e + excess m e)).toNat, ?_⟩
      rw [excess, gridExponent] at *
      omega
    rw [hk, mul_zpow_le_iff]
    refine roundHalfEven_le (Nat.two_pow_pos _) ?_
    rw [hk, add_assoc, ← Nat.cast_add, mul_zpow_le_iff] at h
    rwa [← Nat.pow_add, Nat.add_comm k]

/-! ## Rounding -/

/-- Steps of a grid as a value. Only one number of steps is too long for a mantissa, and it becomes half as
many steps of the next grid. -/
def carried (s : Sign) (steps : Nat) (e : Int) : UnpackedFloat :=
  if h : steps = 0 then .zero s
  else if steps < 2 * normalRank then .finite s steps e (Nat.pos_of_ne_zero h)
  else .finite s normalRank (e + 1) (by decide)

/-- The exact value `m * 2 ^ e`, rounded. -/
def rounded (s : Sign) (m : Nat) (e : Int) : UnpackedFloat := carried s (gridSteps m e) (e + excess m e)

theorem roundWithAccuracy_eq (s : Sign) (m : Nat) (e : Int) (a : Accuracy) :
    roundWithAccuracy Format.binary64 s m e a =
      carried s (ExtendedMantissa.ofMantissaAndAccuracy m a >>> excess m e).roundedMantissa
        (e + excess m e) := by
  have hl := le_add_excess m e
  have hle : (ExtendedMantissa.ofMantissaAndAccuracy m a >>> excess m e).roundedMantissa ≤
      2 * normalRank := by
    have h := roundedMantissa_le (ExtendedMantissa.ofMantissaAndAccuracy m a >>> excess m e)
    rw [mantissa_shiftRight, mantissa_ofMantissaAndAccuracy] at h
    exact h.trans (div_excess_lt m e)
  rw [roundWithAccuracy, shiftToTargetExponent_eq]
  simp only
  generalize (ExtendedMantissa.ofMantissaAndAccuracy m a >>> excess m e).roundedMantissa = r at *
  generalize e + (excess m e : Int) = e' at *
  rw [shiftToTargetExponent_eq, carried]
  simp only [mantissa_shiftRight, mantissa_ofMantissaAndAccuracy]
  rcases Nat.lt_or_eq_of_le hle with hlt | rfl
  · simp only [excess_of_lt hlt hl, if_pos hlt, Nat.pow_zero, Nat.div_one, Nat.cast_zero, add_zero]
  · have hlog : (2 * normalRank).log2 = 53 := by decide
    have hone : excess (2 * normalRank) e' = 1 := by
      rw [excess, gridExponent, hlog]
      omega
    rw [hone]
    rfl

theorem roundWithAccuracy_exact (s : Sign) (m : Nat) (e : Int) :
    roundWithAccuracy Format.binary64 s m e .exact = rounded s m e := by
  rw [roundWithAccuracy_eq, ExtendedMantissa.ofMantissaAndAccuracy, roundedMantissa_shiftRight]
  rfl

theorem log2_shiftLeft {m : Nat} (hm : 0 < m) (k : Nat) : (m <<< k).log2 = m.log2 + k := by
  have hpos := Nat.two_pow_pos k
  rw [Nat.shiftLeft_eq, Nat.log2_eq_iff (Nat.mul_pos hm hpos).ne', Nat.add_right_comm, Nat.pow_add,
    Nat.pow_add]
  exact ⟨Nat.mul_le_mul_right _ (Nat.log2_self_le hm.ne'),
    Nat.mul_lt_mul_of_pos_right Nat.lt_log2_self hpos⟩

theorem shiftLeft_zpow (m k : Nat) (e : Int) : ((m <<< k : Nat) : ℚ) * 2 ^ (e - k) = m * 2 ^ e := by
  have hk : (2 : ℚ) ^ k ≠ 0 := pow_ne_zero k two_ne_zero
  rw [Nat.shiftLeft_eq, zpow_sub₀ two_ne_zero, zpow_natCast, Nat.cast_mul, Nat.cast_pow, Nat.cast_ofNat]
  field_simp

/-- A value on a grid that is too coarse for it is put on a finer one first. -/
theorem round_eq (s : Sign) {m : Nat} (hm : 0 < m) (e : Int) :
    ∃ (m' : Nat) (e' : Int), 0 < m' ∧ (m' : ℚ) * 2 ^ e' = m * 2 ^ e ∧ e' ≤ gridExponent m' e' ∧
      UnpackedFloat.round Format.binary64 s m e = rounded s m' e' := by
  refine ⟨m <<< (e - gridExponent m e).toNat, e - (e - gridExponent m e).toNat, ?_, shiftLeft_zpow ..,
    ?_, ?_⟩
  · rw [Nat.shiftLeft_eq]
    exact Nat.mul_pos hm (Nat.two_pow_pos _)
  · rw [gridExponent, gridExponent, log2_shiftLeft hm]
    omega
  · rw [UnpackedFloat.round, targetExponent_totalExponent, decreaseExponent]
    exact roundWithAccuracy_exact ..

/-! ## What rounding leaves -/

section
variable {s : Sign} {r : Nat} {e : Int}

theorem repacked_carried_cases (s : Sign) (hr : 0 < r) (hl : -1074 ≤ e) :
    (e ≤ 971 ∧ ∃ m e' h, repacked (carried s r e) = .finite s m e' h) ∨
      (971 ≤ e ∧ repacked (carried s r e) = .infinity s) := by
  rw [carried, dif_neg hr.ne']
  split
  · rename_i hlt
    rcases repacked_finite_cases s hr hlt hl with ⟨he, e', hfinite⟩ | ⟨he, hinfinite⟩
    · exact .inl ⟨he, r, e', hr, hfinite⟩
    · exact .inr ⟨he.le, hinfinite⟩
  · have hrank : 0 < normalRank := by decide
    rcases repacked_finite_cases s hrank (by decide) (hl.trans (le_add_of_nonneg_right zero_le_one)) with
      ⟨he, e', hfinite⟩ | ⟨he, hinfinite⟩
    · exact .inl ⟨by omega, normalRank, e', hrank, hfinite⟩
    · exact .inr ⟨by omega, hinfinite⟩

theorem repacked_carried_of_gt (s : Sign) (hr : 0 < r) (he : 971 < e) :
    repacked (carried s r e) = .infinity s := by
  rcases repacked_carried_cases s hr (by omega : -1074 ≤ e) with ⟨hle, -⟩ | ⟨-, hinfinite⟩
  · exact absurd he (not_lt.2 hle)
  · exact hinfinite

/-- Steps that a power of two bounds are a finite value, whose magnitude is theirs. -/
theorem magnitudeOf_of_carried {x : Float} {n : Int} (hx : unpacked x = repacked (carried s r e))
    (hr : r ≤ 2 * normalRank) (hl : -1074 ≤ e) (hcanonical : normalRank ≤ r ∨ e = -1074) (hn : n ≤ 1023)
    (h : (r : ℚ) * 2 ^ e ≤ 2 ^ n) : x.isFinite = true ∧ magnitudeOf x = r * 2 ^ e := by
  rcases Nat.eq_zero_or_pos r with rfl | hpos
  · rw [carried, dif_pos rfl, repacked_zero] at hx
    rw [isFinite_eq, magnitudeOf_of_zero hx, hx, Nat.cast_zero, zero_mul]
    exact ⟨rfl, rfl⟩
  have hlog := log2_add_le hpos h
  rw [carried, dif_neg hpos.ne'] at hx
  rcases Nat.lt_or_eq_of_le hr with hlt | rfl
  · rw [if_pos hlt] at hx
    have hunpacked : unpacked x = .finite s r e hpos := by
      by_cases hge : normalRank ≤ r
      · have hlog' : r.log2 = 52 := (Nat.log2_eq_iff hpos.ne').2 ⟨hge, hlt⟩
        rw [hx, repacked_normal hpos hge hlt hl (by omega)]
      · obtain rfl := hcanonical.resolve_left hge
        rw [hx, repacked_subnormal hpos (not_le.1 hge) (by decide)]
    rw [isFinite_eq, magnitudeOf_of_finite hunpacked, hunpacked]
    exact ⟨rfl, rfl⟩
  · have hlog' : (2 * normalRank).log2 = 53 := by decide
    rw [if_neg (lt_irrefl _), repacked_normal (by decide) le_rfl (by decide) (by omega) (by omega)] at hx
    rw [isFinite_eq, magnitudeOf_of_finite hx, hx, zpow_add₀ two_ne_zero, zpow_one, Nat.cast_mul,
      Nat.cast_ofNat]
    exact ⟨rfl, by ring⟩

end

/-- A rounded value that a power of two bounds is finite, and bounded by it still. -/
theorem magnitudeOf_of_rounded {x : Float} {s : Sign} {m : Nat} {e n : Int}
    (hx : unpacked x = repacked (rounded s m e)) (hm : 0 < m) (he : e ≤ gridExponent m e)
    (hl : -1074 ≤ n) (hn : n ≤ 1023) (h : (m : ℚ) * 2 ^ e ≤ 2 ^ n) :
    x.isFinite = true ∧ magnitudeOf x ≤ 2 ^ n := by
  have hle := gridSteps_le hl h
  obtain ⟨hfinite, hmagnitude⟩ := magnitudeOf_of_carried hx (gridSteps_le_two_mul m e)
    (le_add_excess m e) (gridSteps_canonical hm he) hn hle
  exact ⟨hfinite, hmagnitude.trans_le hle⟩

end SceneScript.Number
