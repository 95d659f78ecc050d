/-
Sums of squares in binary64, and their roots. A square is zero up to a bound and infinite from another one on
(`isZero_mul_self_iff`, `not_isFinite_mul_self`); a sum of squares is zero only where all of them are, and
finite only where all of them are (`add_spec`); and a root is zero, finite or neither as what it is taken of
(`sqrt_spec`).
-/
import SceneScript.Proofs.Rounding
namespace SceneScript.Number

open Float.Model Float.Model.UnpackedFloat

theorem unpacked_mul (x y : Float) :
    unpacked (x * y) = repacked (UnpackedFloat.mul Format.binary64 (unpacked x) (unpacked y)) := rfl

theorem unpacked_add (x y : Float) :
    unpacked (x + y) = repacked (UnpackedFloat.add Format.binary64 (unpacked x) (unpacked y)) := rfl

theorem unpacked_sqrt (x : Float) :
    unpacked x.sqrt = repacked (UnpackedFloat.sqrt Format.binary64 (unpacked x)) := rfl

/-! ## Values without a sign -/

/-- What squares are, sums of squares and the roots of those. -/
inductive Unsigned : UnpackedFloat → Prop
  | notANumber : Unsigned .notANumber
  | infinity : Unsigned (.infinity .positive)
  | zero : Unsigned (.zero .positive)
  | finite (m : Nat) (e : Int) (h : 0 < m) : Unsigned (.finite .positive m e h)

theorem unsigned_repacked_carried {e : Int} (r : Nat) (hl : -1074 ≤ e) :
    Unsigned (repacked (carried .positive r e)) ∧
      (isZero (repacked (carried .positive r e)) = true ↔ r = 0) := by
  rcases Nat.eq_zero_or_pos r with rfl | hr
  · rw [carried, dif_pos rfl, repacked_zero]
    exact ⟨.zero, iff_of_true rfl rfl⟩
  rcases repacked_carried_cases .positive hr hl with ⟨-, m, e', h, hfinite⟩ | ⟨-, hinfinite⟩
  · rw [hfinite]
    exact ⟨.finite m e' h, iff_of_false Bool.false_ne_true hr.ne'⟩
  · rw [hinfinite]
    exact ⟨.infinity, iff_of_false Bool.false_ne_true hr.ne'⟩

theorem unsigned_repacked_rounded (m : Nat) (e : Int) :
    Unsigned (repacked (rounded .positive m e)) ∧
      (isZero (repacked (rounded .positive m e)) = true ↔ gridSteps m e = 0) :=
  unsigned_repacked_carried (gridSteps m e) (le_add_excess m e)

/-! ## Squares -/

theorem mul_self_eq (u : UnpackedFloat) :
    UnpackedFloat.mul Format.binary64 u u =
      match u with
      | .notANumber => .notANumber
      | .infinity _ => .infinity .positive
      | .zero _ => .zero .positive
      | .finite _ m e _ => rounded .positive (m * m) (e + e) := by
  have hsign (s : Sign) : s * s = .positive := by cases s <;> rfl
  cases u <;> simp only [UnpackedFloat.mul, hsign, roundWithAccuracy_exact]

theorem mul_self_zpow (m : Nat) (e : Int) : ((m * m : Nat) : ℚ) * 2 ^ (e + e) = ((m : ℚ) * 2 ^ e) ^ 2 := by
  rw [zpow_add₀ two_ne_zero, Nat.cast_mul]
  ring

section
variable {x : Float}

theorem unsigned_mul_self (x : Float) : Unsigned (unpacked (x * x)) := by
  rw [unpacked_mul, mul_self_eq]
  cases unpacked x with
  | notANumber => exact .notANumber
  | infinity s => simpa only [repacked_infinity] using .infinity
  | zero s => simpa only [repacked_zero] using .zero
  | finite s m e h => exact (unsigned_repacked_rounded (m * m) (e + e)).1

theorem isFinite_of_mul_self (h : (x * x).isFinite = true) : x.isFinite = true := by
  rw [isFinite_eq, unpacked_mul, mul_self_eq] at h
  rw [isFinite_eq]
  cases hu : unpacked x with
  | notANumber =>
    rw [hu] at h
    exact h
  | infinity s =>
    simp only [hu, repacked_infinity] at h
    exact h
  | zero s | finite s m e hm => rfl

/-- A square is rounded to zero up to half the least positive value. -/
theorem isZero_mul_self_iff (h : x.isFinite = true) :
    isZero (unpacked (x * x)) = true ↔ magnitudeOf x ^ 2 ≤ 2 ^ (-1075 : Int) := by
  rw [unpacked_mul, mul_self_eq]
  rcases unpacked_of_isFinite h with ⟨s, hu⟩ | ⟨s, m, e, hm, hu⟩
  · simp only [hu, repacked_zero, magnitudeOf_of_zero hu]
    exact iff_of_true rfl (by positivity)
  · simp only [hu, (unsigned_repacked_rounded (m * m) (e + e)).2, gridSteps_eq_zero_iff (Nat.mul_pos hm hm),
      mul_self_zpow, magnitudeOf_of_finite hu]

theorem magnitudeOf_mul_self_le {n : Int} (hfinite : x.isFinite = true) (hl : -537 ≤ n) (hn : n ≤ 511)
    (h : magnitudeOf x ≤ 2 ^ n) :
    (x * x).isFinite = true ∧ magnitudeOf (x * x) ≤ 2 ^ (n + n) := by
  have hsquare := unpacked_mul x x
  rw [mul_self_eq] at hsquare
  rcases unpacked_of_isFinite hfinite with ⟨s, hu⟩ | ⟨s, m, e, hm, hu⟩
  · simp only [hu, repacked_zero] at hsquare
    rw [isFinite_eq, magnitudeOf_of_zero hsquare, hsquare]
    exact ⟨rfl, by positivity⟩
  · rw [hu] at hsquare
    rw [magnitudeOf_of_finite hu] at h
    have hgrid : e + e ≤ gridExponent (m * m) (e + e) := by
      rw [gridExponent]
      rcases canonical_of_finite hu with hge | rfl
      · have hlog : 52 ≤ (m * m).log2 :=
          (Nat.le_log2 (Nat.mul_pos hm hm).ne').2 (hge.trans (Nat.le_mul_of_pos_left m hm))
        omega
      · omega
    refine magnitudeOf_of_rounded hsquare (Nat.mul_pos hm hm) hgrid (by omega) (by omega) ?_
    rw [mul_self_zpow, zpow_add₀ two_ne_zero, ← sq]
    exact pow_le_pow_left₀ (by positivity) h 2

theorem not_isFinite_mul_self (h : 2 ^ (512 : Int) ≤ magnitudeOf x) : (x * x).isFinite = false := by
  refine Bool.eq_false_iff.2 fun hsquare => ?_
  have hfinite := isFinite_of_mul_self hsquare
  rw [isFinite_eq, unpacked_mul, mul_self_eq] at hsquare
  rcases unpacked_of_isFinite hfinite with ⟨s, hu⟩ | ⟨s, m, e, hm, hu⟩
  · rw [magnitudeOf_of_zero hu] at h
    exact absurd h (not_le.2 (by positivity))
  · rw [magnitudeOf_of_finite hu] at h
    have hlog := lt_log2_add h
    have hsq : 2 * m.log2 ≤ (m * m).log2 := by
      rw [Nat.le_log2 (Nat.mul_pos hm hm).ne', Nat.two_mul, Nat.pow_add]
      exact Nat.mul_le_mul (Nat.log2_self_le hm.ne') (Nat.log2_self_le hm.ne')
    have hexponent : 971 < e + e + excess (m * m) (e + e) := by
      rw [excess, gridExponent]
      omega
    have hpos : 0 < gridSteps (m * m) (e + e) := by
      refine gridSteps_pos (Nat.mul_pos hm hm) ?_
      rw [mul_self_zpow]
      calc (2 : ℚ) ^ (-1074 : Int) ≤ 1 := zpow_le_one_of_nonpos₀ one_le_two (by decide)
        _ ≤ (2 ^ (512 : Int)) ^ 2 := one_le_pow₀ (one_le_zpow₀ one_le_two (by decide))
        _ ≤ ((m : ℚ) * 2 ^ e) ^ 2 := pow_le_pow_left₀ (by positivity) h 2
    simp only [hu, rounded, repacked_carried_of_gt _ hpos hexponent] at hsquare
    cases hsquare

end

/-! ## Sums -/

/-- The sum of two positive values is their exact sum, rounded. -/
theorem add_finite {m m' : Nat} (hm : 0 < m) (hm' : 0 < m') (e e' : Int) :
    ∃ (n : Nat) (k : Int), 0 < n ∧ (n : ℚ) * 2 ^ k = m * 2 ^ e + m' * 2 ^ e' ∧ k ≤ gridExponent n k ∧
      UnpackedFloat.add Format.binary64 (.finite .positive m e hm) (.finite .positive m' e' hm') =
        rounded .positive n k := by
  have hpos : 0 < m <<< (e - min e e').toNat + m' <<< (e' - min e e').toNat := by
    rw [Nat.shiftLeft_eq]
    exact Nat.add_pos_left (Nat.mul_pos hm (Nat.two_pow_pos _)) _
  obtain ⟨n, k, hn, hvalue, hgrid, hround⟩ := round_eq .positive hpos (min e e')
  refine ⟨n, k, hn, ?_, hgrid, ?_⟩
  · have hleft := shiftLeft_zpow m (e - min e e').toNat e
    have hright := shiftLeft_zpow m' (e' - min e e').toNat e'
    rw [show e - ((e - min e e').toNat : Int) = min e e' by omega] at hleft
    rw [show e' - ((e' - min e e').toNat : Int) = min e e' by omega] at hright
    rw [hvalue, ← hleft, ← hright, Nat.cast_add, add_mul]
  · rw [UnpackedFloat.add, ← hround]
    simp only [decreaseExponent, Sign.apply, ← Nat.cast_add]
    rw [UnpackedFloat.normalize, Int.compare_eq_gt.2 (by exact_mod_cast hpos)]
    rfl

theorem zero_add_of_unsigned {u : UnpackedFloat} (h : Unsigned u) :
    UnpackedFloat.add Format.binary64 (.zero .positive) u = u := by
  cases h <;> rfl

theorem add_zero_of_unsigned {u : UnpackedFloat} (h : Unsigned u) :
    UnpackedFloat.add Format.binary64 u (.zero .positive) = u := by
  cases h <;> rfl

section
variable {x y : Float}

theorem add_spec (hx : Unsigned (unpacked x)) (hy : Unsigned (unpacked y)) :
    Unsigned (unpacked (x + y)) ∧
      (isZero (unpacked (x + y)) = true ↔ isZero (unpacked x) = true ∧ isZero (unpacked y) = true) ∧
      ((x + y).isFinite = true → x.isFinite = true ∧ y.isFinite = true) := by
  have hpacked := repacked_unpacked x
  have hpacked' := repacked_unpacked y
  simp only [isFinite_eq, unpacked_add]
  generalize hu : unpacked x = u at *
  generalize hv : unpacked y = v at *
  cases hx <;> cases hy
  case finite.finite m e hm m' e' hm' =>
    obtain ⟨n, k, hn, hvalue, -, hadd⟩ := add_finite hm hm' e e'
    obtain ⟨hunsigned, hzero⟩ := unsigned_repacked_rounded n k
    have hpos : 0 < gridSteps n k := by
      -- the sum is no less than a summand, and that no less than the least positive value
      have hm1 : (1 : ℚ) ≤ m := by exact_mod_cast hm
      refine gridSteps_pos hn ?_
      calc (2 : ℚ) ^ (-1074 : Int) ≤ 2 ^ e :=
            zpow_le_zpow_right₀ one_le_two (exponent_bounds_of_finite hu).1
        _ ≤ m * 2 ^ e := le_mul_of_one_le_left (by positivity) hm1
        _ ≤ m * 2 ^ e + m' * 2 ^ e' := le_add_of_nonneg_right (by positivity)
        _ = n * 2 ^ k := hvalue.symm
    rw [hadd, hzero]
    exact ⟨hunsigned, iff_of_false hpos.ne' nofun, fun _ => ⟨rfl, rfl⟩⟩
  all_goals simp [UnpackedFloat.add, isZero, UnpackedFloat.isFinite, hpacked, hpacked']
  all_goals constructor

theorem magnitudeOf_add_le {n : Int} (hx : Unsigned (unpacked x)) (hy : Unsigned (unpacked y))
    (hfx : x.isFinite = true) (hfy : y.isFinite = true) (hl : -1075 ≤ n) (hn : n ≤ 1022)
    (hmx : magnitudeOf x ≤ 2 ^ n) (hmy : magnitudeOf y ≤ 2 ^ n) :
    (x + y).isFinite = true ∧ magnitudeOf (x + y) ≤ 2 ^ (n + 1) := by
  have hsum := unpacked_add x y
  have hdouble : (2 : ℚ) ^ n + 2 ^ n = 2 ^ (n + 1) := by
    rw [zpow_add₀ two_ne_zero]
    ring
  have hmono : (2 : ℚ) ^ n ≤ 2 ^ (n + 1) := zpow_le_zpow_right₀ one_le_two (by omega)
  rcases unpacked_of_isFinite hfx with ⟨s, hu⟩ | ⟨s, m, e, hm, hu⟩
  · rw [hu] at hx
    cases hx
    rw [hu, zero_add_of_unsigned hy, repacked_unpacked] at hsum
    obtain ⟨hfinite, hmagnitude⟩ := magnitudeOf_congr hsum hfy
    exact ⟨hfinite, (hmagnitude.trans_le hmy).trans hmono⟩
  rcases unpacked_of_isFinite hfy with ⟨s', hv⟩ | ⟨s', m', e', hm', hv⟩
  · rw [hv] at hy
    cases hy
    rw [hv, add_zero_of_unsigned hx, repacked_unpacked] at hsum
    obtain ⟨hfinite, hmagnitude⟩ := magnitudeOf_congr hsum hfx
    exact ⟨hfinite, (hmagnitude.trans_le hmx).trans hmono⟩
  · rw [hu] at hx
    rw [hv] at hy
    cases hx
    cases hy
    obtain ⟨k, i, hk, hvalue, hgrid, hadd⟩ := add_finite hm hm' e e'
    rw [hu, hv, hadd] at hsum
    rw [magnitudeOf_of_finite hu] at hmx
    rw [magnitudeOf_of_finite hv] at hmy
    exact magnitudeOf_of_rounded hsum hk hgrid (by omega) (by omega) (by linarith)

end

/-! ## Roots -/

/-- The integer part of a root has half the length. -/
theorem two_mul_log2_sqrt_le {n k : Nat} (hn : n < 2 ^ (k + 1)) (hroot : 0 < Nat.sqrt n) :
    2 * (Nat.sqrt n).log2 ≤ k := by
  refine Nat.lt_succ_iff.1 ((Nat.pow_lt_pow_iff_right Nat.one_lt_two).1 ?_)
  calc 2 ^ (2 * (Nat.sqrt n).log2)
      = 2 ^ (Nat.sqrt n).log2 * 2 ^ (Nat.sqrt n).log2 := by rw [Nat.two_mul, Nat.pow_add]
    _ ≤ Nat.sqrt n * Nat.sqrt n :=
      Nat.mul_le_mul (Nat.log2_self_le hroot.ne') (Nat.log2_self_le hroot.ne')
    _ ≤ n := Nat.sqrt_le n
    _ < 2 ^ (k + 1) := hn

/-- What is rounded to be the root: the integer part on a grid of twice the fineness. -/
theorem sqrtCore_eq {m : Nat} {e : Int} (hm : 0 < m) (hlt : m < 2 * normalRank) (he : -1074 ≤ e) :
    ∃ r t a, 0 < r ∧ -1074 ≤ t ∧ 2 * t ≤ e ∧ 2 * (r.log2 + t) ≤ 52 + e ∧
      sqrtCore Format.binary64 m e = (r, t, a) := by
  obtain ⟨t, ht⟩ : ∃ t, min (e.ediv 2)
      (Format.binary64.targetExponent ((totalExponent m e + 1).ediv 2)) = t := ⟨_, rfl⟩
  have hle : 2 * t ≤ e := by
    have hhalf : t ≤ e / 2 := ht ▸ min_le_left _ _
    omega
  have hl : -1074 ≤ t :=
    ht ▸ le_min (Int.le_ediv_of_mul_le (by decide) (by omega)) (le_max_right _ _)
  have hroot : 0 < Nat.sqrt (m <<< (e - 2 * t).toNat) := by
    rw [Nat.sqrt_pos, Nat.shiftLeft_eq]
    exact Nat.mul_pos hm (Nat.two_pow_pos _)
  have hlength : m <<< (e - 2 * t).toNat < 2 ^ (52 + (e - 2 * t).toNat + 1) := by
    rw [Nat.shiftLeft_eq, Nat.add_right_comm, Nat.pow_add]
    exact Nat.mul_lt_mul_of_pos_right hlt (Nat.two_pow_pos _)
  have hlog := two_mul_log2_sqrt_le hlength hroot
  obtain ⟨a, hcore⟩ :
      ∃ a, sqrtCore Format.binary64 m e = (Nat.sqrt (m <<< (e - 2 * t).toNat), t, a) := by
    rw [sqrtCore, ht]
    exact ⟨_, rfl⟩
  exact ⟨_, t, a, hroot, hl, hle, by omega, hcore⟩

/-- The root of a positive value is positive and far from infinite. -/
theorem sqrt_finite {m : Nat} {e : Int} (hm : 0 < m) (hlt : m < 2 * normalRank) (hl : -1074 ≤ e)
    (hu : e ≤ 971) :
    ∃ r e', 0 < r ∧ -1074 ≤ e' ∧ e' < 971 ∧
      UnpackedFloat.sqrt Format.binary64 (.finite .positive m e hm) = carried .positive r e' := by
  obtain ⟨r, t, a, hr, ht, hte, hlog, hcore⟩ := sqrtCore_eq hm hlt hl
  have hround := le_roundedMantissa (ExtendedMantissa.ofMantissaAndAccuracy r a >>> excess r t)
  rw [mantissa_shiftRight, mantissa_ofMantissaAndAccuracy] at hround
  refine ⟨_, t + excess r t, (div_excess_pos hr ht).trans_le hround, le_add_excess r t, ?_, ?_⟩
  · rw [excess, gridExponent]
    omega
  · rw [UnpackedFloat.sqrt, hcore]
    exact roundWithAccuracy_eq ..

theorem sqrt_spec {x : Float} (hx : Unsigned (unpacked x)) :
    isZero (unpacked x.sqrt) = isZero (unpacked x) ∧ x.sqrt.isFinite = x.isFinite := by
  simp only [isFinite_eq, unpacked_sqrt]
  generalize hu : unpacked x = u at *
  cases hx with
  | notANumber => exact ⟨rfl, rfl⟩
  | infinity =>
    rw [UnpackedFloat.sqrt, repacked_infinity]
    exact ⟨rfl, rfl⟩
  | zero =>
    rw [UnpackedFloat.sqrt, repacked_zero]
    exact ⟨rfl, rfl⟩
  | finite m e hm =>
    obtain ⟨hl, hle⟩ := exponent_bounds_of_finite hu
    obtain ⟨r, e', hr, hl', hlt, hsqrt⟩ := sqrt_finite hm (mantissa_lt_of_finite hu) hl hle
    rcases repacked_carried_cases .positive hr hl' with ⟨-, m', e'', h', hfinite⟩ | ⟨hge, -⟩
    · rw [hsqrt, hfinite]
      exact ⟨rfl, rfl⟩
    · exact absurd hlt (not_lt.2 hge)

end SceneScript.Number
