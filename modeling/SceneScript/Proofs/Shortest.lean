/-
The digits that are written for a magnitude. They are rounded to it (`shortest_roundsTo`), so they identify it
among all magnitudes, whether they were found among the short ones or are all the digits that it has. Their first
place tells on which side of a power of ten the magnitude lies (`value_bounds`, `le_value_shortest_iff`).
-/
import SceneScript.Proofs.Nearest
namespace SceneScript.Number

namespace Decimal

theorem isDigital_ofInteger (n : Nat) (e : Int) : (ofInteger n e).IsDigital :=
  fun _ hc => Nat.isDigit_of_mem_toDigits (by decide) (by decide) hc

@[simp] theorem value_ofInteger (n : Nat) (e : Int) : (ofInteger n e).value = n * 10 ^ e := by
  rw [value, integer_ofInteger, ofInteger]

theorem exact_eq (rank : Nat) : ∃ n e, exact rank = ofInteger n e ∧ (n * 10 ^ e : ℚ) = magnitudeAt rank := by
  rw [exact, magnitudeAt]
  split
  · rename_i he
    refine ⟨_, _, rfl, ?_⟩
    rw [Nat.shiftLeft_eq, zpow_zero, mul_one]
    push_cast
    rw [← zpow_natCast, Int.toNat_of_nonneg he]
  · rename_i he
    refine ⟨_, _, rfl, ?_⟩
    have hten : (10 : ℚ) ^ Number.exponent rank = 5 ^ Number.exponent rank * 2 ^ Number.exponent rank := by
      rw [← mul_zpow]
      norm_num
    have hfive : ((5 : ℚ) ^ (-Number.exponent rank).toNat) * 5 ^ Number.exponent rank = 1 := by
      rw [← zpow_natCast, Int.toNat_of_nonneg (by omega), ← zpow_add₀ (by norm_num), Int.add_left_neg, zpow_zero]
    rw [Nat.pow_eq]
    push_cast
    rw [hten, mul_assoc, ← mul_assoc (5 ^ _ : ℚ), hfive, one_mul]

theorem rank_exact {rank : Nat} (h : rank ≤ infinityRank) : (exact rank).rank = rank := by
  obtain ⟨n, e, heq, hvalue⟩ := exact_eq rank
  have hrounds := rank_roundsTo (isDigital_ofInteger n e)
  rw [value_ofInteger, hvalue, ← heq] at hrounds
  exact hrounds.unique (roundsTo_magnitudeAt h)

theorem candidate_eq {rank count : Nat} {d : Decimal} (h : candidate rank count = some d) :
    ∃ n e, d = ofInteger n e := by
  simp only [candidate] at h
  split at h
  · split at h <;> cases h <;> exact ⟨_, _, rfl⟩
  · split at h <;> cases h
    exact ⟨_, _, rfl⟩

/-- The zeros at the end of the digits are counted in the exponent. -/
theorem normalize_eq (d : Decimal) :
    ∃ zeros, d.digits = d.normalize.digits ++ List.replicate zeros '0' ∧
      d.normalize.exponent = d.exponent + zeros := by
  have hsplit : d.digits = d.normalize.digits ++ d.digits.rtakeWhile (· = '0') :=
    List.rdropWhile_append_rtakeWhile.symm
  have hzeros : d.digits.rtakeWhile (· = '0') = List.replicate (d.digits.rtakeWhile (· = '0')).length '0' :=
    List.eq_replicate_of_mem fun c hc => of_decide_eq_true (List.mem_rtakeWhile_imp (p := fun c => c = '0') hc)
  refine ⟨(d.digits.rtakeWhile (· = '0')).length, hzeros ▸ hsplit, ?_⟩
  have hlength := congrArg List.length hsplit
  rw [List.length_append] at hlength
  change d.exponent + ((d.digits.length - d.normalize.digits.length : Nat) : Int) = _
  omega

theorem IsDigital.normalize {d : Decimal} (h : d.IsDigital) : d.normalize.IsDigital := by
  obtain ⟨zeros, hdigits, -⟩ := normalize_eq d
  rw [IsDigital, hdigits, List.forall_mem_append] at h
  exact h.1

/-- Zeros may be put behind the digits, each for a power of ten. -/
theorem value_padded (digits : List Char) (e : Int) (zeros : Nat) :
    (⟨digits ++ List.replicate zeros '0', e⟩ : Decimal).value = (⟨digits, e + zeros⟩ : Decimal).value := by
  rw [value, value, integer, integer, Nat.ofDigitChars_append, Nat.ofDigitChars_replicate_zero,
    zpow_add₀ (by norm_num), zpow_natCast]
  push_cast
  ring

/-- Zeros may be put in front of the digits. -/
theorem value_zeros_append (zeros : Nat) (digits : List Char) (e : Int) :
    (⟨List.replicate zeros '0' ++ digits, e⟩ : Decimal).value = (⟨digits, e⟩ : Decimal).value := by
  rw [value, value, integer, integer, Nat.ofDigitChars_append, Nat.ofDigitChars_replicate_zero, Nat.mul_zero]

theorem value_normalize (d : Decimal) : d.normalize.value = d.value := by
  obtain ⟨zeros, hdigits, hexponent⟩ := normalize_eq d
  have hpadded := value_padded d.normalize.digits d.exponent zeros
  rw [← hdigits, ← hexponent] at hpadded
  exact hpadded.symm

/-- The place of the point behind the first digit. -/
theorem point_normalize (d : Decimal) :
    (d.normalize.digits.length + d.normalize.exponent : Int) = d.digits.length + d.exponent := by
  obtain ⟨zeros, hdigits, hexponent⟩ := normalize_eq d
  have hlength := congrArg List.length hdigits
  rw [List.length_append, List.length_replicate] at hlength
  omega

theorem digits_ne_nil {d : Decimal} (h : d.value ≠ 0) : d.digits ≠ [] := by
  intro hnil
  rw [value, integer, hnil, Nat.ofDigitChars_nil, Nat.cast_zero, zero_mul] at h
  exact h rfl

/-- The digits of a finite magnitude: some that are read as it, without the zeros at their end. -/
theorem shortest_eq {rank : Nat} (hpos : 0 < rank) (h : rank ≤ infinityRank) :
    ∃ n e, shortest rank = (ofInteger n e).normalize ∧ (ofInteger n e).rank = rank := by
  rw [shortest, if_neg hpos.ne']
  cases hfound : (List.range' 1 17).findSome? (candidate rank) with
  | none =>
    obtain ⟨n, e, heq, -⟩ := exact_eq rank
    rw [Option.getD_none, heq]
    exact ⟨n, e, rfl, heq ▸ rank_exact h⟩
  | some d =>
    obtain ⟨count, -, hcount⟩ := List.exists_of_findSome?_eq_some hfound
    obtain ⟨n, e, rfl⟩ := candidate_eq hcount
    exact ⟨n, e, rfl, rank_of_candidate hcount⟩

theorem isDigital_shortest {rank : Nat} (h : rank ≤ infinityRank) : (shortest rank).IsDigital := by
  rcases Nat.eq_zero_or_pos rank with rfl | hpos
  · exact isDigital_ofInteger 0 0
  · obtain ⟨n, e, heq, -⟩ := shortest_eq hpos h
    rw [heq]
    exact (isDigital_ofInteger n e).normalize

/-- What is written for a magnitude is rounded to it. -/
theorem shortest_roundsTo {rank : Nat} (h : rank ≤ infinityRank) : RoundsTo (shortest rank).value rank := by
  rcases Nat.eq_zero_or_pos rank with rfl | hpos
  · exact rank_roundsTo (isDigital_shortest h)
  · obtain ⟨n, e, heq, hrank⟩ := shortest_eq hpos h
    have hrounds := rank_roundsTo (isDigital_ofInteger n e)
    rwa [hrank, ← value_normalize, ← heq] at hrounds

theorem digits_shortest_ne_nil {rank : Nat} (h : rank ≤ infinityRank) : (shortest rank).digits ≠ [] := by
  rcases Nat.eq_zero_or_pos rank with rfl | hpos
  · decide
  · refine digits_ne_nil fun hzero => hpos.ne' ?_
    have hrounds := shortest_roundsTo h
    rw [hzero, ← magnitudeAt_zero] at hrounds
    exact hrounds.unique (roundsTo_magnitudeAt (Nat.zero_le _))

/-- The place of the point bounds the number. -/
theorem value_bounds {rank : Nat} (hpos : 0 < rank) (h : rank ≤ infinityRank) (k : Int) :
    k ≤ (shortest rank).digits.length + (shortest rank).exponent - 1 ↔ (10 : ℚ) ^ k ≤ (shortest rank).value := by
  obtain ⟨n, e, heq, hrank⟩ := shortest_eq hpos h
  have hn : 0 < n := by
    refine Nat.pos_of_ne_zero fun hzero => hpos.ne' ?_
    rw [← hrank, Decimal.rank, integer_ofInteger, if_pos hzero]
  have hlower : 10 ^ ((Nat.toDigits 10 n).length - 1) ≤ n := by
    by_cases hone : (Nat.toDigits 10 n).length - 1 = 0
    · rw [hone]
      exact hn
    · rw [← not_lt, ← Nat.length_toDigits_le_iff (by decide) (Nat.pos_of_ne_zero hone)]
      omega
  have hupper : n < 10 ^ (Nat.toDigits 10 n).length :=
    (Nat.length_toDigits_le_iff (by decide) Nat.length_toDigits_pos).1 le_rfl
  have hlength : 0 < (Nat.toDigits 10 n).length := Nat.length_toDigits_pos
  have hten : (0 : ℚ) < 10 ^ e := by positivity
  rw [heq, point_normalize, value_normalize, value_ofInteger]
  change k ≤ (Nat.toDigits 10 n).length + e - 1 ↔ _
  constructor
  · intro hk
    calc (10 : ℚ) ^ k ≤ 10 ^ (((Nat.toDigits 10 n).length - 1 : Nat) + e : Int) :=
          zpow_le_zpow_right₀ (by norm_num) (by omega)
      _ = (10 ^ ((Nat.toDigits 10 n).length - 1) : Nat) * 10 ^ e := by
        rw [zpow_add₀ (by norm_num), zpow_natCast]
        push_cast
        rfl
      _ ≤ n * 10 ^ e := by gcongr
  · intro hk
    by_contra hlt
    have hle : (10 : ℚ) ^ ((Nat.toDigits 10 n).length + e : Int) ≤ 10 ^ k :=
      zpow_le_zpow_right₀ (by norm_num) (by omega)
    have hvalue : (n : ℚ) * 10 ^ e < 10 ^ ((Nat.toDigits 10 n).length + e : Int) := by
      rw [zpow_add₀ (by norm_num), zpow_natCast]
      gcongr
      exact_mod_cast hupper
    exact absurd (hk.trans_lt hvalue) (not_lt.2 hle)

/-- Digits do not pass a number that is written as itself: what is written for a magnitude lies on the same side
of it as the magnitude. -/
theorem le_value_shortest_iff {rank : Nat} {k : Int} (h : rank ≤ infinityRank) (below : Nat)
    (hfinite : below < infinityRank) (hbelow : magnitudeAt below < 10 ^ k) (hle : 10 ^ k ≤ magnitudeAt (below + 1))
    (hwritten : shortest (below + 1) = ⟨['1'], k⟩) :
    (10 : ℚ) ^ k ≤ (shortest rank).value ↔ (10 : ℚ) ^ k ≤ magnitudeAt rank := by
  have hvalue : (shortest (below + 1)).value = 10 ^ k := by
    rw [hwritten, value, show integer ⟨['1'], k⟩ = 1 from rfl, Nat.cast_one, one_mul]
  have hrounds := shortest_roundsTo h
  have hrounds' := shortest_roundsTo (show below + 1 ≤ infinityRank from hfinite)
  rw [hvalue] at hrounds'
  have hleast : (10 : ℚ) ^ k ≤ magnitudeAt rank ↔ below + 1 ≤ rank :=
    ⟨fun h => strictMono_magnitudeAt.lt_iff_lt.1 (hbelow.trans_le h),
      fun h => hle.trans (strictMono_magnitudeAt.monotone h)⟩
  rw [hleast]
  refine ⟨hrounds'.mono hrounds, fun hrank => ?_⟩
  by_contra hlt
  obtain rfl := le_antisymm (hrounds.mono hrounds' (not_le.1 hlt).le) hrank
  exact hlt hvalue.ge

end Decimal

end SceneScript.Number
