/-
Binary64 values taken apart into a sign, a mantissa and an exponent. What a rank says of a value is what its
bits unpack to (`unpacked_cases`), so every finite value has an exact magnitude, and what an operation
leaves is packed and unpacked without a change unless it is too large for the format
(`repacked_unpacked`, `repacked_of_gt`).
-/
import Mathlib
import SceneScript.Number.Rank
namespace SceneScript.Number

open Float.Model Float.Model.UnpackedFloat

/-! ## Bit patterns -/

section
variable {b : BitVec Format.binary64.numBits}

theorem unpack_normal (hpos : 0 < (unpackExponent b).toNat) (h : (unpackExponent b).toNat < 2047) :
    UnpackedFloat.unpack Format.binary64 b =
      .finite (Sign.ofBitVec (unpackSign b)) (normalRank + (unpackMantissa b).toNat)
        ((unpackExponent b).toNat - 1075) (Nat.add_pos_left (by decide) _) := by
  have hones : unpackExponent b ≠ -1#11 := fun heq => by
    rw [heq] at h
    exact absurd h (by decide)
  have hzero : unpackExponent b ≠ 0#11 := fun heq => by
    rw [heq] at hpos
    exact absurd hpos (by decide)
  have hmantissa : (1#1 ++ unpackMantissa b).toNat = normalRank + (unpackMantissa b).toNat := by
    rw [BitVec.toNat_append, ← Nat.shiftLeft_add_eq_or_of_lt (unpackMantissa b).isLt]
    rfl
  rw [UnpackedFloat.unpack]
  simp only [if_neg hones, if_neg hzero, hmantissa]
  rfl

theorem unpack_subnormal (he : (unpackExponent b).toNat = 0) (hpos : 0 < (unpackMantissa b).toNat) :
    UnpackedFloat.unpack Format.binary64 b =
      .finite (Sign.ofBitVec (unpackSign b)) (unpackMantissa b).toNat (-1074) hpos := by
  have hzero : unpackExponent b = 0#11 := BitVec.eq_of_toNat_eq he
  have hmantissa : unpackMantissa b ≠ 0#52 := fun heq => by
    rw [heq] at hpos
    exact absurd hpos (by decide)
  rw [UnpackedFloat.unpack]
  simp only [hzero, dif_neg hmantissa]
  rfl

theorem unpack_zero (he : (unpackExponent b).toNat = 0) (hm : (unpackMantissa b).toNat = 0) :
    UnpackedFloat.unpack Format.binary64 b = .zero (Sign.ofBitVec (unpackSign b)) := by
  have hzero : unpackExponent b = 0#11 := BitVec.eq_of_toNat_eq he
  have hmantissa : unpackMantissa b = 0#52 := BitVec.eq_of_toNat_eq hm
  rw [UnpackedFloat.unpack]
  simp only [hzero, dif_pos hmantissa]
  rfl

theorem isFinite_unpack_of_ones (he : (unpackExponent b).toNat = 2047) :
    (UnpackedFloat.unpack Format.binary64 b).isFinite = false := by
  have hones : unpackExponent b = -1#11 := BitVec.eq_of_toNat_eq he
  rw [UnpackedFloat.unpack]
  simp only [if_pos hones]
  split <;> rfl

end

theorem ofBitVec_unpackSign_packComponents (s : Sign) (exponent : BitVec 11) (mantissa : BitVec 52) :
    Sign.ofBitVec (unpackSign (packComponents Format.binary64 s exponent mantissa)) = s := by
  have hsign : unpackSign (packComponents Format.binary64 s exponent mantissa) = s.toBitVec := by
    change (s.toBitVec ++ exponent ++ mantissa).extractLsb' 63 1 = s.toBitVec
    rw [BitVec.extractLsb'_append_eq_of_le (by decide), BitVec.extractLsb'_append_eq_of_le (by decide)]
    exact BitVec.extractLsb'_eq_self
  rw [hsign]
  cases s <;> rfl

/-! ## Values by their rank -/

/-- A value taken apart. -/
def unpacked (x : Float) : UnpackedFloat := x.toModel.unpack

theorem isFinite_eq (x : Float) : x.isFinite = (unpacked x).isFinite := rfl

/-- The magnitude of a finite value, exactly. -/
def magnitudeOf (x : Float) : ℚ := mantissa (rankOf x) * 2 ^ exponent (rankOf x)

section
variable {x : Float}

theorem toNat_unpackMantissa (x : Float) :
    (@unpackMantissa Format.binary64 x.toModel.toBits.toBitVec).toNat =
      rankOf x % normalRank := by
  simp [unpackMantissa, rankOf, signBit, normalRank, Float.toBits]

theorem toNat_unpackExponent (x : Float) :
    (@unpackExponent Format.binary64 x.toModel.toBits.toBitVec).toNat =
      rankOf x / normalRank := by
  simp only [unpackExponent, Nat.reduceAdd, Nat.add_one_sub_one, Nat.reduceSub, BitVec.cast_eq,
    BitVec.extractLsb_toNat, UInt64.toNat_toBitVec, Nat.reducePow, rankOf, Float.toBits, signBit,
    normalRank]
  omega

/-- A value is a zero, finite, or beyond that, and its rank tells which. -/
theorem unpacked_cases (x : Float) :
    (rankOf x = 0 ∧ ∃ s, unpacked x = .zero s) ∨
    (rankOf x < infinityRank ∧ ∃ s, ∃ hpos : 0 < rankOf x,
      unpacked x = .finite s (mantissa (rankOf x)) (exponent (rankOf x)) (mantissa_pos hpos)) ∨
    (infinityRank ≤ rankOf x ∧ (unpacked x).isFinite = false) := by
  have hm := toNat_unpackMantissa x
  have he := toNat_unpackExponent x
  have hlt : rankOf x < signBit := Nat.mod_lt _ (by decide)
  rw [unpacked, Float.Model.unpack]
  rcases Nat.eq_zero_or_pos (rankOf x) with hzero | hpos
  · exact .inl ⟨hzero, _, unpack_zero (by rw [he, hzero]; rfl) (by rw [hm, hzero]; rfl)⟩
  refine .inr ?_
  by_cases hinfinite : infinityRank ≤ rankOf x
  · refine .inr ⟨hinfinite, isFinite_unpack_of_ones ?_⟩
    rw [he]
    rw [infinityRank, signBit, normalRank] at *
    omega
  refine .inl ⟨not_le.1 hinfinite,
    Sign.ofBitVec (@unpackSign Format.binary64 x.toModel.toBits.toBitVec), hpos, ?_⟩
  by_cases hsub : rankOf x < normalRank
  · rw [unpack_subnormal]
    · simp only [mantissa, exponent, if_pos hsub, hm, Nat.mod_eq_of_lt hsub]
    · rw [he, Nat.div_eq_of_lt hsub]
    · rwa [hm, Nat.mod_eq_of_lt hsub]
  · rw [unpack_normal]
    · simp only [mantissa, exponent, if_neg hsub, hm, he]
    · rw [he]
      exact Nat.div_pos (not_lt.1 hsub) (by decide)
    · rw [he]
      rw [infinityRank, normalRank] at *
      omega

section
variable {s : Sign} {m : Nat} {e : Int} {h : 0 < m}

theorem rank_of_finite (hx : unpacked x = .finite s m e h) :
    rankOf x < infinityRank ∧ m = mantissa (rankOf x) ∧ e = exponent (rankOf x) := by
  rcases unpacked_cases x with ⟨-, s', hx'⟩ | ⟨hlt, s', hpos, hx'⟩ | ⟨-, hx'⟩
  · rw [hx] at hx'
    cases hx'
  · rw [hx] at hx'
    cases hx'
    exact ⟨hlt, rfl, rfl⟩
  · rw [hx] at hx'
    cases hx'

theorem mantissa_lt_of_finite (hx : unpacked x = .finite s m e h) : m < 2 * normalRank := by
  rw [(rank_of_finite hx).2.1]
  exact mantissa_lt _

theorem exponent_bounds_of_finite (hx : unpacked x = .finite s m e h) : -1074 ≤ e ∧ e ≤ 971 := by
  obtain ⟨hlt, -, rfl⟩ := rank_of_finite hx
  rw [exponent, infinityRank, normalRank] at *
  split <;> omega

/-- The mantissa is as long as the format allows, unless the exponent is the least one. -/
theorem canonical_of_finite (hx : unpacked x = .finite s m e h) : normalRank ≤ m ∨ e = -1074 := by
  obtain ⟨-, rfl, rfl⟩ := rank_of_finite hx
  rw [mantissa, exponent]
  split
  · exact .inr rfl
  · exact .inl (Nat.le_add_right ..)

theorem magnitudeOf_of_finite (hx : unpacked x = .finite s m e h) : magnitudeOf x = m * 2 ^ e := by
  obtain ⟨-, rfl, rfl⟩ := rank_of_finite hx
  rfl

theorem magnitudeOf_of_zero (hx : unpacked x = .zero s) : magnitudeOf x = 0 := by
  rcases unpacked_cases x with ⟨hzero, -⟩ | ⟨-, _, _, hx'⟩ | ⟨-, hx'⟩
  · rw [magnitudeOf, hzero, mantissa, if_pos (by decide), Nat.cast_zero, zero_mul]
  · rw [hx] at hx'
    cases hx'
  · rw [hx] at hx'
    cases hx'

end

/-- A finite value is a zero or has a mantissa. -/
theorem unpacked_of_isFinite (h : x.isFinite = true) :
    (∃ s, unpacked x = .zero s) ∨ ∃ s m e hm, unpacked x = .finite s m e hm := by
  rw [isFinite_eq] at h
  cases hu : unpacked x with
  | notANumber | infinity s =>
    rw [hu] at h
    cases h
  | zero s => exact .inl ⟨s, rfl⟩
  | finite s m e hm => exact .inr ⟨s, m, e, hm, rfl⟩

theorem magnitudeOf_congr {y : Float} (h : unpacked x = unpacked y) (hy : y.isFinite = true) :
    x.isFinite = true ∧ magnitudeOf x = magnitudeOf y := by
  refine ⟨?_, ?_⟩
  · rwa [isFinite_eq, h, ← isFinite_eq]
  · rcases unpacked_of_isFinite hy with ⟨s, hu⟩ | ⟨s, m, e, hm, hu⟩
    · rw [magnitudeOf_of_zero hu, magnitudeOf_of_zero (h.trans hu)]
    · rw [magnitudeOf_of_finite hu, magnitudeOf_of_finite (h.trans hu)]

end

/-! ## Zeros -/

/-- Either zero. -/
def isZero : UnpackedFloat → Bool
  | .zero _ => true
  | _ => false

theorem beq_of_zero {z : Float} (hz : unpacked z = .zero .positive) (x : Float) :
    (x == z) = isZero (unpacked x) := by
  have hbeq : (x == z) = (unpacked x).beq (unpacked z) := rfl
  rw [hbeq, hz]
  cases unpacked x with
  | notANumber => rfl
  | infinity s => cases s <;> rfl
  | zero s => rfl
  | finite s m e h => cases s <;> rfl

theorem magnitudeOf_of_beq_zero {x : Float} (h : (x == 0) = true) : magnitudeOf x = 0 := by
  rw [beq_of_zero rfl] at h
  cases hu : unpacked x with
  | zero s => exact magnitudeOf_of_zero hu
  | notANumber | infinity s | finite s m e hm =>
    rw [hu] at h
    cases h

/-! ## Packing -/

/-- What is left of a value that is packed into its bits. -/
def repacked (u : UnpackedFloat) : UnpackedFloat := (Float.Model.pack u).unpack

theorem repacked_eq (u : UnpackedFloat) :
    repacked u = UnpackedFloat.unpack Format.binary64 (UnpackedFloat.pack Format.binary64 u) := rfl

@[simp] theorem repacked_notANumber : repacked .notANumber = .notANumber := rfl

@[simp] theorem repacked_infinity (s : Sign) : repacked (.infinity s) = .infinity s := by cases s <;> rfl

@[simp] theorem repacked_zero (s : Sign) : repacked (.zero s) = .zero s := by cases s <;> rfl

section
variable {s : Sign} {m : Nat} {e : Int}

theorem pack_finite (hm : 0 < m) :
    UnpackedFloat.pack Format.binary64 (.finite s m e hm) =
      if 2 ^ 11 ≤ (e + 1075).toNat + 1 then packedInfinity Format.binary64 s
      else if m.log2 + 1 = 53 then
        packComponents Format.binary64 s (BitVec.ofNat 11 (e + 1075).toNat) (BitVec.ofNat 52 m)
      else packComponents Format.binary64 s 0#11 (BitVec.ofNat 52 m) := by
  have hbias : e + (1023 : Int) + 52 = e + 1075 := by omega
  rw [← hbias]
  rfl

/-- Past the largest exponent everything is infinite. -/
theorem repacked_of_gt (hm : 0 < m) (he : 971 < e) : repacked (.finite s m e hm) = .infinity s := by
  rw [repacked_eq, pack_finite, if_pos (by omega)]
  cases s <;> rfl

theorem repacked_normal (hm : 0 < m) (hge : normalRank ≤ m) (hlt : m < 2 * normalRank)
    (hl : -1074 ≤ e) (hu : e ≤ 971) : repacked (.finite s m e hm) = .finite s m e hm := by
  have hlog : m.log2 = 52 := (Nat.log2_eq_iff hm.ne').2 ⟨hge, hlt⟩
  have hexponent : (BitVec.ofNat 11 (e + 1075).toNat).toNat = (e + 1075).toNat := by
    rw [BitVec.toNat_ofNat, Nat.mod_eq_of_lt (by omega)]
  have hmantissa : normalRank + (BitVec.ofNat 52 m).toNat = m := by
    rw [BitVec.toNat_ofNat]
    rw [normalRank] at *
    omega
  rw [repacked_eq, pack_finite, if_neg (by omega), hlog, if_pos rfl, unpack_normal]
  · simp only [ofBitVec_unpackSign_packComponents, unpackMantissa_packComponents,
      unpackExponent_packComponents, hexponent, hmantissa]
    congr 1
    omega
  · rw [unpackExponent_packComponents, hexponent]
    omega
  · rw [unpackExponent_packComponents, hexponent]
    omega

/-- A short mantissa is taken for one with the least exponent. -/
theorem repacked_subnormal (hm : 0 < m) (hlt : m < normalRank) (he : e ≤ 971) :
    repacked (.finite s m e hm) = .finite s m (-1074) hm := by
  have hlog : m.log2 < 52 := (Nat.log2_lt hm.ne').2 hlt
  have hmantissa : (BitVec.ofNat 52 m).toNat = m := by
    rw [BitVec.toNat_ofNat, Nat.mod_eq_of_lt (show m < 2 ^ 52 from hlt)]
  rw [repacked_eq, pack_finite, if_neg (by omega), if_neg (by omega), unpack_subnormal]
  · simp only [ofBitVec_unpackSign_packComponents, unpackMantissa_packComponents, hmantissa]
  · rw [unpackExponent_packComponents]
    rfl
  · rw [unpackMantissa_packComponents, hmantissa]
    exact hm

theorem repacked_finite_cases (s : Sign) (hm : 0 < m) (hlt : m < 2 * normalRank) (hl : -1074 ≤ e) :
    (e ≤ 971 ∧ ∃ e', repacked (.finite s m e hm) = .finite s m e' hm) ∨
      (971 < e ∧ repacked (.finite s m e hm) = .infinity s) := by
  rcases le_or_gt e 971 with he | he
  · refine .inl ⟨he, ?_⟩
    by_cases hge : normalRank ≤ m
    · exact ⟨e, repacked_normal hm hge hlt hl he⟩
    · exact ⟨-1074, repacked_subnormal hm (not_le.1 hge) he⟩
  · exact .inr ⟨he, repacked_of_gt hm he⟩

end

/-- Packing does not change what is a value already. -/
theorem repacked_unpacked (x : Float) : repacked (unpacked x) = unpacked x := by
  cases hx : unpacked x with
  | notANumber => exact repacked_notANumber
  | infinity s => exact repacked_infinity s
  | zero s => exact repacked_zero s
  | finite s m e h =>
    obtain ⟨hl, hu⟩ := exponent_bounds_of_finite hx
    by_cases hm : normalRank ≤ m
    · exact repacked_normal h hm (mantissa_lt_of_finite hx) hl hu
    · obtain rfl := (canonical_of_finite hx).resolve_left hm
      exact repacked_subnormal h (not_le.1 hm) hu

end SceneScript.Number
