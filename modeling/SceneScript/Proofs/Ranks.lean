/-
Binary64 values by their sign and rank. Every value is made up by the two (`ofRank_isNegative_rankOf`), and every
sign with a rank up to infinity's makes up a value that has them (`rankOf_ofRank`, `isNegative_ofRank`). The
rank alone tells whether a value is finite, infinite or undefined.
-/
import SceneScript.Proofs.Packing
namespace SceneScript.Number

open Float.Model Float.Model.UnpackedFloat

/-! ## Packing what a bit pattern unpacks to -/

theorem toBitVec_ofBitVec (s : BitVec 1) : (Sign.ofBitVec s).toBitVec = s := by
  rcases BitVec.eq_zero_or_eq_one s with rfl | rfl <;> rfl

theorem toNat_append {m n : Nat} (x : BitVec m) (y : BitVec n) :
    (x ++ y).toNat = x.toNat * 2 ^ n + y.toNat := by
  rw [BitVec.toNat_append, ← Nat.shiftLeft_add_eq_or_of_lt y.isLt, Nat.shiftLeft_eq]

theorem toNat_packComponents (s : Sign) (exponent : BitVec 11) (mantissa : BitVec 52) :
    (packComponents Format.binary64 s exponent mantissa).toNat =
      (s.toBitVec.toNat * 2 ^ 11 + exponent.toNat) * 2 ^ 52 + mantissa.toNat := by
  change (s.toBitVec ++ exponent ++ mantissa).toNat = _
  rw [toNat_append, toNat_append]

section
variable (b : BitVec Format.binary64.numBits)

theorem toNat_fields :
    (unpackSign b).toNat = b.toNat / 2 ^ 63 % 2 ∧ (unpackExponent b).toNat = b.toNat / 2 ^ 52 % 2 ^ 11 ∧
      (unpackMantissa b).toNat = b.toNat % 2 ^ 52 := by
  simp only [unpackSign, unpackExponent, unpackMantissa, Nat.reduceAdd, Nat.add_one_sub_one, Nat.reduceSub,
    BitVec.toNat_cast, BitVec.extractLsb_toNat, Nat.shiftRight_eq_div_pow, Nat.pow_zero, Nat.div_one,
    Nat.pow_one, and_self]

/-- A bit pattern is put together from its three fields. -/
theorem packComponents_unpack :
    packComponents Format.binary64 (Sign.ofBitVec (unpackSign b)) (unpackExponent b) (unpackMantissa b) =
      b := by
  obtain ⟨hsign, hexponent, hmantissa⟩ := toNat_fields b
  have hb : b.toNat < 2 ^ 64 := b.isLt
  refine BitVec.eq_of_toNat_eq ?_
  rw [toNat_packComponents, toBitVec_ofBitVec, hsign, hexponent, hmantissa]
  omega

/-- Only the bits of undefined values are changed. -/
theorem pack_unpack {b : BitVec Format.binary64.numBits} (h : Format.binary64.Valid b) :
    UnpackedFloat.pack Format.binary64 (UnpackedFloat.unpack Format.binary64 b) = b := by
  have hpack := packComponents_unpack b
  have hexponent : (unpackExponent b).toNat < 2 ^ 11 := (unpackExponent b).isLt
  have hmantissa : (unpackMantissa b).toNat < 2 ^ 52 := (unpackMantissa b).isLt
  rcases Nat.eq_zero_or_pos (unpackExponent b).toNat with he | he
  · have hzero : unpackExponent b = 0#11 := BitVec.eq_of_toNat_eq he
    rw [hzero] at hpack
    rcases Nat.eq_zero_or_pos (unpackMantissa b).toNat with hm | hm
    · have hmzero : unpackMantissa b = 0#52 := BitVec.eq_of_toNat_eq hm
      rw [hmzero] at hpack
      rw [unpack_zero he hm]
      exact hpack
    · have hlog : (unpackMantissa b).toNat.log2 < 52 := (Nat.log2_lt hm.ne').2 hmantissa
      rw [unpack_subnormal he hm, pack_finite, if_neg (by decide), if_neg (by omega), BitVec.ofNat_toNat,
        BitVec.setWidth_eq]
      exact hpack
  by_cases hones : (unpackExponent b).toNat < 2047
  · have hlog : (normalRank + (unpackMantissa b).toNat).log2 = 52 := by
      rw [Nat.log2_eq_iff (Nat.add_pos_left (by decide) _).ne', normalRank]
      omega
    have hbiased : BitVec.ofNat 11 ((unpackExponent b).toNat - 1075 + 1075 : Int).toNat =
        unpackExponent b := by
      rw [Int.sub_add_cancel, Int.toNat_natCast, BitVec.ofNat_toNat, BitVec.setWidth_eq]
    have hfraction : BitVec.ofNat 52 (normalRank + (unpackMantissa b).toNat) = unpackMantissa b := by
      refine BitVec.eq_of_toNat_eq ?_
      rw [BitVec.toNat_ofNat, normalRank]
      omega
    rw [unpack_normal he hones, pack_finite, if_neg (by omega), hlog, if_pos rfl, hbiased, hfraction]
    exact hpack
  · have hexponent' : unpackExponent b = -1#11 := by
      refine BitVec.eq_of_toNat_eq ?_
      rw [show (-1#11).toNat = 2047 from rfl]
      omega
    rw [UnpackedFloat.unpack]
    simp only [if_pos hexponent']
    split
    · rename_i hm
      rw [hexponent', hm] at hpack
      exact hpack
    · rename_i hm
      exact (h.eq_packedNaN hexponent' hm).symm

end

/-! ## Values from a sign and a rank -/

theorem ofBits_toBits (x : Float) : Float.ofBits x.toBits = x := by
  obtain ⟨⟨bits, hvalid⟩⟩ := x
  have hbits : (Float.Model.ofBits bits).toBits = bits := congrArg UInt64.ofBitVec (pack_unpack hvalid)
  rw [Float.ofBits, Float.toBits, Float.ofModel.injEq, Float.Model.mk.injEq]
  exact hbits

theorem toBits_ofBits {n : UInt64} (h : n.toNat % signBit ≤ infinityRank) : (Float.ofBits n).toBits = n := by
  obtain ⟨-, hexponent, hmantissa⟩ := toNat_fields n.toBitVec
  have hvalid : Format.binary64.Valid n.toBitVec := by
    refine ⟨fun he hm => absurd (BitVec.eq_of_toNat_eq ?_) hm⟩
    rw [he] at hexponent
    rw [hmantissa]
    have hn : n.toBitVec.toNat = n.toNat := rfl
    rw [show (-1#11).toNat = 2047 from rfl, hn] at hexponent
    rw [infinityRank, signBit] at h
    rw [hn, BitVec.toNat_zero]
    omega
  exact congrArg UInt64.ofBitVec (pack_unpack hvalid)

/-- Every value is made up by its sign and its rank. -/
theorem ofRank_isNegative_rankOf (x : Float) : ofRank (isNegative x) (rankOf x) = x := by
  have hlt : x.toBits.toNat < 2 ^ 64 := x.toBits.toNat_lt
  have hbits : (if isNegative x then signBit + rankOf x else rankOf x) = x.toBits.toNat := by
    rw [isNegative, rankOf]
    simp only [decide_eq_true_eq]
    rw [signBit]
    split <;> omega
  rw [ofRank, hbits, UInt64.ofNat_toNat, ofBits_toBits]

section
variable {negative : Bool} {rank : Nat}

theorem toNat_toBits_ofRank (h : rank ≤ infinityRank) :
    (ofRank negative rank).toBits.toNat = if negative then signBit + rank else rank := by
  have hlt : (if negative then signBit + rank else rank) < 2 ^ 64 := by
    simp only [infinityRank, signBit] at *
    split <;> omega
  have hnat : (UInt64.ofNat (if negative then signBit + rank else rank)).toNat =
      if negative then signBit + rank else rank := UInt64.toNat_ofNat_of_lt' hlt
  rw [ofRank, toBits_ofBits, hnat]
  rw [hnat]
  simp only [infinityRank, signBit] at *
  split <;> omega

theorem rankOf_ofRank (h : rank ≤ infinityRank) : rankOf (ofRank negative rank) = rank := by
  rw [rankOf, toNat_toBits_ofRank h]
  simp only [infinityRank, signBit] at *
  split <;> omega

theorem isNegative_ofRank (h : rank ≤ infinityRank) : isNegative (ofRank negative rank) = negative := by
  rw [isNegative, toNat_toBits_ofRank h]
  simp only [infinityRank, signBit] at *
  cases negative
  · simp only [Bool.false_eq_true, if_false, decide_eq_false_iff_not]
    omega
  · simp

end

/-! ## Kinds of values by their rank -/

section
variable {x : Float}

theorem fields_of_ge (h : infinityRank ≤ rankOf x) :
    @unpackExponent Format.binary64 x.toModel.toBits.toBitVec = -1#11 ∧
      (@unpackMantissa Format.binary64 x.toModel.toBits.toBitVec = 0#52 ↔ rankOf x = infinityRank) := by
  have hlt : rankOf x < signBit := Nat.mod_lt _ (by decide)
  have hmantissa := toNat_unpackMantissa x
  have hexponent := toNat_unpackExponent x
  refine ⟨BitVec.eq_of_toNat_eq ?_, ?_⟩
  · rw [hexponent, show (-1#11).toNat = 2047 from rfl]
    rw [infinityRank, signBit, normalRank] at *
    omega
  · rw [← BitVec.toNat_inj, hmantissa, BitVec.toNat_zero]
    rw [infinityRank, signBit, normalRank] at *
    omega

theorem unpacked_of_ge (h : infinityRank ≤ rankOf x) :
    ∃ s, unpacked x = if rankOf x = infinityRank then .infinity s else .notANumber := by
  obtain ⟨hones, hzero⟩ := fields_of_ge h
  refine ⟨Sign.ofBitVec (@unpackSign Format.binary64 x.toModel.toBits.toBitVec), ?_⟩
  rw [unpacked, Float.Model.unpack, UnpackedFloat.unpack]
  simp only [if_pos hones, hzero]

theorem kinds_of_lt (h : rankOf x < infinityRank) :
    x.isFinite = true ∧ x.isInf = false ∧ x.isNaN = false := by
  change (unpacked x).isFinite = true ∧ (unpacked x).isInf = false ∧ (unpacked x).isNaN = false
  rcases unpacked_cases x with ⟨-, s, hx⟩ | ⟨-, s, hpos, hx⟩ | ⟨hge, -⟩
  · rw [hx]
    exact ⟨rfl, rfl, rfl⟩
  · rw [hx]
    exact ⟨rfl, rfl, rfl⟩
  · exact absurd h (not_lt.2 hge)

theorem kinds_of_eq (h : rankOf x = infinityRank) :
    x.isFinite = false ∧ x.isInf = true ∧ x.isNaN = false := by
  change (unpacked x).isFinite = false ∧ (unpacked x).isInf = true ∧ (unpacked x).isNaN = false
  obtain ⟨s, hx⟩ := unpacked_of_ge h.ge
  rw [hx, if_pos h]
  exact ⟨rfl, rfl, rfl⟩

theorem kinds_of_gt (h : infinityRank < rankOf x) :
    x.isFinite = false ∧ x.isInf = false ∧ x.isNaN = true := by
  change (unpacked x).isFinite = false ∧ (unpacked x).isInf = false ∧ (unpacked x).isNaN = true
  obtain ⟨s, hx⟩ := unpacked_of_ge h.le
  rw [hx, if_neg h.ne']
  exact ⟨rfl, rfl, rfl⟩

theorem isFinite_iff : x.isFinite = true ↔ rankOf x < infinityRank := by
  rcases lt_trichotomy (rankOf x) infinityRank with h | h | h
  · exact iff_of_true (kinds_of_lt h).1 h
  · exact iff_of_false (by rw [(kinds_of_eq h).1]; exact Bool.false_ne_true) h.not_lt
  · exact iff_of_false (by rw [(kinds_of_gt h).1]; exact Bool.false_ne_true) h.not_gt

theorem isInf_iff : x.isInf = true ↔ rankOf x = infinityRank := by
  rcases lt_trichotomy (rankOf x) infinityRank with h | h | h
  · exact iff_of_false (by rw [(kinds_of_lt h).2.1]; exact Bool.false_ne_true) h.ne
  · exact iff_of_true (kinds_of_eq h).2.1 h
  · exact iff_of_false (by rw [(kinds_of_gt h).2.1]; exact Bool.false_ne_true) h.ne'

theorem isNaN_iff : x.isNaN = true ↔ infinityRank < rankOf x := by
  rcases lt_trichotomy (rankOf x) infinityRank with h | h | h
  · exact iff_of_false (by rw [(kinds_of_lt h).2.2]; exact Bool.false_ne_true) h.not_gt
  · exact iff_of_false (by rw [(kinds_of_eq h).2.2]; exact Bool.false_ne_true) h.not_gt
  · exact iff_of_true (kinds_of_gt h).2.2 h

/-- There is one undefined value. -/
theorem eq_of_isNaN {y : Float} (hx : x.isNaN = true) (hy : y.isNaN = true) : x = y := by
  have hbits : ∀ z : Float, z.isNaN = true → z.toModel.toBits.toBitVec = packedNaN Format.binary64 :=
    fun z hz => by
      have hlt := isNaN_iff.1 hz
      obtain ⟨hones, hzero⟩ := fields_of_ge hlt.le
      exact z.toModel.valid.eq_packedNaN hones fun hm => hlt.ne' (hzero.1 hm)
  have hxy : x.toBits = y.toBits := UInt64.toBitVec_inj.1 ((hbits x hx).trans (hbits y hy).symm)
  rw [← ofBits_toBits x, hxy, ofBits_toBits]

end

end SceneScript.Number
