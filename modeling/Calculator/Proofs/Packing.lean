import Calculator.Binary64
import Mathlib

/-!
# Doubles and their parts

A double is a pattern of three fields, and its parts say the same: each pattern is packed from the
parts that it is unpacked to, and of all finite numbers those of the right size and on the right
grid, the canonical ones, are unpacked from what they are packed to.

* `Binary64.Canonical`: the significands and exponents of the finite doubles.
* `Binary64.ofFields`: the parts that three fields denote.

Results:
* `Binary64.pack_parts`: a double is packed from its parts.
* `Binary64.canonical_of_parts`: the parts of a finite double are canonical.
* `Binary64.parts_pack`: canonical parts are those of the double that they make.
-/

namespace Calculator.Binary64

open Float.Model (UnpackedFloat Format)
open Float.Model.UnpackedFloat

/-- The significands and exponents of the finite doubles: 53 binary places, the first of which is
    not zero except on the finest grid. -/
structure Canonical (significand : Nat) (exponent : Int) : Prop where
  pos : 0 < significand
  lt : significand < 2 ^ 53
  least : -1074 ≤ exponent
  greatest : exponent ≤ 971
  full : 2 ^ 52 ≤ significand ∨ exponent = -1074

/-! ## Fields -/

/-- The leading one of a normal number stands before its mantissa. -/
theorem toNat_one_append (mantissa : BitVec 52) :
    (1#1 ++ mantissa).toNat = 2 ^ 52 + mantissa.toNat := by
  rw [BitVec.toNat_append, ← Nat.shiftLeft_add_eq_or_of_lt mantissa.isLt]
  rfl

theorem toNat_eq_zero_iff {n : Nat} {b : BitVec n} : b.toNat = 0 ↔ b = 0#n := by
  rw [← BitVec.toNat_inj, BitVec.toNat_ofNat, Nat.zero_mod]

/-- The parts that three fields denote. -/
def ofFields (sign : Sign) (exponent : BitVec 11) (mantissa : BitVec 52) : UnpackedFloat :=
  if exponent.toNat = 2047 then if mantissa.toNat = 0 then .infinity sign else .notANumber
  else if exponent.toNat = 0 then
    if h : mantissa.toNat = 0 then .zero sign
    else .finite sign mantissa.toNat (-1074) (Nat.pos_of_ne_zero h)
  else .finite sign (2 ^ 52 + mantissa.toNat) (exponent.toNat - 1075) (by omega)

section

variable {sign : Sign} {exponent : BitVec 11} {mantissa : BitVec 52}

theorem unpack_packComponents :
    UnpackedFloat.unpack Format.binary64
        (packComponents Format.binary64 sign exponent mantissa) =
      ofFields sign exponent mantissa := by
  have hbias : Format.binary64.exponentBias = 1023 := rfl
  have hones : exponent = -1#11 ↔ exponent.toNat = 2047 := by
    rw [← BitVec.toNat_inj]
    rfl
  unfold ofFields
  simp only [UnpackedFloat.unpack, unpackExponent_packComponents, unpackMantissa_packComponents,
    unpackSign_packComponents, Sign.ofBitVec_toBitVec, toNat_one_append, hbias, hones,
    ← toNat_eq_zero_iff]
  split
  · rfl
  · split
    · rename_i hzero
      simp only [hzero]
      rfl
    · rfl

theorem canonical_of_ofFields {sign' : Sign} {m : Nat} {e : Int} {h : 0 < m}
    (hfields : ofFields sign exponent mantissa = .finite sign' m e h) : Canonical m e := by
  have hexponent := exponent.isLt
  have hmantissa := mantissa.isLt
  unfold ofFields at hfields
  split at hfields
  · split at hfields <;> cases hfields
  · split at hfields
    · split at hfields
      · cases hfields
      · cases hfields
        exact ⟨h, by omega, by decide, by decide, .inr rfl⟩
    · cases hfields
      constructor <;> omega

end

/-! ## Packing -/

section

variable {sign : Sign} {m : Nat} {e : Int}

theorem log2_of_full (hlow : 2 ^ 52 ≤ m) (hhigh : m < 2 ^ 53) : m.log2 = 52 :=
  (Nat.log2_eq_iff (by omega)).2 ⟨hlow, hhigh⟩

/-- The pattern of a number without a leading one. -/
theorem pack_subnormal (hm : 0 < m) (h : m < 2 ^ 52) :
    UnpackedFloat.pack Format.binary64 (.finite sign m (-1074) hm) =
      packComponents Format.binary64 sign 0#11 (.ofNat 52 m) := by
  have hlog : m.log2 < 52 := (Nat.log2_lt (by omega)).2 h
  have hbits : m.log2 + 1 ≠ Format.binary64.mantissaBits := by
    show m.log2 + 1 ≠ 53
    omega
  simp only [UnpackedFloat.pack]
  rw [if_neg (by decide), if_neg hbits]

/-- The pattern of a number with a leading one, which is left out. -/
theorem pack_normal (h : Canonical m e) (hlow : 2 ^ 52 ≤ m) :
    UnpackedFloat.pack Format.binary64 (.finite sign m e h.pos) =
      packComponents Format.binary64 sign (.ofNat 11 (e + 1075).toNat) (.ofNat 52 m) := by
  obtain ⟨-, hhigh, hleast, hgreatest, -⟩ := h
  have hbits : m.log2 + 1 = Format.binary64.mantissaBits := by
    rw [log2_of_full hlow hhigh]
    rfl
  have hbiased : (e + Format.binary64.exponentBias +
      Format.binary64.mantissaBitsWithoutImplicit).toNat = (e + 1075).toNat := by
    show (e + 1023 + 52).toNat = _
    omega
  simp only [UnpackedFloat.pack]
  rw [hbiased, if_neg (by omega), if_pos hbits]

/-- What is packed from a canonical number is unpacked to the same number. -/
theorem unpack_pack (h : Canonical m e) :
    UnpackedFloat.unpack Format.binary64
        (UnpackedFloat.pack Format.binary64 (.finite sign m e h.pos)) =
      .finite sign m e h.pos := by
  obtain ⟨hm, hhigh, hleast, hgreatest, hfull⟩ := h
  by_cases hlow : 2 ^ 52 ≤ m
  · have hexponent : (BitVec.ofNat 11 (e + 1075).toNat).toNat = (e + 1075).toNat := by
      rw [BitVec.toNat_ofNat]
      omega
    have hmantissa : 2 ^ 52 + (BitVec.ofNat 52 m).toNat = m := by
      rw [BitVec.toNat_ofNat]
      omega
    rw [pack_normal ⟨hm, hhigh, hleast, hgreatest, hfull⟩ hlow, unpack_packComponents]
    unfold ofFields
    simp only [hexponent, hmantissa]
    rw [if_neg (by omega), if_neg (by omega)]
    congr 1
    omega
  · obtain rfl := hfull.resolve_left hlow
    have hmantissa : (BitVec.ofNat 52 m).toNat = m := by
      rw [BitVec.toNat_ofNat]
      omega
    rw [pack_subnormal hm (by omega), unpack_packComponents]
    unfold ofFields
    simp only [hmantissa]
    rw [if_neg (by decide), if_pos (by decide), dif_neg (by omega)]

end

/-! ## Doubles -/

/-- A double is packed from its parts. -/
theorem pack_parts (x : Float) : pack (parts x) = x :=
  Float.toBits_inj.1 (UInt64.toBitVec_inj.1 (pack_unpack_of_valid x.toModel.valid))

/-- The parts of a finite double are canonical. -/
theorem canonical_of_parts {x : Float} {sign : Sign} {m : Nat} {e : Int} {hm : 0 < m}
    (h : parts x = .finite sign m e hm) : Canonical m e := by
  have hfields := @packComponents_unpackSign_unpackExponent_unpackMantissa Format.binary64
    x.toModel.toBits.toBitVec
  have hunpack : UnpackedFloat.unpack Format.binary64 x.toModel.toBits.toBitVec = _ := h
  rw [← hfields, unpack_packComponents] at hunpack
  exact canonical_of_ofFields hunpack

/-- Canonical parts are those of the double that they make. -/
theorem parts_pack {sign : Sign} {m : Nat} {e : Int} (h : Canonical m e) :
    parts (pack (.finite sign m e h.pos)) = .finite sign m e h.pos :=
  unpack_pack h

/-- A change of sign changes the sign alone. -/
theorem neg_pack {sign : Sign} {m : Nat} {e : Int} (h : Canonical m e) :
    -pack (.finite sign m e h.pos) = pack (.finite (-sign) m e h.pos) := by
  show pack (parts (pack (.finite sign m e h.pos))).neg = _
  rw [parts_pack h]
  rfl

end Calculator.Binary64
