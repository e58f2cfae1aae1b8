import Mathlib
import Treewalk.Binary64
/-!
# Doubles as the evaluator reads them

`Binary64.ofFloat` reads a double's bits into its class and exact value. This module shows that
the reading agrees with the logical model of `Float` that the standard library unpacks the bits
into, and from that reads IEEE equality off `ofFloat`: two doubles are equal when they are the
same double other than NaN, or both zeros, whatever their signs.
-/
namespace Treewalk

open Float.Model

namespace Binary64

def ofUnpacked : UnpackedFloat → Binary64
  | .notANumber => .nan
  | .infinity s => .infinite (s == .negative)
  | .zero s => .finite (s == .negative) 0 (-1074)
  | .finite s m e _ => .finite (s == .negative) m e

/-! ### The fields of the bits -/

section Fields

variable (b : BitVec 64)

theorem mantissa_toNat :
    (@UnpackedFloat.unpackMantissa Format.binary64 b).toNat = b.toNat % Nat.pow 2 52 := by
  simp [UnpackedFloat.unpackMantissa]

theorem exponent_toNat :
    (@UnpackedFloat.unpackExponent Format.binary64 b).toNat =
      b.toNat / Nat.pow 2 52 % Nat.pow 2 11 := by
  simp [UnpackedFloat.unpackExponent, Nat.shiftRight_eq_div_pow]

theorem sign_toNat :
    (@UnpackedFloat.unpackSign Format.binary64 b).toNat = b.toNat / Nat.pow 2 63 % 2 := by
  simp [UnpackedFloat.unpackSign, Nat.shiftRight_eq_div_pow]

theorem sign_negative :
    (UnpackedFloat.Sign.ofBitVec (@UnpackedFloat.unpackSign Format.binary64 b) == .negative) =
      (b.toNat / Nat.pow 2 63 % 2 == 1) := by
  have hs := sign_toNat b
  have : b.toNat / Nat.pow 2 63 % 2 < 2 := Nat.mod_lt _ (by decide)
  simp only [UnpackedFloat.Sign.ofBitVec]
  by_cases h0 : @UnpackedFloat.unpackSign Format.binary64 b = 0#1
  · rw [h0, BitVec.toNat_zero] at hs
    simp only [h0, if_true, ← hs]
    rfl
  · have h1 : (@UnpackedFloat.unpackSign Format.binary64 b).toNat ≠ 0 :=
      fun h => h0 (BitVec.eq_of_toNat_eq (by simpa using h))
    have h2 : b.toNat / Nat.pow 2 63 % 2 = 1 := by omega
    simp only [h0, if_false, h2]
    rfl

theorem exponent_eq_iff {k : Nat} (hk : k < 2048) :
    @UnpackedFloat.unpackExponent Format.binary64 b = BitVec.ofNat 11 k ↔
      b.toNat / Nat.pow 2 52 % Nat.pow 2 11 = k := by
  have hk' : k % 2 ^ Format.binary64.exponentBits = k := Nat.mod_eq_of_lt (by simpa using hk)
  rw [← BitVec.toNat_inj, exponent_toNat, BitVec.toNat_ofNat, hk']

theorem mantissa_eq_zero_iff :
    @UnpackedFloat.unpackMantissa Format.binary64 b = 0#52 ↔ b.toNat % Nat.pow 2 52 = 0 := by
  rw [← BitVec.toNat_inj, mantissa_toNat]
  rfl

end Fields

/-- What `ofFloat` does with the bits `n`. -/
def decode (n : Nat) : Binary64 :=
  let negative := n / Nat.pow 2 63 % 2 == 1
  let biased : Nat := n / Nat.pow 2 52 % Nat.pow 2 11
  let fraction : Nat := n % Nat.pow 2 52
  if biased = 2047 then (if fraction = 0 then .infinite negative else .nan)
  else if biased = 0 then .finite negative fraction (-1074)
  else .finite negative (fraction + Nat.pow 2 52) ((biased : Int) - 1075)

theorem ofFloat_eq_decode (x : Float) : ofFloat x = decode x.toBits.toNat := rfl

theorem decode_eq_ofUnpacked (b : BitVec 64) :
    decode b.toNat = ofUnpacked (UnpackedFloat.unpack Format.binary64 b) := by
  have hmax : (-1#11 : BitVec 11) = BitVec.ofNat 11 2047 := by decide
  have hm := mantissa_toNat b
  have he := exponent_toNat b
  simp only [decode, UnpackedFloat.unpack, hmax, exponent_eq_iff b (show 2047 < 2048 by decide),
    exponent_eq_iff b (show 0 < 2048 by decide)]
  by_cases hnan : b.toNat / Nat.pow 2 52 % Nat.pow 2 11 = 2047
  · by_cases h0 : @UnpackedFloat.unpackMantissa Format.binary64 b = 0#52
    · have : b.toNat % Nat.pow 2 52 = 0 := (mantissa_eq_zero_iff b).1 h0
      simp [hnan, h0, this, ofUnpacked, sign_negative]
    · have : b.toNat % Nat.pow 2 52 ≠ 0 := fun h => h0 ((mantissa_eq_zero_iff b).2 h)
      simp [hnan, h0, this, ofUnpacked]
  · by_cases hsub : b.toNat / Nat.pow 2 52 % Nat.pow 2 11 = 0
    · -- a zero or a subnormal: the fraction at the smallest scale
      by_cases h0 : @UnpackedFloat.unpackMantissa Format.binary64 b = 0#52
      · have : b.toNat % Nat.pow 2 52 = 0 := (mantissa_eq_zero_iff b).1 h0
        simp [hsub, h0, this, ofUnpacked, sign_negative]
      · simp [hsub, h0, ofUnpacked, sign_negative, hm, he, Format.exponentBias]
    · -- a normal double: the implicit leading bit joins the fraction
      have hnorm : (1#1 ++ @UnpackedFloat.unpackMantissa Format.binary64 b).toNat =
          b.toNat % Nat.pow 2 52 + Nat.pow 2 52 := by
        rw [BitVec.toNat_append, ← Nat.shiftLeft_add_eq_or_of_lt (BitVec.isLt _), hm]
        simp [Nat.shiftLeft_eq, Nat.add_comm]
      simp [hnan, hsub, ofUnpacked, sign_negative, he, hnorm, Format.exponentBias]

theorem ofFloat_eq_ofUnpacked (x : Float) : ofFloat x = ofUnpacked x.toModel.unpack :=
  (ofFloat_eq_decode x).trans (decode_eq_ofUnpacked x.toModel.toBits.toBitVec)

/-! ### Reading the bits loses nothing -/

/-! The powers of two that lay out the fields, as numerals that `omega` can use. -/

theorem two_pow_11 : Nat.pow 2 11 = 2048 := rfl

theorem two_pow_52 : Nat.pow 2 52 = 4503599627370496 := rfl

theorem two_pow_53 : Nat.pow 2 53 = 9007199254740992 := rfl

theorem two_pow_63 : Nat.pow 2 63 = 9223372036854775808 := rfl

theorem two_pow_64 : Nat.pow 2 64 = 18446744073709551616 := rfl

theorem bits_eq_fields {n : Nat} (hn : n < Nat.pow 2 64) :
    n = n / Nat.pow 2 63 % 2 * Nat.pow 2 63 + n / Nat.pow 2 52 % Nat.pow 2 11 * Nat.pow 2 52 +
      n % Nat.pow 2 52 := by
  rw [two_pow_64] at hn
  rw [two_pow_63, two_pow_52, two_pow_11]
  omega

theorem eq_of_fields {n m : Nat} (hn : n < Nat.pow 2 64) (hm : m < Nat.pow 2 64)
    (hsign : (n / Nat.pow 2 63 % 2 == 1) = (m / Nat.pow 2 63 % 2 == 1))
    (hbiased : n / Nat.pow 2 52 % Nat.pow 2 11 = m / Nat.pow 2 52 % Nat.pow 2 11)
    (hfraction : n % Nat.pow 2 52 = m % Nat.pow 2 52) : n = m := by
  have hs : n / Nat.pow 2 63 % 2 = m / Nat.pow 2 63 % 2 := by
    rcases Nat.mod_two_eq_zero_or_one (n / Nat.pow 2 63) with h | h <;>
      rcases Nat.mod_two_eq_zero_or_one (m / Nat.pow 2 63) with h' | h' <;> simp_all
  rw [bits_eq_fields hn, bits_eq_fields hm, hs, hbiased, hfraction]

theorem decode_infinite {n : Nat} {neg : Bool} (h : decode n = .infinite neg) :
    neg = (n / Nat.pow 2 63 % 2 == 1) ∧ n / Nat.pow 2 52 % Nat.pow 2 11 = 2047 ∧
      n % Nat.pow 2 52 = 0 := by
  unfold decode at h
  dsimp only at h
  split_ifs at h with hmax hzero
  cases h
  exact ⟨rfl, hmax, hzero⟩

/-- A finite reading is a subnormal (or zero) at the smallest scale, or a normal number, with a
biased exponent strictly between the two reserved ones, whose significand carries the implicit
leading bit. -/
theorem decode_finite {n m : Nat} {neg : Bool} {e : Int} (h : decode n = .finite neg m e) :
    neg = (n / Nat.pow 2 63 % 2 == 1) ∧
      ((n / Nat.pow 2 52 % Nat.pow 2 11 = 0 ∧ m = n % Nat.pow 2 52 ∧ e = -1074) ∨
        (0 < n / Nat.pow 2 52 % Nat.pow 2 11 ∧ n / Nat.pow 2 52 % Nat.pow 2 11 < 2047 ∧
          m = n % Nat.pow 2 52 + Nat.pow 2 52 ∧
          e = ((n / Nat.pow 2 52 % Nat.pow 2 11 : Nat) : Int) - 1075)) := by
  have hlt : n / Nat.pow 2 52 % Nat.pow 2 11 < 2048 := Nat.mod_lt _ (by decide)
  unfold decode at h
  dsimp only at h
  split_ifs at h with hmax hfraction hsub <;> cases h
  · exact ⟨rfl, .inl ⟨hsub, rfl, rfl⟩⟩
  · exact ⟨rfl, .inr ⟨by omega, by omega, rfl, rfl⟩⟩

/-- Bits that read as a number or an infinity are determined by what they read as. -/
theorem decode_injective {n m : Nat} (hn : n < Nat.pow 2 64) (hm : m < Nat.pow 2 64)
    (hnan : decode n ≠ .nan) (h : decode n = decode m) : n = m := by
  have hf : n % Nat.pow 2 52 < Nat.pow 2 52 := Nat.mod_lt _ (by decide)
  have hf' : m % Nat.pow 2 52 < Nat.pow 2 52 := Nat.mod_lt _ (by decide)
  cases hd : decode n with
  | nan => exact absurd hd hnan
  | infinite neg =>
    obtain ⟨hs, hb, hfr⟩ := decode_infinite hd
    obtain ⟨hs', hb', hfr'⟩ := decode_infinite (h ▸ hd)
    exact eq_of_fields hn hm (hs ▸ hs') (hb.trans hb'.symm) (hfr.trans hfr'.symm)
  | finite neg mm e =>
    obtain ⟨hs, hcls⟩ := decode_finite hd
    obtain ⟨hs', hcls'⟩ := decode_finite (h ▸ hd)
    refine eq_of_fields hn hm (hs ▸ hs') ?_ ?_ <;>
    -- a subnormal significand is below the implicit bit that every normal one carries
    rcases hcls with ⟨hb, hmm, he⟩ | ⟨-, -, hmm, he⟩ <;>
      rcases hcls' with ⟨hb', hmm', he'⟩ | ⟨-, -, hmm', he'⟩ <;> omega

theorem decode_nan {n : Nat} (h : decode n = .nan) :
    n / Nat.pow 2 52 % Nat.pow 2 11 = 2047 ∧ n % Nat.pow 2 52 ≠ 0 := by
  unfold decode at h
  dsimp only at h
  split_ifs at h with hmax hfraction
  exact ⟨hmax, hfraction⟩

/-- Every NaN a `Float` holds is the canonical one. -/
theorem bits_of_nan {x : Float} (h : ofFloat x = .nan) :
    x.toModel.toBits.toBitVec = UnpackedFloat.packedNaN Format.binary64 := by
  have hmax : (-1#11 : BitVec 11) = BitVec.ofNat 11 2047 := by decide
  obtain ⟨hexp, hfrac⟩ := decode_nan h
  refine x.toModel.valid.eq_packedNaN ?_ ?_
  · rw [hmax]
    exact (exponent_eq_iff _ (by decide)).2 hexp
  · exact fun h0 => hfrac ((mantissa_eq_zero_iff _).1 h0)

theorem float_eq_of_toBits {x y : Float} (h : x.toBits.toNat = y.toBits.toNat) : x = y := by
  rcases x with ⟨⟨bx, vx⟩⟩
  rcases y with ⟨⟨b, v⟩⟩
  have hb : bx = b := UInt64.toNat_inj.mp h
  subst hb
  rfl

/-- Reading a double into its class and exact value loses nothing: NaNs are canonical, and a
number or an infinity is determined by its sign, significand and exponent. -/
theorem ofFloat_injective : Function.Injective ofFloat := by
  intro x y h
  apply float_eq_of_toBits
  by_cases hnan : ofFloat x = .nan
  · have hy : ofFloat y = .nan := h ▸ hnan
    change x.toModel.toBits.toBitVec.toNat = y.toModel.toBits.toBitVec.toNat
    rw [bits_of_nan hnan, bits_of_nan hy]
  · exact decode_injective x.toBits.toNat_lt_size y.toBits.toNat_lt_size hnan h

end Binary64

/-! ### IEEE equality -/

namespace Binary64

theorem compare_eq_iff (a b : UnpackedFloat) :
    a.compare b = some .eq ↔ (a = b ∧ a ≠ .notANumber) ∨ ∃ s t, a = .zero s ∧ b = .zero t := by
  rcases a with (_ | _) | _ | (_ | _) | ⟨_ | _, m, e, h⟩ <;>
    rcases b with (_ | _) | _ | (_ | _) | ⟨_ | _, n, f, k⟩ <;>
    simp [UnpackedFloat.compare, Ordering.then_eq_eq, and_comm] <;> rfl

theorem isNaN_iff (a : UnpackedFloat) : a.isNaN = true ↔ a = .notANumber := by
  cases a <;> simp [UnpackedFloat.isNaN]

theorem float_beq_iff (x y : Float) :
    (x == y) = true ↔ x.toModel.unpack.compare y.toModel.unpack = some .eq := by
  change (x.toModel.unpack.compare y.toModel.unpack == some .eq) = true ↔ _
  exact beq_iff_eq

theorem float_beq_comm (x y : Float) : (x == y) = (y == x) := by
  apply Bool.eq_iff_iff.mpr
  rw [float_beq_iff, float_beq_iff, compare_eq_iff, compare_eq_iff]
  constructor
  · rintro (⟨hxy, hx⟩ | ⟨s, t, hx, hy⟩)
    · exact .inl ⟨hxy.symm, hxy ▸ hx⟩
    · exact .inr ⟨t, s, hy, hx⟩
  · rintro (⟨hyx, hy⟩ | ⟨s, t, hy, hx⟩)
    · exact .inl ⟨hyx.symm, hyx ▸ hy⟩
    · exact .inr ⟨t, s, hx, hy⟩

theorem float_beq_trans {x y z : Float} (hxy : (x == y) = true) (hyz : (y == z) = true) :
    (x == z) = true := by
  rw [float_beq_iff, compare_eq_iff] at hxy hyz ⊢
  rcases hxy with ⟨hxy, hx⟩ | ⟨s, t, hx, hy⟩
  · rw [hxy]
    exact hyz
  · -- `y` is a zero, so `z` is the same zero or another one
    rcases hyz with ⟨hyz, -⟩ | ⟨t', u, -, hz⟩
    · exact .inr ⟨s, t, hx, hyz ▸ hy⟩
    · exact .inr ⟨s, u, hx, hz⟩

theorem float_beq_self (x : Float) : (x == x) = !x.isNaN := by
  apply Bool.eq_iff_iff.mpr
  rw [float_beq_iff, compare_eq_iff, Bool.not_eq_true', Bool.eq_false_iff]
  change _ ↔ ¬ x.toModel.unpack.isNaN = true
  rw [isNaN_iff]
  constructor
  · rintro (⟨-, h⟩ | ⟨s, t, h, -⟩)
    · exact h
    · rw [h]
      exact nofun
  · exact fun h => .inl ⟨rfl, h⟩

theorem ofFloat_of_beq {x y : Float} (h : (x == y) = true) :
    ofFloat x = ofFloat y ∨ ∃ a b, ofFloat x = .finite a 0 (-1074) ∧ ofFloat y = .finite b 0 (-1074) := by
  rw [float_beq_iff, compare_eq_iff] at h
  rw [ofFloat_eq_ofUnpacked, ofFloat_eq_ofUnpacked]
  rcases h with ⟨hxy, -⟩ | ⟨s, t, hx, hy⟩
  · exact .inl (congrArg ofUnpacked hxy)
  · rw [hx, hy]
    exact .inr ⟨_, _, rfl, rfl⟩

end Binary64

end Treewalk
