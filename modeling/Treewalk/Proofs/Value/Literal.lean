import Mathlib
import Treewalk.Proofs.Value.Number
import Treewalk.Syntax.Ast
/-!
# Number literals

A program writes a number as a decimal numeral, and the parser puts in its place the double
nearest to the numeral (`Numeral.toFloat`, through `Binary64.ofRatio`). The rounding is exact
where it can be: a ratio that equals a finite double rounds to that double, and a ratio at or
beyond `2 ^ 1024` rounds to infinity. Whatever it rounds, the result is a literal: positive
infinity, or a finite double with a clear sign bit. Conversely every literal has a numeral that
reads back as it (`Numeral.ofLiteral`): a finite double `m · 2 ^ e` is the decimal
`m · 5 ^ -e / 10 ^ -e` exactly, and infinity is `10 ^ 309`.

`ofRatio` lays out sign, exponent and fraction bits and makes a `Float` of them; the first part
shows that the standard library's model of `Float` keeps such bits as they are when they are
not a NaN, by unpacking and packing them again.
-/
namespace Treewalk

open Float.Model

namespace Binary64

/-! ### The bits that `assemble` packs -/

theorem toNat_packComponents (s : UnpackedFloat.Sign) (E : BitVec 11) (M : BitVec 52) :
    (UnpackedFloat.packComponents Format.binary64 s E M).toNat =
      s.toBitVec.toNat * Nat.pow 2 63 + E.toNat * Nat.pow 2 52 + M.toNat := by
  unfold UnpackedFloat.packComponents
  rw [BitVec.toNat_append, BitVec.toNat_append, ← Nat.shiftLeft_add_eq_or_of_lt (BitVec.isLt _),
    ← Nat.shiftLeft_add_eq_or_of_lt (BitVec.isLt _)]
  simp only [Nat.shiftLeft_eq, two_pow_63, two_pow_52]
  ring

theorem toNat_sign {s : UnpackedFloat.Sign} {n : Nat}
    (hs : (s == .negative) = (n / Nat.pow 2 63 % 2 == 1)) :
    s.toBitVec.toNat = n / Nat.pow 2 63 % 2 := by
  rcases Nat.mod_two_eq_zero_or_one (n / Nat.pow 2 63) with h | h <;> rw [h] at hs ⊢ <;>
    cases s <;> simp_all <;> rfl

theorem log2_normal {f : Nat} (hf : f < Nat.pow 2 52) : (f + Nat.pow 2 52).log2 = 52 := by
  rw [Nat.log2_eq_iff (by omega)]
  simp only [two_pow_52] at hf ⊢
  exact ⟨by norm_num, by norm_num; omega⟩

/-- Unpacking the bits of a double that is not NaN and packing them again gives the bits
back. -/
theorem pack_unpack {b : BitVec 64} (hnan : decode b.toNat ≠ .nan) :
    UnpackedFloat.pack Format.binary64 (UnpackedFloat.unpack Format.binary64 b) = b := by
  have hd := decode_eq_ofUnpacked b
  have hfields := bits_eq_fields (n := b.toNat) b.isLt
  have hz : ∀ w, (0 : BitVec w).toNat = 0 := fun _ => rfl
  have hbias : ((2 ^ (11 - 1) - 1 : Nat) : Int) = 1023 := by norm_num
  apply BitVec.eq_of_toNat_eq
  cases hu : UnpackedFloat.unpack Format.binary64 b with
  | notANumber => rw [hu] at hd; exact absurd hd hnan
  | infinity s =>
    rw [hu] at hd
    obtain ⟨hs, hb, hf⟩ := decode_infinite hd
    simp only [UnpackedFloat.pack, UnpackedFloat.packedInfinity, toNat_packComponents,
      toNat_sign hs, hz]
    rw [show (-1#11 : BitVec 11).toNat = 2047 from rfl]
    simp only [two_pow_63, two_pow_52, two_pow_11] at hfields hb hf ⊢
    omega
  | zero s =>
    rw [hu] at hd
    obtain ⟨hs, ⟨hb, hf, -⟩ | ⟨-, -, hf, -⟩⟩ := decode_finite hd
    · simp only [UnpackedFloat.pack, UnpackedFloat.packedZero, toNat_packComponents,
        toNat_sign hs, hz]
      simp only [two_pow_63, two_pow_52, two_pow_11] at hfields hb hf ⊢
      omega
    · simp only [two_pow_52] at hf
      omega
  | finite s m e hm =>
    rw [hu] at hd
    obtain ⟨hs, ⟨hb, rfl, rfl⟩ | ⟨hb₀, hb₁, rfl, rfl⟩⟩ := decode_finite hd
    · -- a subnormal: the smallest exponent, and no implicit bit
      have hlog : (b.toNat % Nat.pow 2 52).log2 < 52 :=
        (Nat.log2_lt (by omega)).mpr (Nat.mod_lt _ (by decide))
      simp only [UnpackedFloat.pack, Format.exponentBias, Format.mantissaBits, hbias]
      rw [if_neg (by norm_num), if_neg (by omega), toNat_packComponents, toNat_sign hs,
        BitVec.toNat_zero, BitVec.toNat_ofNat, Nat.mod_mod_of_dvd _ (by decide)]
      simp only [two_pow_63, two_pow_52, two_pow_11] at hfields hb ⊢
      omega
    · -- a normal number: the implicit bit makes the significand 53 bits long
      have hlog := log2_normal (Nat.mod_lt b.toNat (show 0 < Nat.pow 2 52 by decide))
      simp only [UnpackedFloat.pack, Format.exponentBias, Format.mantissaBits, hbias]
      rw [if_neg (by omega), if_pos (by omega), toNat_packComponents, toNat_sign hs,
        BitVec.toNat_ofNat, BitVec.toNat_ofNat]
      simp only [two_pow_63, two_pow_52, two_pow_11] at hfields hb₀ hb₁ ⊢
      omega

theorem toBits_ofBits {n : Nat} (hn : n < Nat.pow 2 64) (hnan : decode n ≠ .nan) :
    (Float.ofBits (UInt64.ofNat n)).toBits.toNat = n := by
  have hv : (UInt64.ofNat n).toBitVec.toNat = n := by
    change (UInt64.ofNat n).toNat = n
    rw [UInt64.toNat_ofNat']
    exact Nat.mod_eq_of_lt hn
  change (UnpackedFloat.pack Format.binary64
    (UnpackedFloat.unpack Format.binary64 (UInt64.ofNat n).toBitVec)).toNat = n
  rw [pack_unpack (by rwa [hv])]
  exact hv

theorem fields_of_sum {s B F : Nat} (hs : s < 2) (hB : B < 2048) (hF : F < Nat.pow 2 52) :
    let n := s * Nat.pow 2 63 + B * Nat.pow 2 52 + F
    n / Nat.pow 2 63 % 2 = s ∧ n / Nat.pow 2 52 % Nat.pow 2 11 = B ∧ n % Nat.pow 2 52 = F ∧
      n < Nat.pow 2 64 := by
  simp only [two_pow_63, two_pow_52, two_pow_11, two_pow_64] at hF ⊢
  omega

theorem ofFloat_assemble {neg : Bool} {B F : Nat} (hB : B < 2048) (hF : F < Nat.pow 2 52)
    (hnan : B = 2047 → F = 0) :
    ofFloat (assemble neg B F) =
      if B = 2047 then .infinite neg else if B = 0 then .finite neg F (-1074)
      else .finite neg (F + Nat.pow 2 52) ((B : Int) - 1075) := by
  obtain ⟨s, hs, hsign, hneg⟩ : ∃ s, s < 2 ∧
      (if neg then Nat.pow 2 63 else 0) = s * Nat.pow 2 63 ∧ (s == 1) = neg := by
    cases neg
    · exact ⟨0, by decide, by simp, rfl⟩
    · exact ⟨1, by decide, by simp, rfl⟩
  obtain ⟨h₁, h₂, h₃, hlt⟩ := fields_of_sum hs hB hF
  have hdec : decode (s * Nat.pow 2 63 + B * Nat.pow 2 52 + F) =
      if B = 2047 then .infinite neg else if B = 0 then .finite neg F (-1074)
      else .finite neg (F + Nat.pow 2 52) ((B : Int) - 1075) := by
    unfold decode
    dsimp only
    rw [h₁, h₂, h₃, hneg]
    by_cases h : B = 2047
    · rw [if_pos h, if_pos h, if_pos (hnan h)]
    · rw [if_neg h, if_neg h]
  rw [ofFloat_eq_decode, show assemble neg B F = Float.ofBits (UInt64.ofNat
      (s * Nat.pow 2 63 + B * Nat.pow 2 52 + F)) by rw [← hsign]; rfl,
    toBits_ofBits hlt (by rw [hdec]; split_ifs <;> simp), hdec]

/-! ### The floor of a logarithm, and rounding -/

theorem fits_iff {num den : Nat} (hd : 0 < den) (l : Int) :
    (if l ≥ 0 then den * Nat.pow 2 l.toNat ≤ num else den ≤ num * Nat.pow 2 (-l).toNat) ↔
      (2 : ℚ) ^ l ≤ num / den := by
  have hd' : (0 : ℚ) < den := by exact_mod_cast hd
  split_ifs with hl
  · obtain ⟨k, rfl⟩ := Int.eq_ofNat_of_zero_le hl
    rw [zpow_natCast, le_div_iff₀ hd', Int.toNat_natCast, Nat.pow_eq, mul_comm]
    exact_mod_cast Iff.rfl
  · obtain ⟨k, hk⟩ := Int.exists_eq_neg_ofNat (le_of_lt (not_le.mp hl))
    subst hk
    rw [zpow_neg, zpow_natCast, neg_neg, Int.toNat_natCast, Nat.pow_eq, inv_eq_one_div,
      div_le_div_iff₀ (by positivity) hd', one_mul]
    exact_mod_cast Iff.rfl

theorem log2Ratio_eq {num den : Nat} (hd : 0 < den) : log2Ratio num den =
    if (2 : ℚ) ^ ((num.log2 : Int) - den.log2) ≤ num / den then (num.log2 : Int) - den.log2
    else (num.log2 : Int) - den.log2 - 1 := by
  unfold log2Ratio
  dsimp only
  have h : _ ↔ (2 : ℚ) ^ ((num.log2 : Int) - den.log2) ≤ num / den :=
    fits_iff hd ((num.log2 : Int) - den.log2)
  by_cases hf : (2 : ℚ) ^ ((num.log2 : Int) - den.log2) ≤ num / den
  · rw [if_pos (h.mpr hf), if_pos hf]
  · rw [if_neg (fun h' => hf (h.mp h')), if_neg hf]

/-- `log2Ratio` is the floor of the base-2 logarithm of `num / den`. -/
theorem log2Ratio_spec {num den : Nat} (hn : 0 < num) (hd : 0 < den) :
    (2 : ℚ) ^ log2Ratio num den ≤ num / den ∧ (num / den : ℚ) < 2 ^ (log2Ratio num den + 1) := by
  -- `num` and `den` each lie between two powers of two, so `num / den` lies within a factor
  -- of two of `2 ^ (log2 num - log2 den)`
  have hd' : (0 : ℚ) < den := by exact_mod_cast hd
  have hn₁ : (2 : ℚ) ^ num.log2 ≤ num := by exact_mod_cast Nat.log2_self_le hn.ne'
  have hn₂ : (num : ℚ) < 2 ^ (num.log2 + 1) := by exact_mod_cast Nat.lt_log2_self
  have hd₁ : (2 : ℚ) ^ den.log2 ≤ den := by exact_mod_cast Nat.log2_self_le hd.ne'
  have hd₂ : (den : ℚ) < 2 ^ (den.log2 + 1) := by exact_mod_cast Nat.lt_log2_self
  have hsplit : ∀ k : Int, (2 : ℚ) ^ ((num.log2 : Int) - den.log2 + k) =
      2 ^ num.log2 * 2 ^ k / 2 ^ den.log2 := by
    intro k
    rw [zpow_add₀ two_ne_zero, zpow_sub₀ two_ne_zero, zpow_natCast, zpow_natCast]
    ring
  rw [log2Ratio_eq hd]
  split_ifs with hf
  · refine ⟨hf, ?_⟩
    rw [hsplit 1, zpow_one, div_lt_div_iff₀ hd' (by positivity)]
    calc (num : ℚ) * 2 ^ den.log2 < 2 ^ (num.log2 + 1) * 2 ^ den.log2 := by gcongr
      _ ≤ 2 ^ num.log2 * 2 * den := by rw [pow_succ]; gcongr
  · refine ⟨?_, by rw [sub_add_cancel]; exact lt_of_not_ge hf⟩
    rw [sub_eq_add_neg, hsplit (-1), zpow_neg_one, div_le_div_iff₀ (by positivity) hd']
    calc (2 : ℚ) ^ num.log2 * 2⁻¹ * den ≤ 2 ^ num.log2 * 2⁻¹ * 2 ^ (den.log2 + 1) := by gcongr
      _ = 2 ^ num.log2 * 2 ^ den.log2 := by rw [pow_succ]; ring
      _ ≤ num * 2 ^ den.log2 := by gcongr

theorem log2Ratio_eq_of {num den : Nat} (hn : 0 < num) (hd : 0 < den) {k : Int}
    (h₁ : (2 : ℚ) ^ k ≤ num / den) (h₂ : (num / den : ℚ) < 2 ^ (k + 1)) :
    log2Ratio num den = k := by
  obtain ⟨hl₁, hl₂⟩ := log2Ratio_spec hn hd
  have hmono : ∀ {i j : Int}, (2 : ℚ) ^ i < 2 ^ (j + 1) → i ≤ j := fun h => by
    have := (zpow_lt_zpow_iff_right₀ one_lt_two).mp h
    omega
  exact le_antisymm (hmono (hl₁.trans_lt h₂)) (hmono (h₁.trans_lt hl₂))

theorem roundHalfEven_mul (q : Nat) {d : Nat} (hd : 0 < d) : roundHalfEven (q * d) d = q := by
  unfold roundHalfEven
  rw [Nat.mul_div_cancel q hd, Nat.mul_mod_left]
  rw [if_neg (by omega)]

theorem roundHalfEven_le {num den k : Nat} (h : num < k * den) : roundHalfEven num den ≤ k := by
  have hq : num / den < k := Nat.div_lt_of_lt_mul (by rwa [Nat.mul_comm])
  unfold roundHalfEven
  dsimp only
  split_ifs <;> omega

theorem scaled_eq {num den : Nat} (hd : 0 < den) (e : Int) :
    ∃ N D : Nat, 0 < D ∧ (N / D : ℚ) = num / den / 2 ^ e ∧
      (if e ≥ 0 then roundHalfEven num (den * Nat.pow 2 e.toNat)
        else roundHalfEven (num * Nat.pow 2 (-e).toNat) den) = roundHalfEven N D := by
  split_ifs with he
  · obtain ⟨k, rfl⟩ := Int.eq_ofNat_of_zero_le he
    refine ⟨num, den * Nat.pow 2 k, Nat.mul_pos hd (Nat.pow_pos (by decide)), ?_, rfl⟩
    rw [zpow_natCast, div_div]
    push_cast [Nat.pow_eq]
    rfl
  · obtain ⟨k, hk⟩ := Int.exists_eq_neg_ofNat (le_of_lt (not_le.mp he))
    subst hk
    refine ⟨num * Nat.pow 2 k, den, hd, ?_, by rw [neg_neg, Int.toNat_natCast]⟩
    rw [zpow_neg, zpow_natCast, div_inv_eq_mul]
    push_cast [Nat.pow_eq]
    ring

/-! ### Rounding a ratio -/

theorem num_pos_of_ratio_pos {num den : Nat} (h : (0 : ℚ) < num / den) : 0 < num :=
  Nat.pos_of_ne_zero fun h0 => by
    rw [h0, Nat.cast_zero, zero_div] at h
    exact lt_irrefl 0 h

theorem ofRatio_of_zero {neg : Bool} {num den : Nat} (h : num = 0 ∨ den = 0) :
    ofRatio neg num den = assemble neg 0 0 := by
  unfold ofRatio
  rw [if_pos h]

/-- A ratio that is `m · 2 ^ e` lies between the powers of two that `m` lies between, scaled by
`2 ^ e`. -/
theorem log2Ratio_of_scaled {num den m : Nat} {e : Int} (hn : 0 < num) (hd : 0 < den)
    (hm : 0 < m) (hv : (num / den : ℚ) = m * 2 ^ e) : log2Ratio num den = m.log2 + e := by
  have hm₁ : (2 : ℚ) ^ m.log2 ≤ m := by exact_mod_cast Nat.log2_self_le hm.ne'
  have hm₂ : (m : ℚ) < 2 ^ (m.log2 + 1) := by exact_mod_cast Nat.lt_log2_self
  apply log2Ratio_eq_of hn hd
  · rw [hv, zpow_add₀ two_ne_zero, zpow_natCast]
    gcongr
  · rw [hv, show (m.log2 : Int) + e + 1 = ((m.log2 + 1 : Nat) : Int) + e by push_cast; ring,
      zpow_add₀ two_ne_zero, zpow_natCast]
    gcongr

/-- `ofRatio` at a positive ratio, with the exponent it scales by and the significand it rounds
to named, and the carry out of the significand resolved. -/
theorem ofRatio_pos {neg : Bool} {num den : Nat} (hn : 0 < num) (hd : 0 < den) {e : Int}
    {q : Nat} (he : max (log2Ratio num den - 52) (-1074) = e)
    (hq : (if e ≥ 0 then roundHalfEven num (den * Nat.pow 2 e.toNat)
        else roundHalfEven (num * Nat.pow 2 (-e).toNat) den) = q) :
    ofRatio neg num den =
      if q = Nat.pow 2 53 then
        (if e + 1 > 971 then assemble neg 2047 0 else assemble neg (e + 1 + 1075).toNat 0)
      else if e > 971 then assemble neg 2047 0
      else if q < Nat.pow 2 52 then assemble neg 0 q
      else assemble neg (e + 1075).toNat (q - Nat.pow 2 52) := by
  unfold ofRatio
  rw [if_neg (by omega)]
  dsimp only
  rw [he, hq]
  by_cases hc : q = Nat.pow 2 53
  · rw [if_pos hc, if_pos hc]
    dsimp only
    rw [if_neg (Nat.lt_irrefl _), Nat.sub_self]
  · rw [if_neg hc, if_neg hc]

/-- A ratio that is exactly a finite non-negative double rounds to that double. -/
theorem ofRatio_exact {x : Float} {m : Nat} {e : Int} (hx : ofFloat x = .finite false m e)
    {num den : Nat} (hd : 0 < den) (hv : (num / den : ℚ) = m * 2 ^ e) :
    ofRatio false num den = x := by
  apply ofFloat_injective
  rw [hx]
  have h52 := two_pow_52
  have h53 := two_pow_53
  obtain ⟨-, hcls⟩ := decode_finite hx
  have hf : x.toBits.toNat % Nat.pow 2 52 < Nat.pow 2 52 := Nat.mod_lt _ (by decide)
  rcases Nat.eq_zero_or_pos m with rfl | hm
  · -- zero is the one double without a significand
    have he : e = -1074 := by
      rcases hcls with ⟨-, -, he⟩ | ⟨-, -, hm, -⟩
      · exact he
      · omega
    have hnum : num = 0 := by
      have h0 : (num : ℚ) / den = 0 := by rw [hv]; simp
      rw [div_eq_zero_iff] at h0
      exact_mod_cast h0.resolve_right (by positivity)
    subst hnum he
    rw [ofRatio_of_zero (.inl rfl), ofFloat_assemble (by decide) (by decide) (by decide)]
    rfl
  have hn : 0 < num := num_pos_of_ratio_pos (by rw [hv]; positivity)
  have hexp : max (log2Ratio num den - 52) (-1074) = e := by
    rw [log2Ratio_of_scaled hn hd hm hv]
    rcases hcls with ⟨-, rfl, rfl⟩ | ⟨hb₀, -, rfl, rfl⟩
    · have := (Nat.log2_lt hm.ne').mpr hf
      omega
    · rw [log2_normal hf]
      omega
  obtain ⟨N, D, hD, hND, hround⟩ := scaled_eq hd e
  have hsig : roundHalfEven N D = m := by
    have hN : (N : ℚ) = m * D := by
      rw [hv, mul_div_assoc, div_self (zpow_ne_zero e two_ne_zero), mul_one,
        div_eq_iff (by positivity)] at hND
      exact hND
    rw [show N = m * D by exact_mod_cast hN, roundHalfEven_mul m hD]
  rw [ofRatio_pos hn hd hexp (hround.trans hsig)]
  rcases hcls with ⟨-, rfl, rfl⟩ | ⟨hb₀, hb₁, rfl, rfl⟩
  · rw [if_neg (by omega), if_neg (by omega), if_pos hf,
      ofFloat_assemble (by decide) hf (fun h => absurd h (by decide)), if_neg (by decide),
      if_pos rfl]
  · rw [if_neg (by omega), if_neg (by omega), if_neg (by omega),
      ofFloat_assemble (by omega) (by omega) (by omega), if_neg (by omega), if_neg (by omega),
      finite.injEq]
    exact ⟨rfl, by omega, by omega⟩

/-- A ratio at or beyond `2 ^ 1024` rounds to positive infinity. -/
theorem ofRatio_overflow {num den : Nat} (hd : 0 < den) (hv : (2 : ℚ) ^ (1024 : Int) ≤ num / den) :
    ofFloat (ofRatio false num den) = .infinite false := by
  have hn : 0 < num := num_pos_of_ratio_pos (lt_of_lt_of_le (by positivity) hv)
  obtain ⟨-, hl₂⟩ := log2Ratio_spec hn hd
  have hl : 1024 ≤ log2Ratio num den := by
    have := (zpow_lt_zpow_iff_right₀ one_lt_two).mp (hv.trans_lt hl₂)
    omega
  have hinf : ofFloat (assemble false 2047 0) = .infinite false := by
    rw [ofFloat_assemble (by decide) (by decide) (fun _ => rfl), if_pos rfl]
  obtain ⟨N, D, -, -, hround⟩ := scaled_eq hd (max (log2Ratio num den - 52) (-1074))
  rw [ofRatio_pos hn hd rfl hround]
  split_ifs
  · exact hinf
  · omega
  · exact hinf
  · omega
  · omega

/-- Whether a double can stand for a number literal: positive infinity, or a finite double
whose sign bit is clear, so neither NaN, a negative number nor `-0`. -/
def isLiteral (x : Float) : Bool :=
  match ofFloat x with
  | .infinite negative | .finite negative _ _ => !negative
  | .nan => false

theorem isLiteral_iff {x : Float} :
    isLiteral x = true ↔ ofFloat x = .infinite false ∨ ∃ m e, ofFloat x = .finite false m e := by
  unfold isLiteral
  cases ofFloat x with
  | nan => simp
  | infinite negative => cases negative <;> simp
  | finite negative m e => cases negative <;> simp

theorem isLiteral_assemble {B F : Nat} (hB : B < 2048) (hF : F < Nat.pow 2 52)
    (hnan : B = 2047 → F = 0) : isLiteral (assemble false B F) = true := by
  rw [isLiteral_iff, ofFloat_assemble hB hF hnan]
  split_ifs
  · exact .inl rfl
  · exact .inr ⟨_, _, rfl⟩
  · exact .inr ⟨_, _, rfl⟩

theorem isLiteral_ofRatio (num den : Nat) : isLiteral (ofRatio false num den) = true := by
  have h52 := two_pow_52
  have h53 := two_pow_53
  rcases Nat.eq_zero_or_pos num with rfl | hn
  · rw [ofRatio_of_zero (.inl rfl)]
    exact isLiteral_assemble (by decide) (by decide) (by decide)
  rcases Nat.eq_zero_or_pos den with rfl | hd
  · rw [ofRatio_of_zero (.inr rfl)]
    exact isLiteral_assemble (by decide) (by decide) (by decide)
  -- the exponent leaves at most 53 bits of significand, so the rounding stays within them
  obtain ⟨-, hl₂⟩ := log2Ratio_spec hn hd
  obtain ⟨N, D, hD, hND, hround⟩ := scaled_eq hd (max (log2Ratio num den - 52) (-1074))
  have hq : roundHalfEven N D ≤ Nat.pow 2 53 := by
    apply roundHalfEven_le
    have hle : (2 : ℚ) ^ (log2Ratio num den + 1) ≤
        2 ^ (max (log2Ratio num den - 52) (-1074) + 53) :=
      zpow_le_zpow_right₀ one_le_two (by omega)
    have hlt : (N / D : ℚ) < 2 ^ 53 := by
      rw [hND, div_lt_iff₀ (by positivity), ← zpow_natCast, ← zpow_add₀ two_ne_zero,
        add_comm]
      exact hl₂.trans_le hle
    rw [div_lt_iff₀ (by exact_mod_cast hD)] at hlt
    exact_mod_cast hlt
  rw [ofRatio_pos hn hd rfl hround]
  split_ifs <;> apply isLiteral_assemble <;> omega

end Binary64

/-- The numeral a literal is written as: a finite double `m · 2 ^ e` exactly, as the decimal
`m · 5 ^ -e / 10 ^ -e` when `e` is negative, and infinity as `10 ^ 309`, beyond the largest
double. -/
def Numeral.ofLiteral (x : Float) : Numeral :=
  match Binary64.ofFloat x with
  | .finite _ m e =>
    if 0 ≤ e then ⟨m * Nat.pow 2 e.toNat, 0⟩ else ⟨m * Nat.pow 5 (-e).toNat, (-e).toNat⟩
  | _ => ⟨Nat.pow 10 309, 0⟩

namespace Numeral

open Binary64

theorem toFloat_whole (M : Nat) : (⟨M, 0⟩ : Numeral).toFloat = ofRatio false M 1 := by
  unfold toFloat ofDecimal
  rw [if_pos (by simp)]
  simp

theorem toFloat_fraction (M : Nat) {k : Nat} (hk : 0 < k) :
    (⟨M, k⟩ : Numeral).toFloat = ofRatio false M (Nat.pow 10 k) := by
  unfold toFloat ofDecimal
  rw [if_neg (by simp; omega)]
  simp

/-- Every numeral stands for a literal. -/
theorem isLiteral_toFloat (n : Numeral) : isLiteral n.toFloat = true := by
  unfold toFloat ofDecimal
  split_ifs <;> exact isLiteral_ofRatio _ _

/-- A literal's numeral reads back as the literal itself. -/
theorem toFloat_ofLiteral {x : Float} (hx : isLiteral x = true) : (ofLiteral x).toFloat = x := by
  unfold ofLiteral
  rcases isLiteral_iff.mp hx with hinf | ⟨m, e, hfin⟩
  · -- infinity: `10 ^ 309` is beyond `2 ^ 1024`
    rw [hinf]
    dsimp only
    rw [toFloat_whole]
    apply ofFloat_injective
    rw [hinf]
    refine ofRatio_overflow (by decide) ?_
    have h : ((2 ^ 1024 : ℕ) : ℚ) ≤ (Nat.pow 10 309 : ℕ) := Nat.cast_le.mpr (by decide +kernel)
    rw [show (1024 : ℤ) = ((1024 : ℕ) : ℤ) from rfl, zpow_natCast, Nat.cast_one, div_one]
    rwa [Nat.cast_pow, Nat.cast_ofNat] at h
  · rw [hfin]
    dsimp only
    split_ifs with he
    · obtain ⟨k, rfl⟩ := Int.eq_ofNat_of_zero_le he
      rw [toFloat_whole]
      refine ofRatio_exact hfin (by decide) ?_
      push_cast [Nat.pow_eq]
      simp
    · -- `m · 2 ^ -k` is `m · 5 ^ k / 10 ^ k`
      obtain ⟨k, hk⟩ := Int.exists_eq_neg_ofNat (le_of_lt (not_le.mp he))
      subst hk
      have hk : 0 < k := by omega
      rw [neg_neg, Int.toNat_natCast, toFloat_fraction _ hk]
      refine ofRatio_exact hfin (Nat.pow_pos (by decide)) ?_
      rw [zpow_neg, zpow_natCast]
      push_cast [Nat.pow_eq]
      rw [show (10 : ℚ) ^ k = 2 ^ k * 5 ^ k by rw [← mul_pow]; norm_num,
        mul_div_mul_right _ _ (by positivity), div_eq_mul_inv]

end Numeral

end Treewalk
