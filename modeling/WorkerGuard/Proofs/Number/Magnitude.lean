import Mathlib
import WorkerGuard.Time.Duration

/-!
# WorkerGuard.Proofs.Number.Magnitude

Floating-point numbers that are no larger than a power of two, and what becomes of them.

* `Below k m e`: `m · 2^e` is less than `2^k`. `Small k f`: the unpacked number `f` is zero, or
  positive and below `2^k`. `Under k x`: so is the number `x`.
* `Under.add`, `Under.mul`, `Under.div_billion`: each operation rounds, which may add one to the
  exponent.
* `under_unit`: numbers from 0 to 1.
* `ofFloat?_of_under`: numbers below `2^64` are lengths in seconds.
-/

namespace WorkerGuard.Number

open Float.Model UnpackedFloat

def Below (k : Int) (m : Nat) (e : Int) : Prop := ∃ j : Nat, m < 2 ^ j ∧ j + e ≤ k

def Small (k : Int) : UnpackedFloat → Prop
  | .zero _ => True
  | .finite .positive m e _ => Below k m e
  | _ => False

def Under (k : Int) (x : Float) : Prop := Small k x.toModel.unpack

theorem Below.mono {k k' : Int} {m : Nat} {e : Int} (h : Below k m e) (hk : k ≤ k') :
    Below k' m e := by
  obtain ⟨j, hm, hj⟩ := h
  exact ⟨j, hm, Int.le_trans hj hk⟩

section Rounding

variable {k : Int} {m : Nat} {e : Int}

theorem Below.shiftLeft (h : Below k m e) (n : Nat) : Below k (m <<< n) (e - n) := by
  obtain ⟨j, hm, hj⟩ := h
  refine ⟨j + n, ?_, by omega⟩
  rw [Nat.shiftLeft_eq, Nat.pow_add]
  exact Nat.mul_lt_mul_of_pos_right hm (Nat.two_pow_pos n)

theorem Below.decreaseExponent (h : Below k m e) (target : Int) :
    Below k (decreaseExponent m e target).1 (decreaseExponent m e target).2 :=
  h.shiftLeft _

theorem Below.aligned (h : Below k m e) {target : Int} (hle : target ≤ e) :
    Below k (UnpackedFloat.decreaseExponent m e target).1 target := by
  have hsame : e - ((e - target).toNat : Int) = target := by omega
  have hshift := h.shiftLeft (e - target).toNat
  rw [hsame] at hshift
  exact hshift

theorem Below.add {m' : Nat} (h : Below k m e) (h' : Below k m' e) : Below (k + 1) (m + m') e := by
  obtain ⟨j, hm, hj⟩ := h
  obtain ⟨j', hm', hj'⟩ := h'
  have hleft : 2 ^ j ≤ 2 ^ max j j' := Nat.pow_le_pow_right (by decide) (Nat.le_max_left j j')
  have hright : 2 ^ j' ≤ 2 ^ max j j' := Nat.pow_le_pow_right (by decide) (Nat.le_max_right j j')
  refine ⟨max j j' + 1, ?_, by omega⟩
  rw [Nat.pow_succ]
  omega

theorem mantissa_shiftRight (em : ExtendedMantissa) (n : Nat) :
    (em >>> n).mantissa = em.mantissa / 2 ^ n := by
  show (n.repeat ExtendedMantissa.shiftRightOne em).mantissa = _
  induction n with
  | zero => simp [Nat.repeat]
  | succ n ih =>
    show (n.repeat ExtendedMantissa.shiftRightOne em).mantissa / 2 = _
    rw [ih, Nat.div_div_eq_div_mul, Nat.pow_succ]

theorem roundedMantissa_le (em : ExtendedMantissa) : em.roundedMantissa ≤ em.mantissa + 1 := by
  unfold ExtendedMantissa.roundedMantissa
  generalize em.accuracy = accuracy
  unfold Accuracy.roundToNearestEven
  split
  · omega
  · omega
  · omega
  · omega

theorem mantissa_ofMantissaAndAccuracy (m : Nat) (accuracy : Accuracy) :
    (ExtendedMantissa.ofMantissaAndAccuracy m accuracy).mantissa = m := by
  unfold ExtendedMantissa.ofMantissaAndAccuracy
  split <;> rfl

theorem log2_add_one_le {j : Nat} (hm : m < 2 ^ j) : m.log2 + 1 ≤ max j 1 := by
  by_cases h₀ : m = 0
  · subst h₀
    exact Nat.le_max_right j 1
  · have hlog := (Nat.log2_lt h₀).2 hm
    omega

/-- The first shift drops bits and rounds. -/
theorem Below.shiftRounded {accuracy : Accuracy} (h : Below k m e) (hk : -1074 ≤ k) :
    Below (k + 1) (shiftToTargetExponent .binary64 m e accuracy).1.roundedMantissa
      (shiftToTargetExponent .binary64 m e accuracy).2 := by
  obtain ⟨j, hm, hj⟩ := h
  have hlog := log2_add_one_le hm
  unfold shiftToTargetExponent shiftToExponent
  have htarget : Format.binary64.targetExponent (totalExponent m e) =
      max ((m.log2 + 1 + e : Int) - 53) (-1074) := rfl
  dsimp only
  rw [htarget]
  generalize hn : (max ((m.log2 + 1 + e : Int) - 53) (-1074) - e).toNat = n
  show Below (k + 1) (ExtendedMantissa.ofMantissaAndAccuracy m accuracy >>> n).roundedMantissa (e + n)
  have hrounded := roundedMantissa_le (ExtendedMantissa.ofMantissaAndAccuracy m accuracy >>> n)
  rw [mantissa_shiftRight, mantissa_ofMantissaAndAccuracy] at hrounded
  by_cases hle : n ≤ j
  · refine ⟨j - n + 1, Nat.lt_of_le_of_lt hrounded ?_, by omega⟩
    have hdiv : m / 2 ^ n < 2 ^ (j - n) := by
      apply Nat.div_lt_of_lt_mul
      rw [← Nat.pow_add, Nat.add_sub_cancel' hle]
      exact hm
    have hpos := Nat.two_pow_pos (j - n)
    rw [Nat.pow_succ]
    omega
  · have hzero : m / 2 ^ n = 0 :=
      Nat.div_eq_of_lt (Nat.lt_of_lt_of_le hm (Nat.pow_le_pow_right (by decide) (by omega)))
    rw [hzero] at hrounded
    refine ⟨1, Nat.lt_of_le_of_lt hrounded (by decide), ?_⟩
    omega

/-- The second shift only drops bits. -/
theorem Below.shiftExact (h : Below k m e)
    (hne : (shiftToTargetExponent .binary64 m e .exact).1.mantissa ≠ 0) :
    Below k (shiftToTargetExponent .binary64 m e .exact).1.mantissa
      (shiftToTargetExponent .binary64 m e .exact).2 := by
  obtain ⟨j, hm, hj⟩ := h
  unfold shiftToTargetExponent shiftToExponent at hne ⊢
  dsimp only at hne ⊢
  generalize (Format.binary64.targetExponent (totalExponent m e) - e).toNat = n at hne ⊢
  show Below k (ExtendedMantissa.ofMantissaAndAccuracy m .exact >>> n).mantissa (e + n)
  rw [mantissa_shiftRight, mantissa_ofMantissaAndAccuracy] at hne ⊢
  by_cases hle : n ≤ j
  · refine ⟨j - n, ?_, by omega⟩
    apply Nat.div_lt_of_lt_mul
    rw [← Nat.pow_add, Nat.add_sub_cancel' hle]
    exact hm
  · refine absurd (Nat.div_eq_of_lt (Nat.lt_of_lt_of_le hm ?_)) hne
    exact Nat.pow_le_pow_right (by decide) (by omega)

theorem Below.roundWithAccuracy {accuracy : Accuracy} (h : Below k m e) (hk : -1074 ≤ k) :
    Small (k + 1) (roundWithAccuracy .binary64 .positive m e accuracy) := by
  have hrounded : Below (k + 1)
      (shiftToTargetExponent .binary64 m e accuracy).1.roundedMantissa _ := h.shiftRounded hk
  unfold UnpackedFloat.roundWithAccuracy
  dsimp only
  split
  · trivial
  · rename_i hne
    exact hrounded.shiftExact hne

theorem Below.round (h : Below k m e) (hk : -1074 ≤ k) :
    Small (k + 1) (round .binary64 .positive m e) :=
  (h.decreaseExponent _).roundWithAccuracy hk

end Rounding

section Packing

variable {k : Int}

theorem unpackSign_packComponents {spec : Format} {sign : Sign}
    {exponent : BitVec spec.exponentBits} {mantissa : BitVec spec.mantissaBitsWithoutImplicit} :
    Sign.ofBitVec (unpackSign (packComponents spec sign exponent mantissa)) = sign := by
  have hbit : unpackSign (packComponents spec sign exponent mantissa) = sign.toBitVec := by
    ext i hi
    obtain rfl : i = 0 := by omega
    simp [unpackSign, packComponents, BitVec.getLsbD_append, BitVec.getElem_append]
  rw [hbit]
  cases sign <;> rfl

theorem small_packComponents {exponent : BitVec 11} {mantissa : BitVec 52}
    (hfinite : exponent ≠ -1#11) (hk : -1021 ≤ k)
    (hle : exponent ≠ 0#11 → (exponent.toNat : Int) - 1022 ≤ k) :
    Small k (unpack .binary64 (packComponents .binary64 .positive exponent mantissa)) := by
  unfold UnpackedFloat.unpack
  simp only [unpackMantissa_packComponents, unpackExponent_packComponents, if_neg hfinite]
  rw [unpackSign_packComponents]
  have hm := mantissa.isLt
  split
  · split
    · trivial
    · rename_i hzero hne
      refine ⟨52, hm, ?_⟩
      rw [hzero]
      show (52 : Int) + (((0 : Nat) : Int) - 1075 + 1) ≤ k
      omega
  · rename_i hne
    refine ⟨53, (1#1 ++ mantissa).isLt, ?_⟩
    have hle := hle hne
    show (53 : Int) + ((exponent.toNat : Int) - 1075) ≤ k
    omega

theorem Small.pack {f : UnpackedFloat} (h : Small k f) (hk : -1021 ≤ k) (hk' : k ≤ 900) :
    Small k (unpack .binary64 (pack .binary64 f)) := by
  cases f with
  | infinity s => exact h.elim
  | notANumber => exact h.elim
  | zero s =>
    unfold UnpackedFloat.pack packedZero UnpackedFloat.unpack
    simp only [unpackMantissa_packComponents, unpackExponent_packComponents]
    trivial
  | finite s m e hm =>
    cases s with
    | negative => exact h.elim
    | positive =>
      obtain ⟨j, hlt, hj⟩ := h
      have hlog := (Nat.log2_lt (Nat.ne_of_gt hm)).2 hlt
      unfold UnpackedFloat.pack
      dsimp only
      generalize hbiased : (e + (Format.binary64.exponentBias : Int) +
        (Format.binary64.mantissaBitsWithoutImplicit : Int)).toNat = biased
      have hbiased : (e + 1023 + 52).toNat = biased := hbiased
      have hlt : ¬2 ^ Format.binary64.exponentBits ≤ biased + 1 := by
        show ¬2048 ≤ biased + 1
        omega
      rw [if_neg hlt]
      split
      · rename_i hnormal
        have hnormal : m.log2 + 1 = 53 := hnormal
        have htoNat : (BitVec.ofNat 11 biased).toNat = biased := by
          rw [BitVec.toNat_ofNat, Nat.mod_eq_of_lt (by omega)]
        refine small_packComponents ?_ hk fun hne => ?_
        · intro hones
          have hall : biased = 2047 := htoNat.symm.trans (congrArg BitVec.toNat hones)
          omega
        · rw [htoNat]
          have hpos : biased ≠ 0 := by
            rintro rfl
            exact hne rfl
          omega
      · exact small_packComponents (by decide) hk fun hne => absurd rfl hne

end Packing
section Operations

variable {k k' : Int} {f g : UnpackedFloat} {x y : Float}

theorem Small.mono (h : Small k f) (hk : k ≤ k') : Small k' f := by
  cases f with
  | infinity s => exact h.elim
  | notANumber => exact h.elim
  | zero s => trivial
  | finite s m e hm =>
    cases s with
    | negative => exact h.elim
    | positive => exact Below.mono h hk

theorem Small.cases (h : Small k f) : (∃ s, f = .zero s) ∨
    ∃ m e hm, f = .finite .positive m e hm ∧ Below k m e := by
  cases f with
  | infinity s => exact h.elim
  | notANumber => exact h.elim
  | zero s => exact .inl ⟨s, rfl⟩
  | finite s m e hm =>
    cases s with
    | negative => exact h.elim
    | positive => exact .inr ⟨m, e, hm, rfl, h⟩

theorem Below.normalize {m : Nat} {e : Int} (h : Below k m e) (hk : -1074 ≤ k) :
    Small (k + 1) (normalize .binary64 m e .positive) := by
  unfold UnpackedFloat.normalize
  split
  · rename_i hlt
    have hneg := Int.compare_eq_lt.1 hlt
    omega
  · trivial
  · exact Below.round h hk

theorem Small.mul (hf : Small k f) (hg : Small k' g) (hk : -1074 ≤ k + k') :
    Small (k + k' + 1) (mul .binary64 f g) := by
  obtain ⟨s, rfl⟩ | ⟨m, e, hm, rfl, j, hlt, hj⟩ := hf.cases
  · obtain ⟨s', rfl⟩ | ⟨m', e', hm', rfl, _⟩ := hg.cases
    · trivial
    · trivial
  · obtain ⟨s', rfl⟩ | ⟨m', e', hm', rfl, j', hlt', hj'⟩ := hg.cases
    · trivial
    · have hprod : Below (k + k') (m * m') (e + e') := by
        refine ⟨j + j', ?_, by omega⟩
        rw [Nat.pow_add]
        exact Nat.mul_lt_mul'' hlt hlt'
      exact hprod.roundWithAccuracy hk

theorem Small.add (hf : Small k f) (hg : Small k g) (hk : -1074 ≤ k) :
    Small (k + 2) (add .binary64 f g) := by
  obtain ⟨s, rfl⟩ | ⟨m, e, hm, rfl, hbelow⟩ := hf.cases
  · obtain ⟨s', rfl⟩ | ⟨m', e', hm', rfl, _⟩ := hg.cases
    · unfold UnpackedFloat.add
      dsimp only
      split <;> trivial
    · exact hg.mono (by omega)
  · obtain ⟨s', rfl⟩ | ⟨m', e', hm', rfl, hbelow'⟩ := hg.cases
    · exact hf.mono (by omega)
    · have hsum := (hbelow.aligned (Int.min_le_left e e')).add
        (hbelow'.aligned (Int.min_le_right e e'))
      have hsmall := hsum.normalize (by omega)
      rw [Int.natCast_add] at hsmall
      exact hsmall.mono (by omega)

theorem Small.div (hf : Small k f) {m : Nat} {e : Int} {hm : 0 < m} (hk : -1074 ≤ k - e) :
    Small (k - e + 1) (div .binary64 f (.finite .positive m e hm)) := by
  obtain ⟨s, rfl⟩ | ⟨m', e', hm', rfl, j, hlt, hj⟩ := hf.cases
  · trivial
  · unfold UnpackedFloat.div divCore
    dsimp only
    refine Below.roundWithAccuracy ?_ hk
    generalize htarget : min (e' - e) (Format.binary64.targetExponent
      (totalExponent m' e' - totalExponent m e)) = target
    have hle : target ≤ e' - e := by
      rw [← htarget]
      exact Int.min_le_left ..
    refine ⟨j + (e' - e - target).toNat, ?_, by omega⟩
    refine Nat.lt_of_le_of_lt (Nat.div_le_self ..) ?_
    rw [Nat.shiftLeft_eq, Nat.pow_add]
    exact Nat.mul_lt_mul_of_pos_right hlt (Nat.two_pow_pos _)

theorem Under.mono (h : Under k x) (hk : k ≤ k') : Under k' x := Small.mono h hk

theorem under_pack (h : Small k f) (hk : -1021 ≤ k) (hk' : k ≤ 900) : Under k (.ofModel (.pack f)) :=
  h.pack hk hk'

theorem Under.mul (hx : Under k x) (hy : Under k' y) (hk : -1022 ≤ k + k') (hk' : k + k' < 900) :
    Under (k + k' + 1) (x * y) :=
  under_pack (Small.mul hx hy (by omega)) (by omega) (by omega)

theorem Under.add (hx : Under k x) (hy : Under k y) (hk : -1023 ≤ k) (hk' : k < 898) :
    Under (k + 2) (x + y) :=
  under_pack (Small.add hx hy (by omega)) (by omega) (by omega)

theorem unpack_billion : (1e9 : Float).toModel.unpack =
    .finite .positive 8388608000000000 (-23) (by decide) := rfl

theorem Under.div_billion (hx : Under k x) (hk : -1000 ≤ k) (hk' : k < 800) :
    Under (k + 24) (x / 1e9) := by
  have hquotient : Small (k - (-23) + 1) (UnpackedFloat.div .binary64 x.toModel.unpack
      (1e9 : Float).toModel.unpack) := by
    rw [unpack_billion]
    exact Small.div hx (by omega)
  exact under_pack (hquotient.mono (by omega)) (by omega) (by omega)

theorem under_toFloat {n : UInt64} {j : Nat} (hn : n.toNat < 2 ^ j) (hj : j < 900) :
    Under (j + 1) n.toFloat := by
  have hbelow : Below j n.toNat 0 := ⟨j, hn, by omega⟩
  exact under_pack (hbelow.normalize (by omega)) (by omega) (by omega)

theorem unpack_mantissa_lt {b : BitVec 64} {s : Sign} {m : Nat} {e : Int} {hm : 0 < m}
    (h : unpack .binary64 b = .finite s m e hm) : m < 2 ^ 53 := by
  unfold UnpackedFloat.unpack at h
  dsimp only at h
  split at h
  · split at h <;> cases h
  · split at h
    · split at h
      · cases h
      · cases h
        exact Nat.lt_trans (unpackMantissa _).isLt (by decide)
    · cases h
      exact (1#1 ++ unpackMantissa _).isLt

theorem unpack_zero : (0.0 : Float).toModel.unpack = .zero .positive := rfl

theorem unpack_one : (1.0 : Float).toModel.unpack =
    .finite .positive 4503599627370496 (-52) (by decide) := rfl

theorem under_unit (h₀ : 0.0 ≤ x) (h₁ : x ≤ 1.0) : Under 1 x := by
  have h₀ : UnpackedFloat.le (0.0 : Float).toModel.unpack x.toModel.unpack = true :=
    of_decide_eq_true h₀
  have h₁ : UnpackedFloat.le x.toModel.unpack (1.0 : Float).toModel.unpack = true :=
    of_decide_eq_true h₁
  rw [unpack_zero] at h₀
  rw [unpack_one] at h₁
  unfold Under
  cases hx : x.toModel.unpack with
  | infinity s =>
    rw [hx] at h₀ h₁
    cases s with
    | negative => cases h₀
    | positive => cases h₁
  | notANumber =>
    rw [hx] at h₀
    cases h₀
  | zero s => trivial
  | finite s m e hm =>
    rw [hx] at h₀ h₁
    cases s with
    | negative => cases h₀
    | positive =>
      have hle : ((compare e (-52)).then (compare m 4503599627370496)).isLE = true := h₁
      have hexponent : e ≤ -52 := Int.isLE_compare.1 (Ordering.isLE_left_of_isLE_then hle)
      exact ⟨53, unpack_mantissa_lt hx, by omega⟩

end Operations
section Parts

variable {k : Int} {x : Float}

theorem toNat_unpackMantissa (b : BitVec Format.binary64.numBits) :
    (unpackMantissa b).toNat = b.toNat % hiddenBit := by
  simp [unpackMantissa, BitVec.extractLsb_toNat, hiddenBit]

theorem toNat_unpackExponent (b : BitVec Format.binary64.numBits) :
    (unpackExponent b).toNat = b.toNat / hiddenBit % 2048 := by
  simp [unpackExponent, BitVec.extractLsb_toNat, hiddenBit, Nat.shiftRight_eq_div_pow]

theorem toNat_unpackSign (b : BitVec Format.binary64.numBits) :
    (unpackSign b).toNat = b.toNat / 0x8000000000000000 := by
  have hb : b.toNat < 2 ^ 64 := b.isLt
  simp [unpackSign, BitVec.extractLsb_toNat, Nat.shiftRight_eq_div_pow]
  omega

theorem Small.finite_sign {b : BitVec Format.binary64.numBits} {m : Nat} {e : Int} {hm : 0 < m}
    (h : Small k (.finite (Sign.ofBitVec (unpackSign b)) m e hm)) :
    (unpackSign b).toNat = 0 ∧ Below k m e := by
  unfold Sign.ofBitVec at h
  split at h
  · rename_i hsign
    rw [hsign]
    exact ⟨rfl, h⟩
  · exact h.elim

theorem parts_of_under (h : Under k x) : ∃ p, parts? x = some p ∧ p.significand < 2 ^ 53 ∧
    (p.significand ≠ 0 → p.negative = false ∧ Below k p.significand p.exponent) := by
  let b : BitVec Format.binary64.numBits := x.toModel.toBits.toBitVec
  have hbits : x.toBits.toNat = b.toNat := rfl
  have hmantissa : (unpackMantissa b).toNat < 2 ^ 52 := (unpackMantissa b).isLt
  have h : Small k (unpack .binary64 b) := h
  unfold parts?
  dsimp only
  rw [hbits, ← toNat_unpackSign, ← toNat_unpackExponent, ← toNat_unpackMantissa]
  unfold UnpackedFloat.unpack at h
  dsimp only at h
  split at h
  · split at h <;> exact h.elim
  · rename_i hfinite
    have hfinite : (unpackExponent b).toNat ≠ 2047 := fun hall =>
      hfinite (BitVec.eq_of_toNat_eq hall)
    rw [if_neg hfinite]
    split at h
    · rename_i hzero
      have hzero : (unpackExponent b).toNat = 0 := congrArg BitVec.toNat hzero
      rw [if_pos hzero]
      refine ⟨_, rfl, by dsimp only; omega, fun hne => ?_⟩
      split at h
      · rename_i hnone
        exact absurd (congrArg BitVec.toNat hnone) hne
      · obtain ⟨hsign, hbelow⟩ := h.finite_sign
        rw [hzero] at hbelow
        exact ⟨by rw [hsign]; rfl, hbelow⟩
    · rename_i hne
      have hne : (unpackExponent b).toNat ≠ 0 := fun hzero => hne (BitVec.eq_of_toNat_eq hzero)
      rw [if_neg hne]
      refine ⟨_, rfl, by dsimp only [hiddenBit]; omega, fun _ => ?_⟩
      obtain ⟨hsign, hbelow⟩ := h.finite_sign
      refine ⟨by rw [hsign]; rfl, ?_⟩
      have hwhole : (1#1 ++ unpackMantissa b).toNat = (unpackMantissa b).toNat + hiddenBit := by
        rw [BitVec.toNat_append, ← Nat.shiftLeft_add_eq_or_of_lt (unpackMantissa b).isLt]
        exact Nat.add_comm ..
      rw [hwhole] at hbelow
      exact hbelow

theorem roundDiv_le (n : Nat) (d : Nat) : roundDiv n d ≤ n + 1 := by
  have hdiv := Nat.div_le_self n d
  unfold roundDiv
  dsimp only
  split
  · omega
  · split
    · omega
    · split <;> omega

theorem roundScaled_lt {n : Nat} {q : Int} (hn : n < 2 ^ 53) (h : n ≠ 0 → Below 64 n q) :
    roundScaled (n * 1_000_000_000) q < Duration.limit := by
  unfold roundScaled
  split
  · rename_i hq
    by_cases hzero : n = 0
    · subst hzero
      rw [Nat.zero_mul]
      decide
    · obtain ⟨j, hlt, hj⟩ := h hzero
      have hscaled : n * 2 ^ q.toNat < 2 ^ 64 := by
        calc n * 2 ^ q.toNat
          _ < 2 ^ j * 2 ^ q.toNat := Nat.mul_lt_mul_of_pos_right hlt (Nat.two_pow_pos _)
          _ = 2 ^ (j + q.toNat) := (Nat.pow_add ..).symm
          _ ≤ 2 ^ 64 := Nat.pow_le_pow_right (by decide) (by omega)
      show n * 1_000_000_000 * 2 ^ q.toNat < 2 ^ 64 * 1_000_000_000
      rw [Nat.mul_right_comm]
      exact Nat.mul_lt_mul_of_pos_right hscaled (by decide)
  · have hle := roundDiv_le (n * 1_000_000_000) (Nat.pow 2 (-q).toNat)
    simp only [Duration.limit, UInt64.size]
    omega

/-- A number of seconds below `2^64` is a length of time. -/
theorem ofFloat?_of_under (h : Under 64 x) : Duration.ofFloat? x ≠ none := by
  obtain ⟨p, hp, hlt, hrest⟩ := parts_of_under h
  have hsign : (p.negative && p.significand != 0) = false := by
    by_cases hzero : p.significand = 0
    · simp [hzero]
    · rw [(hrest hzero).1, Bool.false_and]
  unfold Duration.ofFloat?
  rw [hp]
  dsimp only
  rw [hsign]
  have hround := roundScaled_lt hlt fun hne => (hrest hne).2
  simp [Duration.ofNanos?, hround]

end Parts
end WorkerGuard.Number
