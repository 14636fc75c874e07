/-
What single-precision patterns stand for, and how they are clamped. `Single.value?` is the number that a pattern stands for
as the binary interchange format has it: the fields are unpacked, infinities are the ends of the extended reals, both zeros
are 0 and a NaN is no number. The model never computes with it; it goes by `rank`, the signed magnitude of the bits. That
is enough, for ranks order patterns as their numbers are ordered (`rank_le_rank_iff`): read in units of the least positive
number, the magnitudes of finite numbers ascend strictly (`strictMono_units`), whatever the exponents, and infinity comes
after them.

So `clampUnit` takes each number to the point of [-1, 1] that is nearest to it, and touches no other pattern
(`clamped_clampUnit`).
-/
import Mathlib
import InputRelay.Single

namespace InputRelay.Single

open Float.Model (Format UnpackedFloat)
open Float.Model.UnpackedFloat

/-! ## Numbers -/

/-- a size with a sign -/
noncomputable def signed : Sign → EReal → EReal
  | .positive, size => size
  | .negative, size => -size

/-- the number that an unpacked float stands for, if any -/
noncomputable def number? : UnpackedFloat → Option EReal
  | .notANumber => none
  | .infinity sign => some (signed sign ⊤)
  | .zero sign => some (signed sign 0)
  | .finite sign mantissa exponent _ => some (signed sign ((mantissa * 2 ^ exponent : ℝ) : EReal))

/-- the number that a pattern stands for; a NaN stands for none -/
noncomputable def value? (x : Single) : Option EReal := number? (unpack Format.binary32 x.bits.toBitVec)

/-- the size of a finite number by its magnitude bits, in units of the least positive number -/
def units (magnitude : ℕ) : ℕ :=
  if magnitude / 2 ^ 23 = 0 then magnitude % 2 ^ 23
  else (2 ^ 23 + magnitude % 2 ^ 23) * 2 ^ (magnitude / 2 ^ 23 - 1)

theorem units_lt_succ (m : ℕ) : units m < units (m + 1) := by
  have hpos : ∀ e, 0 < 2 ^ e := fun e => Nat.two_pow_pos e
  unfold units
  by_cases hcarry : (m + 1) % 2 ^ 23 = 0
  · -- the fraction is full: the next magnitude has the next exponent
    have hfull : m % 2 ^ 23 = 2 ^ 23 - 1 := by omega
    have hnext : (m + 1) / 2 ^ 23 = m / 2 ^ 23 + 1 := by omega
    rw [hcarry, hnext, hfull, if_neg (Nat.succ_ne_zero _), Nat.add_sub_cancel]
    split_ifs with hzero
    · rw [hzero]
      norm_num
    · obtain ⟨e, he⟩ := Nat.exists_eq_succ_of_ne_zero hzero
      rw [he, Nat.succ_sub_one, Nat.pow_succ]
      have := hpos e
      omega
  · have hfraction : (m + 1) % 2 ^ 23 = m % 2 ^ 23 + 1 := by omega
    have hsame : (m + 1) / 2 ^ 23 = m / 2 ^ 23 := by omega
    rw [hfraction, hsame]
    split_ifs
    · exact Nat.lt_succ_self _
    · exact Nat.mul_lt_mul_of_pos_right (by omega) (hpos _)

theorem strictMono_units : StrictMono units := strictMono_nat_of_lt_succ units_lt_succ

/-- the size of a number by its magnitude bits -/
noncomputable def size (magnitude : ℕ) : EReal :=
  if magnitude < 0x7f800000 then ((units magnitude * 2 ^ (-149 : ℤ) : ℝ) : EReal) else ⊤

theorem size_lt_size {m n : ℕ} (h : m < n) (hn : n ≤ 0x7f800000) : size m < size n := by
  have hm : m < 0x7f800000 := h.trans_le hn
  unfold size
  rw [if_pos hm]
  split_ifs
  · have hunits : (units m : ℝ) < units n := Nat.cast_lt.2 (strictMono_units h)
    have hunit : (0 : ℝ) < 2 ^ (-149 : ℤ) := by positivity
    exact EReal.coe_lt_coe_iff.2 (mul_lt_mul_of_pos_right hunits hunit)
  · exact EReal.coe_lt_top _

theorem size_zero : size 0 = 0 := by simp [size, units]

theorem size_nonneg (m : ℕ) : 0 ≤ size m := by
  unfold size
  split_ifs
  · exact EReal.coe_nonneg.2 (by positivity)
  · exact le_top

theorem size_pos {m : ℕ} (h : 0 < m) (hm : m ≤ 0x7f800000) : 0 < size m := size_zero ▸ size_lt_size h hm

theorem size_infinite : size 0x7f800000 = ⊤ := if_neg (Nat.lt_irrefl _)

/-- below the least normal number the magnitude is the fraction -/
theorem size_subnormal {m : ℕ} (h : m / 2 ^ 23 = 0) : size m = (((m % 2 ^ 23 : ℕ) * 2 ^ (-149 : ℤ) : ℝ) : EReal) := by
  have hfinite : m < 0x7f800000 := by omega
  rw [size, if_pos hfinite, units, if_pos h]

/-- from there on the fraction has a leading one, and the exponent scales it -/
theorem size_normal {m : ℕ} (h : m / 2 ^ 23 ≠ 0) (hm : m / 2 ^ 23 < 255) :
    size m = (((2 ^ 23 + m % 2 ^ 23 : ℕ) * 2 ^ ((m / 2 ^ 23 : ℕ) - 150 : ℤ) : ℝ) : EReal) := by
  have hfinite : m < 0x7f800000 := by omega
  obtain ⟨e, he⟩ := Nat.exists_eq_succ_of_ne_zero h
  have hscale : (2 : ℝ) ^ ((e.succ : ℕ) - 150 : ℤ) = 2 ^ e * 2 ^ (-149 : ℤ) := by
    have hsum : ((e.succ : ℕ) - 150 : ℤ) = e + -149 := by
      push_cast
      ring
    rw [hsum, zpow_add₀ (by norm_num), zpow_natCast]
  rw [size, if_pos hfinite, units, if_neg h, he, hscale, Nat.succ_sub_one]
  push_cast
  rw [mul_assoc]

/-- the number with a rank -/
noncomputable def ranked (r : ℤ) : EReal := if r < 0 then -size r.natAbs else size r.natAbs

theorem ranked_strictMonoOn : StrictMonoOn ranked (Set.Icc (-0x7f800000) 0x7f800000) := by
  intro r hr t ht hlt
  obtain ⟨hrlow, hrhigh⟩ := hr
  obtain ⟨htlow, hthigh⟩ := ht
  unfold ranked
  split_ifs with hr0 ht0 ht0
  · exact EReal.neg_lt_neg_iff.2 (size_lt_size (by omega) (by omega))
  · have hneg : -size r.natAbs < 0 := by
      rw [EReal.neg_lt_comm, neg_zero]
      exact size_pos (by omega) (by omega)
    rcases Nat.eq_zero_or_pos t.natAbs with hzero | hpos
    · rw [hzero, size_zero]
      exact hneg
    · exact hneg.trans (size_pos hpos (by omega))
  · omega
  · exact size_lt_size (by omega) (by omega)

/-! ## Fields -/

theorem unpackExponent_toNat (x : Single) :
    (@unpackExponent Format.binary32 x.bits.toBitVec).toNat = x.magnitude / 2 ^ 23 := by
  simp only [unpackExponent, BitVec.toNat_cast, BitVec.extractLsb_toNat, Nat.shiftRight_eq_div_pow, magnitude,
    UInt32.toNat_toBitVec]
  omega

theorem unpackMantissa_toNat (x : Single) :
    (@unpackMantissa Format.binary32 x.bits.toBitVec).toNat = x.magnitude % 2 ^ 23 := by
  simp only [unpackMantissa, BitVec.toNat_cast, BitVec.extractLsb_toNat, Nat.shiftRight_eq_div_pow, magnitude,
    UInt32.toNat_toBitVec]
  omega

/-- the sign that a pattern shows -/
def sign (x : Single) : Sign := if x.isNegative then .negative else .positive

theorem unpackSign_eq (x : Single) : Sign.ofBitVec (@unpackSign Format.binary32 x.bits.toBitVec) = x.sign := by
  have hsign : (@unpackSign Format.binary32 x.bits.toBitVec).toNat = if x.isNegative then 1 else 0 := by
    have hbits := x.bits.toNat_lt
    simp only [unpackSign, BitVec.toNat_cast, BitVec.extractLsb_toNat, Nat.shiftRight_eq_div_pow, isNegative,
      UInt32.toNat_toBitVec, decide_eq_true_eq]
    split_ifs <;> omega
  unfold Sign.ofBitVec sign
  cases hneg : x.isNegative with
  | false =>
    rw [hneg] at hsign
    exact if_pos (BitVec.eq_of_toNat_eq hsign)
  | true =>
    rw [hneg] at hsign
    refine if_neg fun hzero => ?_
    rw [hzero] at hsign
    cases hsign

/-! ## Ranks -/

theorem ranked_rank (x : Single) : ranked x.rank = signed x.sign (size x.magnitude) := by
  unfold ranked rank sign
  cases x.isNegative with
  | false => simp [signed]
  | true =>
    simp only [if_true, Int.natAbs_neg, Int.natAbs_natCast, signed]
    rcases Nat.eq_zero_or_pos x.magnitude with hzero | hpos
    · simp [hzero, size_zero]
    · rw [if_pos (by omega)]

/-- a pattern stands for the number that has its rank -/
theorem value?_eq (x : Single) : x.value? = if x.isNaN then none else some (ranked x.rank) := by
  have hmagnitude : x.magnitude < 2 ^ 31 := Nat.mod_lt _ (by decide)
  have hones : @unpackExponent Format.binary32 x.bits.toBitVec = -1#8 ↔ x.magnitude / 2 ^ 23 = 255 := by
    rw [← BitVec.toNat_inj, unpackExponent_toNat]
    rfl
  have hlow : @unpackExponent Format.binary32 x.bits.toBitVec = 0#8 ↔ x.magnitude / 2 ^ 23 = 0 := by
    rw [← BitVec.toNat_inj, unpackExponent_toNat]
    rfl
  have hwhole : @unpackMantissa Format.binary32 x.bits.toBitVec = 0#23 ↔ x.magnitude % 2 ^ 23 = 0 := by
    rw [← BitVec.toNat_inj, unpackMantissa_toNat]
    rfl
  rw [ranked_rank, value?, unpack]
  simp only [unpackSign_eq, isNaN, decide_eq_true_eq]
  generalize x.sign = sign
  by_cases h255 : x.magnitude / 2 ^ 23 = 255
  · rw [if_pos (hones.2 h255)]
    by_cases hfraction : x.magnitude % 2 ^ 23 = 0
    · have hinfinite : x.magnitude = 0x7f800000 := by omega
      rw [if_pos (hwhole.2 hfraction), hinfinite, if_neg (Nat.lt_irrefl _), size_infinite]
      rfl
    · have hnan : 0x7f800000 < x.magnitude := by omega
      rw [if_neg fun h => hfraction (hwhole.1 h), if_pos hnan]
      rfl
  · have hnumber : ¬ 0x7f800000 < x.magnitude := by omega
    rw [if_neg fun h => h255 (hones.1 h), if_neg hnumber]
    by_cases hzero : x.magnitude / 2 ^ 23 = 0
    · rw [if_pos (hlow.2 hzero), size_subnormal hzero]
      by_cases hfraction : x.magnitude % 2 ^ 23 = 0
      · rw [dif_pos (hwhole.2 hfraction), hfraction]
        simp [number?]
      · rw [dif_neg fun h => hfraction (hwhole.1 h)]
        simp only [number?, unpackMantissa_toNat, unpackExponent_toNat, hzero]
        rfl
    · rw [if_neg fun h => hzero (hlow.1 h), size_normal hzero (by omega)]
      have hlead : (1#1 ++ @unpackMantissa Format.binary32 x.bits.toBitVec).toNat = 2 ^ 23 + x.magnitude % 2 ^ 23 := by
        have hfraction : x.magnitude % 2 ^ 23 < 2 ^ 23 := Nat.mod_lt _ (by decide)
        rw [BitVec.toNat_append, unpackMantissa_toNat]
        exact (Nat.shiftLeft_add_eq_or_of_lt hfraction 1).symm
      simp only [number?, hlead, unpackExponent_toNat]
      rfl

/-! ## Order -/

theorem rank_mem {x : Single} (h : x.isNaN = false) : x.rank ∈ Set.Icc (-0x7f800000 : ℤ) 0x7f800000 := by
  have hmagnitude : x.magnitude ≤ 0x7f800000 := by simpa [isNaN] using h
  unfold rank
  split_ifs
  · exact ⟨by omega, by omega⟩
  · exact ⟨by omega, by omega⟩

theorem value?_eq_none_iff {x : Single} : x.value? = none ↔ x.isNaN = true := by
  rw [value?_eq]
  split_ifs with hnan <;> simp [hnan]

theorem value?_eq_some_iff {x : Single} {v : EReal} : x.value? = some v ↔ x.isNaN = false ∧ ranked x.rank = v := by
  rw [value?_eq]
  split_ifs with hnan <;> simp [hnan]

/-- ranks order patterns as the numbers that they stand for are ordered -/
theorem rank_le_rank_iff {x y : Single} {v u : EReal} (hx : x.value? = some v) (hy : y.value? = some u) :
    x.rank ≤ y.rank ↔ v ≤ u := by
  obtain ⟨hxn, rfl⟩ := value?_eq_some_iff.1 hx
  obtain ⟨hyn, rfl⟩ := value?_eq_some_iff.1 hy
  exact (ranked_strictMonoOn.le_iff_le (rank_mem hxn) (rank_mem hyn)).symm

theorem size_one : size 0x3f800000 = 1 := by
  rw [size_normal (by norm_num) (by norm_num)]
  norm_num [zpow_neg]

theorem value?_one : one.value? = some 1 := by
  have hmagnitude : one.magnitude = 0x3f800000 := by decide
  refine value?_eq_some_iff.2 ⟨rfl, ?_⟩
  rw [ranked_rank, hmagnitude, size_one]
  rfl

theorem value?_minusOne : minusOne.value? = some (-1) := by
  have hmagnitude : minusOne.magnitude = 0x3f800000 := by decide
  refine value?_eq_some_iff.2 ⟨rfl, ?_⟩
  rw [ranked_rank, hmagnitude, size_one]
  rfl

theorem ends_le : (-1 : EReal) ≤ 1 := (rank_le_rank_iff value?_minusOne value?_one).1 (by decide)

/-- the sign bit goes with the sign of the number, which may be zero under either -/
theorem isNegative_of_value? {x : Single} {v : EReal} (hx : x.value? = some v) :
    (v < 0 → x.isNegative = true) ∧ (0 < v → x.isNegative = false) := by
  obtain ⟨-, rfl⟩ := value?_eq_some_iff.1 hx
  have hsize := size_nonneg x.magnitude
  rw [ranked_rank, sign]
  cases x.isNegative with
  | false => exact ⟨fun h => absurd h (not_lt_of_ge hsize), fun _ => rfl⟩
  | true =>
    have hneg : -size x.magnitude ≤ 0 := by
      rw [EReal.neg_le, neg_zero]
      exact hsize
    exact ⟨fun _ => rfl, fun h => absurd h (not_lt_of_ge hneg)⟩

/-! ## Clamping -/

/-- a pattern as it is sent: a NaN and a number of [-1, 1] are left alone, any other number becomes 1 or -1, with its own
sign; and that is the nearest point of [-1, 1], for on the way from the number to any other point it is passed -/
structure Clamped (x y : Single) : Prop where
  nan : x.value? = none → y = x
  inside : ∀ v, x.value? = some v → v ∈ Set.Icc (-1) 1 → y = x
  outside : ∀ v, x.value? = some v → v ∉ Set.Icc (-1) 1 → y = if x.isNegative then minusOne else one
  nearest : ∀ v, x.value? = some v →
    ∃ u ∈ Set.Icc (-1) 1, y.value? = some u ∧ ∀ p ∈ Set.Icc (-1) 1, u ∈ Set.uIcc v p

theorem clampUnit_of_value?_none {x : Single} (h : x.value? = none) : x.clampUnit = x :=
  if_pos (value?_eq_none_iff.1 h)

section Numbers

variable {x : Single} {v : EReal} (hx : x.value? = some v)

include hx

theorem clampUnit_below (h : v < -1) : x.clampUnit = minusOne := by
  have hnumber : x.isNaN = false := (value?_eq_some_iff.1 hx).1
  have hrank : x.rank < minusOne.rank := by
    rw [← not_le, rank_le_rank_iff value?_minusOne hx]
    exact not_le_of_gt h
  rw [clampUnit, if_neg (by simp [hnumber]), if_pos hrank]

theorem clampUnit_above (h : 1 < v) : x.clampUnit = one := by
  have hnumber : x.isNaN = false := (value?_eq_some_iff.1 hx).1
  have hrank : one.rank < x.rank := by
    rw [← not_le, rank_le_rank_iff hx value?_one]
    exact not_le_of_gt h
  have hlow : ¬ x.rank < minusOne.rank := by
    have hends : minusOne.rank < one.rank := by decide
    exact not_lt_of_ge (hends.trans hrank).le
  rw [clampUnit, if_neg (by simp [hnumber]), if_neg hlow, if_pos hrank]

theorem clampUnit_inside (h : v ∈ Set.Icc (-1) 1) : x.clampUnit = x := by
  have hlow : ¬ x.rank < minusOne.rank := not_lt_of_ge ((rank_le_rank_iff value?_minusOne hx).2 h.1)
  have hhigh : ¬ one.rank < x.rank := not_lt_of_ge ((rank_le_rank_iff hx value?_one).2 h.2)
  rw [clampUnit, if_neg hlow, if_neg hhigh, ite_self]

/-- the number that a number is clamped to -/
theorem value?_clampUnit : x.clampUnit.value? = some (max (-1) (min v 1)) := by
  rcases lt_or_ge v (-1) with hlow | hlow
  · have hends : v ≤ 1 := hlow.le.trans ends_le
    rw [clampUnit_below hx hlow, value?_minusOne, min_eq_left hends, max_eq_left hlow.le]
  · rcases lt_or_ge 1 v with hhigh | hhigh
    · rw [clampUnit_above hx hhigh, value?_one, min_eq_right hhigh.le, max_eq_right ends_le]
    · rw [clampUnit_inside hx ⟨hlow, hhigh⟩, hx, min_eq_left hhigh, max_eq_right hlow]

end Numbers

theorem clamped_clampUnit (x : Single) : Clamped x x.clampUnit where
  nan h := clampUnit_of_value?_none h
  inside v hv h := clampUnit_inside hv h
  outside v hv h := by
    obtain ⟨hbelow, habove⟩ := isNegative_of_value? hv
    rcases lt_or_ge v (-1) with hlow | hlow
    · have hnegative : v < 0 := hlow.trans (by norm_num)
      rw [clampUnit_below hv hlow, if_pos (hbelow hnegative)]
    · have hhigh : 1 < v := lt_of_not_ge fun hhigh => h ⟨hlow, hhigh⟩
      have hpositive : 0 < v := lt_trans (by norm_num) hhigh
      rw [clampUnit_above hv hhigh, habove hpositive]
      rfl
  nearest v hv := by
    refine ⟨max (-1) (min v 1), ⟨le_max_left _ _, max_le ends_le (min_le_right _ _)⟩, value?_clampUnit hv, ?_⟩
    rintro p ⟨hlow, hhigh⟩
    rcases le_total v p with hle | hle
    · rw [Set.uIcc_of_le hle, min_eq_left (hle.trans hhigh)]
      exact ⟨le_max_right _ _, max_le hlow hle⟩
    · rw [Set.uIcc_of_ge hle]
      exact ⟨le_max_of_le_right (le_min hle hhigh), max_le (hlow.trans hle) (min_le_left _ _)⟩

/-- what is clamped already stays as it is -/
theorem clampUnit_clampUnit (x : Single) : x.clampUnit.clampUnit = x.clampUnit := by
  cases hx : x.value? with
  | none => rw [clampUnit_of_value?_none hx, clampUnit_of_value?_none hx]
  | some v =>
    obtain ⟨u, hu, hvalue, -⟩ := (clamped_clampUnit x).nearest v hx
    exact clampUnit_inside hvalue hu

/-- clamping keeps the order of numbers -/
theorem clampUnit_mono {x y : Single} {v u : EReal} (hx : x.value? = some v) (hy : y.value? = some u) (h : v ≤ u) :
    ∃ v' u', x.clampUnit.value? = some v' ∧ y.clampUnit.value? = some u' ∧ v' ≤ u' :=
  ⟨_, _, value?_clampUnit hx, value?_clampUnit hy, max_le_max le_rfl (min_le_min h le_rfl)⟩

end InputRelay.Single
