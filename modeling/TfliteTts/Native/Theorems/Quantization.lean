import TfliteTts.Native.Theorems.Samples

-- How samples and integers are related.
namespace Native.AudioFile

open Binary32 (Value unity value round ofRatio)

variable {w : Word} {n s : Int}

-- The integer part is between zero and the number, and closer to the number than 1.
theorem one_mul_tdiv (a : Int) :
    (0 ≤ a → unity * a.tdiv unity ≤ a ∧ a < unity * a.tdiv unity + unity) ∧
      (a ≤ 0 → a ≤ unity * a.tdiv unity ∧ unity * a.tdiv unity < a + unity) := by
  have hc : 0 < unity := by decide
  constructor
  case left =>
    intro h
    rw [Int.tdiv_eq_ediv_of_nonneg h]
    exact ⟨Int.mul_ediv_self_le (Int.ne_of_gt hc), Int.lt_mul_ediv_self_add hc⟩
  case right =>
    intro h
    have ht : a.tdiv unity = -(-a / unity) := by
      rw [← Int.tdiv_eq_ediv_of_nonneg (by omega), Int.neg_tdiv, Int.neg_neg]
    have h₁ := @Int.mul_ediv_self_le (-a) unity (Int.ne_of_gt hc)
    have h₂ := @Int.lt_mul_ediv_self_add (-a) unity hc
    rw [ht, Int.mul_neg]
    omega

theorem toInteger_finite_of_mem (h : least ≤ n.tdiv unity ∧ n.tdiv unity ≤ greatest) :
    toInteger least greatest (.finite n) = .ok (n.tdiv unity) := by
  simp only [toInteger, Value.truncate, if_pos h]

theorem clampSample_of_finite (h : value w = .finite n) : clampSample w = .finite (max (min n unity) (-unity)) := by
  rw [clampSample, clamp, h, Value.min_finite, Value.max_finite]

-- A sample other than the one that is not a number is clamped to a number.
theorem clampSample_cases (w : Word) :
    value w = .nan ∧ clampSample w = .nan ∨
      value w ≠ .nan ∧ ∃ n, clampSample w = .finite n ∧ -unity ≤ n ∧ n ≤ unity := by
  have hone : -unity ≤ unity := by decide
  cases h : value w
  case nan => exact .inl ⟨rfl, by rw [clampSample, h]; rfl⟩
  case finite n => exact .inr ⟨nofun, _, clampSample_of_finite h, by omega, by omega⟩
  case infinite negative =>
    refine .inr ⟨nofun, ?_⟩
    cases negative
    case false => exact ⟨unity, by rw [clampSample, h]; decide, hone, Int.le_refl unity⟩
    case true  => exact ⟨-unity, by rw [clampSample, h]; decide, Int.le_refl _, hone⟩

theorem clampSample_of_mem (h : value w = .finite n) (hn : -unity ≤ n ∧ n ≤ unity) : clampSample w = .finite n := by
  rw [clampSample_of_finite h]
  congr 1
  omega

-- 16 bits

theorem sampleToSixteenBitInt_of_finite (h : clampSample w = .finite n) (hn : -unity ≤ n ∧ n ≤ unity) :
    sampleToSixteenBitInt w = .ok ((n * 32767).tdiv unity) := by
  have ⟨h₁, h₂⟩ := one_mul_tdiv (n * 32767)
  rw [sampleToSixteenBitInt, h]
  refine toInteger_finite_of_mem ?_
  simp only [unity] at *
  omega

theorem sampleToSixteenBitInt_sixteenBitIntToSample (h : -2 ^ 15 ≤ s) (h' : s < 2 ^ 15) :
    sampleToSixteenBitInt (sixteenBitIntToSample s) = .ok (s - s.sign) := by
  have hv : value (sixteenBitIntToSample s) = .finite (s * 2 ^ 134) := Binary32.value_ofRatio <| by omega
  have hn : -unity ≤ s * 2 ^ 134 ∧ s * 2 ^ 134 ≤ unity := by
    simp only [unity]
    omega
  rw [sampleToSixteenBitInt_of_finite (clampSample_of_mem hv hn) hn]
  have ⟨h₁, h₂⟩ := one_mul_tdiv (s * 2 ^ 134 * 32767)
  congr 1
  simp only [unity] at *
  obtain hs | hs | hs := Int.lt_trichotomy s 0
  case inl     => rw [Int.sign_eq_neg_one_of_neg hs]; omega
  case inr.inl => simp [hs]
  case inr.inr => rw [Int.sign_eq_one_of_pos hs]; omega

-- 8 bits

-- The number that is multiplied by 255.
def half (n : Int) : Int :=
  round 24 (round 53 (n + unity) / 2)

theorem sampleToSingleByte_of_finite (h : clampSample w = .finite n) (hn : -unity ≤ n ∧ n ≤ unity) :
    0 ≤ half n ∧ half n ≤ unity ∧ sampleToSingleByte w = .ok ((half n * 255).tdiv unity) := by
  have ⟨h₁, h₁'⟩ := @Binary32.round_le 53 150 (n + unity) (by decide) (by omega) (by simp only [unity] at *; omega)
  have ⟨h₂, h₂'⟩ := @Binary32.round_le 24 149 (round 53 (n + unity) / 2) (by decide) (by omega) (by omega)
  refine ⟨h₂, h₂', ?_⟩
  have ⟨h₃, _⟩ := one_mul_tdiv (half n * 255)
  rw [sampleToSingleByte, h]
  refine toInteger_finite_of_mem ?_
  simp only [half, unity] at *
  omega

theorem sampleToSingleByte_singleByteToSample (h : 0 ≤ s) (h' : s < 2 ^ 8) :
    sampleToSingleByte (singleByteToSample s) = .ok (max (s - 1) 0) := by
  have hv : value (singleByteToSample s) = .finite ((s - 128) * 2 ^ 142) := Binary32.value_ofRatio <| by omega
  have hn : -unity ≤ (s - 128) * 2 ^ 142 ∧ (s - 128) * 2 ^ 142 ≤ unity := by
    simp only [unity]
    omega
  have ⟨_, _, hb⟩ := sampleToSingleByte_of_finite (clampSample_of_mem hv hn) hn
  have hs : (s - 128) * 2 ^ 142 + unity = s * 2 ^ 142 := by
    simp only [unity]
    omega
  have hd : s * 2 ^ 142 / 2 = s * 2 ^ 141 := by omega
  have hh : half ((s - 128) * 2 ^ 142) = s * 2 ^ 141 := by
    rw [half, hs, Binary32.round_eq (by decide) (.natAbs_mul <| by omega), hd,
      Binary32.round_eq (by decide) (.natAbs_mul <| by omega)]
  rw [hb, hh]
  have ⟨h₁, _⟩ := one_mul_tdiv (s * 2 ^ 141 * 255)
  congr 1
  simp only [unity] at *
  omega

-- Other bit depths

theorem sampleToInt32_of_finite {k : Int} (h : value w = .finite n)
    (hn : -2 ^ 31 ≤ (n * k).tdiv unity ∧ (n * k).tdiv unity ≤ 2 ^ 31 - 1) :
    sampleToInt32 w k = .ok ((n * k).tdiv unity) := by
  rw [sampleToInt32, h]
  exact toInteger_finite_of_mem hn

-- The samples that can be written.
def Writable (isFloat : Bool) (sample : Word) : Depth → Prop
  | .eight      => value sample ≠ .nan
  | .sixteen    => value sample ≠ .nan
  | .twentyFour => ∃ n, value sample = .finite n ∧ -(2 ^ 31 + 1) * 2 ^ 126 < n ∧ n < 2 ^ 31 * 2 ^ 126
  | .thirtyTwo  => isFloat ∨ ∃ n, value sample = .finite n ∧ -(2 ^ 31 + 1) * 2 ^ 118 < n ∧ n < 2 ^ 31 * 2 ^ 118

theorem sampleToInt32_eq_ok_iff {j : Nat} (hj : j = 118 ∨ j = 126) :
    (∃ s, sampleToInt32 w (2 ^ (149 - j)) = .ok s) ↔
      ∃ n, value w = .finite n ∧ -(2 ^ 31 + 1) * 2 ^ j < n ∧ n < 2 ^ 31 * 2 ^ j := by
  cases hv : value w
  case infinite => simp [sampleToInt32, hv, Value.scale, toInteger, Value.truncate]
  case nan      => simp [sampleToInt32, hv, Value.scale, toInteger, Value.truncate]
  case finite n =>
    have ⟨h₁, h₂⟩ := one_mul_tdiv (n * 2 ^ (149 - j))
    have he : (∃ s, sampleToInt32 w (2 ^ (149 - j)) = .ok s) ↔
        -2 ^ 31 ≤ (n * 2 ^ (149 - j)).tdiv unity ∧ (n * 2 ^ (149 - j)).tdiv unity ≤ 2 ^ 31 - 1 := by
      simp only [sampleToInt32, hv, Value.scale, toInteger, Value.truncate]
      split <;> simp_all
    simp only [he, Value.finite.injEq, exists_eq_left']
    simp only [unity] at *
    obtain hj | hj := hj <;> subst hj <;> omega

-- What is not a number cannot be written as a small integer.
theorem sampleToSingleByte_of_nan (h : clampSample w = .nan) : sampleToSingleByte w = .error .undefined := by
  rw [sampleToSingleByte, h]
  rfl

theorem sampleToSixteenBitInt_of_nan (h : clampSample w = .nan) : sampleToSixteenBitInt w = .error .undefined := by
  rw [sampleToSixteenBitInt, h]
  rfl

theorem sampleAsInt_eq_ok_iff {isFloat : Bool} {depth : Depth} :
    (∃ s, sampleAsInt isFloat w depth = .ok s) ↔ Writable isFloat w depth := by
  cases depth
  case eight =>
    obtain ⟨hv, hc⟩ | ⟨hv, n, hc, hn⟩ := clampSample_cases w
    case inl => simp [sampleAsInt, sampleToSingleByte_of_nan hc, Writable, hv]
    case inr =>
      obtain ⟨_, _, hb⟩ := sampleToSingleByte_of_finite hc hn
      simp [sampleAsInt, hb, Writable, hv]
  case sixteen =>
    obtain ⟨hv, hc⟩ | ⟨hv, n, hc, hn⟩ := clampSample_cases w
    case inl => simp [sampleAsInt, sampleToSixteenBitInt_of_nan hc, Writable, hv]
    case inr => simp [sampleAsInt, sampleToSixteenBitInt_of_finite hc hn, Writable, hv]
  case twentyFour => exact @sampleToInt32_eq_ok_iff w 126 (.inr rfl)
  case thirtyTwo =>
    cases isFloat
    case true  => simp [sampleAsInt, Writable]
    case false =>
      simp only [sampleAsInt, Writable, Bool.false_eq_true, false_or, if_false]
      exact @sampleToInt32_eq_ok_iff w 118 (.inl rfl)

-- The loss of one round trip.

-- The distance of neighbouring samples, in units of 2 ^ -149.
def step : Depth → Int
  | .eight      => 2 ^ 142
  | .sixteen    => 2 ^ 134
  | .twentyFour => 2 ^ 126
  | .thirtyTwo  => 2 ^ 118

-- The number of these distances that a sample moves by less than when it is written and read. The factors 255 and 32767
-- add to what is cut off.
def steps : Depth → Int
  | .eight      => 2
  | .sixteen    => 2
  | .twentyFour => 1
  | .thirtyTwo  => 1

def tolerance (depth : Depth) : Int :=
  steps depth * step depth

theorem half_error (hn : -unity ≤ n ∧ n ≤ unity) :
    2 * half n ≤ n + unity + 2 ^ 127 ∧ n + unity ≤ 2 * half n + 2 ^ 127 := by
  have ⟨h₁, h₁'⟩ := @Binary32.round_le 53 150 (n + unity) (by decide) (by omega) (by simp only [unity] at *; omega)
  have ⟨h₂, h₂'⟩ := @Binary32.round_error 53 98 (n + unity) (by decide) (by omega) (by simp only [unity] at *; omega)
  have ⟨h₃, h₃'⟩ := @Binary32.round_error 24 126 (round 53 (n + unity) / 2) (by decide) (by omega) (by omega)
  simp only [half]
  omega

-- A number of steps from below is not lost.
theorem le_half (k : Int) (h₀ : 0 ≤ k) (h₁ : k < 2 ^ 24) (h : k * 2 ^ 142 ≤ n + unity) : k * 2 ^ 141 ≤ half n := by
  have h₂ : k * 2 ^ 142 ≤ round 53 (n + unity) :=
    Binary32.le_round (by decide) (by omega) (.natAbs_mul <| by omega) h
  exact Binary32.le_round (by decide) (by omega) (.natAbs_mul <| by omega) <| by omega

section

variable {isFloat : Bool} {byteToSample : Int → Word}

theorem requantize_eight (h : clampSample w = .finite n) (hn : -unity ≤ n ∧ n ≤ unity) :
    ∃ t, 0 ≤ t ∧ t < 2 ^ 8 ∧ requantize isFloat byteToSample .eight w = .ok (byteToSample t) ∧
      -tolerance .eight < (t - 128) * 2 ^ 142 - n ∧ (t - 128) * 2 ^ 142 - n < tolerance .eight := by
  have ⟨h₀, h₁, hb⟩ := sampleToSingleByte_of_finite h hn
  have ⟨he, he'⟩ := half_error hn
  have ⟨ht, _⟩ := one_mul_tdiv (half n * 255)
  generalize (half n * 255).tdiv unity = t at *
  have hw : t % 2 ^ 8 = t := by
    simp only [unity] at *
    omega
  have hr : requantize isFloat byteToSample .eight w = .ok (byteToSample t) := by
    simp only [requantize, sampleAsInt, hb, Except.ok_bind, Depth.wrap, hw, intToSample, Except.pure_eq]
  have hlt : n + unity < (t + 2) * 2 ^ 142 := by
    by_contra hge
    simp only [unity] at *
    have := @le_half n (t + 2) (by omega) (by omega) (by simp only [unity]; omega)
    omega
  simp only [tolerance, steps, step, unity] at *
  exact ⟨t, by omega, by omega, hr, by omega, by omega⟩

theorem requantize_sixteen (h : clampSample w = .finite n) (hn : -unity ≤ n ∧ n ≤ unity) :
    ∃ t, t.natAbs < 2 ^ 15 ∧ requantize isFloat byteToSample .sixteen w = .ok (sixteenBitIntToSample t) ∧
      -tolerance .sixteen < t * 2 ^ 134 - n ∧ t * 2 ^ 134 - n < tolerance .sixteen := by
  have hb := sampleToSixteenBitInt_of_finite h hn
  have ⟨ht, ht'⟩ := one_mul_tdiv (n * 32767)
  generalize (n * 32767).tdiv unity = t at *
  have hw : int16 t = t := by
    simp only [int16, Int.bmod, unity] at *
    omega
  have hr : requantize isFloat byteToSample .sixteen w = .ok (sixteenBitIntToSample t) := by
    simp only [requantize, sampleAsInt, hb, Except.ok_bind, Depth.wrap, hw, intToSample, Except.pure_eq]
  simp only [tolerance, steps, step, unity] at *
  exact ⟨t, by omega, hr, by omega, by omega⟩

theorem requantize_twentyFour (h : value w = .finite n) (hn : -unity ≤ n ∧ n < unity) :
    ∃ t, t.natAbs ≤ 2 ^ 23 ∧ requantize isFloat byteToSample .twentyFour w = .ok (ofRatio t 23) ∧
      -tolerance .twentyFour < t * 2 ^ 126 - n ∧ t * 2 ^ 126 - n < tolerance .twentyFour := by
  have ⟨ht, ht'⟩ := one_mul_tdiv (n * 2 ^ 23)
  have hb : sampleToInt32 w (2 ^ 23) = .ok ((n * 2 ^ 23).tdiv unity) := sampleToInt32_of_finite h <| by
    simp only [unity] at *
    omega
  generalize (n * 2 ^ 23).tdiv unity = t at *
  have hw : t.bmod (2 ^ 24) = t := by
    simp only [Int.bmod, unity] at *
    omega
  have hr : requantize isFloat byteToSample .twentyFour w = .ok (ofRatio t 23) := by
    simp only [requantize, sampleAsInt, hb, Except.ok_bind, Depth.wrap, hw, intToSample, Except.pure_eq]
  simp only [tolerance, steps, step, unity] at *
  exact ⟨t, by omega, hr, by omega, by omega⟩

-- What is written has no more digits than the sample, so that it is not rounded when it is read.
theorem requantize_thirtyTwo (h : value w = .finite n) (hn : -unity ≤ n ∧ n < unity) :
    ∃ t, Binary32.Fits 24 t.natAbs ∧ t.natAbs ≤ 2 ^ 31 ∧
      requantize false byteToSample .thirtyTwo w = .ok (ofRatio t 31) ∧
      -tolerance .thirtyTwo < t * 2 ^ 118 - n ∧ t * 2 ^ 118 - n < tolerance .thirtyTwo := by
  have ⟨ht, ht'⟩ := one_mul_tdiv (n * 2 ^ 31)
  have hb : sampleToInt32 w (2 ^ 31) = .ok ((n * 2 ^ 31).tdiv unity) := sampleToInt32_of_finite h <| by
    simp only [unity] at *
    omega
  have hf : Binary32.Fits 24 ((n * 2 ^ 31).tdiv unity).natAbs := by
    have hd : (n * 2 ^ 31).tdiv unity = n.tdiv (2 ^ 118) := Int.mul_tdiv_mul_of_pos_left n (2 ^ 118) (by decide)
    rw [hd]
    exact (Binary32.fits_value h).tdiv
  generalize (n * 2 ^ 31).tdiv unity = t at *
  have hw : int32 t = t := by
    simp only [int32, Int.bmod, unity] at *
    omega
  have hr : requantize false byteToSample .thirtyTwo w = .ok (ofRatio t 31) := by
    simp only [requantize, sampleAsInt, Bool.false_eq_true, if_false, hb, Except.ok_bind, Depth.wrap, hw, intToSample,
      Binary32.round_eq (by decide) hf, Except.pure_eq]
  simp only [tolerance, steps, step, unity] at *
  exact ⟨t, hf, by omega, hr, by omega, by omega⟩

theorem value_ofRatio_31 {t : Int} (hf : Binary32.Fits 24 t.natAbs) (ht : t.natAbs ≤ 2 ^ 31) :
    value (ofRatio t 31) = .finite (t * 2 ^ 118) := by
  have ⟨q, k, hq, ha⟩ := hf
  refine Binary32.value_ofInt ⟨q, k + 118, hq, ?_⟩ ?_
  case refine_1 => rw [Int.natAbs_mul, ha, Nat.mul_assoc, Nat.pow_add]; rfl
  case refine_2 => omega

end

-- A sample between -1 and 1 comes back nearly as it was.
theorem requantize_error {isFloat : Bool} {depth : Depth} (h : value w = .finite n) (hn : -unity ≤ n ∧ n < unity) :
    ∃ w' m, requantize isFloat singleByteToSample depth w = .ok w' ∧ value w' = .finite m ∧
      -tolerance depth < m - n ∧ m - n < tolerance depth := by
  have hn' : -unity ≤ n ∧ n ≤ unity := ⟨hn.left, Int.le_of_lt hn.right⟩
  have hc := clampSample_of_mem h hn'
  cases depth
  case eight =>
    have ⟨t, h₀, h₁, hr, he⟩ := @requantize_eight w n isFloat singleByteToSample hc hn'
    exact ⟨_, _, hr, Binary32.value_ofRatio <| by omega, he⟩
  case sixteen =>
    have ⟨t, ht, hr, he⟩ := @requantize_sixteen w n isFloat singleByteToSample hc hn'
    exact ⟨_, _, hr, Binary32.value_ofRatio <| by omega, he⟩
  case twentyFour =>
    have ⟨t, ht, hr, he⟩ := @requantize_twentyFour w n isFloat singleByteToSample h hn
    exact ⟨_, _, hr, Binary32.value_ofRatio <| by omega, he⟩
  case thirtyTwo =>
    cases isFloat
    case true  => exact ⟨w, n, requantize_float, h, by simp [tolerance, steps, step]⟩
    case false =>
      have ⟨t, hf, ht, hr, he⟩ := @requantize_thirtyTwo w n singleByteToSample h hn
      exact ⟨_, _, hr, value_ofRatio_31 hf ht, he⟩

-- What further round trips do.

-- The integers that stand for samples.
def InRange (s : Int) : Depth → Prop
  | .eight      => 0 ≤ s ∧ s < 2 ^ 8
  | .sixteen    => -2 ^ 15 ≤ s ∧ s < 2 ^ 15
  | .twentyFour => -2 ^ 23 ≤ s ∧ s < 2 ^ 23
  | .thirtyTwo  => -2 ^ 31 ≤ s ∧ s < 2 ^ 31

-- An integer after some round trips through WAV files: each one takes away 1 at 8 bits, and moves it one step
-- towards zero at 16 bits.
def aged (k : Nat) (s : Int) : Depth → Int
  | .eight      => max (s - k) 0
  | .sixteen    => if 0 ≤ s then max (s - k) 0 else min (s + k) 0
  | .twentyFour => s
  | .thirtyTwo  => s

variable {depth : Depth}

theorem aged_zero (h : InRange s depth) : aged 0 s depth = s := by
  cases depth <;> simp only [InRange, aged] at * <;> (try split) <;> omega

theorem aged_succ : aged (k + 1) s depth = aged k (aged 1 s depth) depth := by
  cases depth <;> simp only [aged] <;> (try split) <;> (try split) <;> omega

theorem inRange_aged (h : InRange s depth) : InRange (aged k s depth) depth := by
  cases depth <;> simp only [InRange, aged] at * <;> (try split) <;> omega

-- WAV files contain floats at 32 bits.
def waveSample (s : Int) (depth : Depth) : Word :=
  intToSample (depth = .thirtyTwo) singleByteToSample s depth

theorem requantize_waveSample (h : InRange s depth) :
    requantize (depth = .thirtyTwo) singleByteToSample depth (waveSample s depth) =
      .ok (waveSample (aged 1 s depth) depth) := by
  cases depth
  case eight =>
    obtain ⟨h₀, h₁⟩ := h
    have hm : max (s - 1) 0 % 2 ^ 8 = max (s - (1 : Nat)) 0 := by omega
    simp only [requantize, sampleAsInt, waveSample, intToSample, sampleToSingleByte_singleByteToSample h₀ h₁,
      Except.ok_bind, Depth.wrap, hm, aged, Except.pure_eq]
  case sixteen =>
    obtain ⟨h₀, h₁⟩ := h
    have hs : int16 (s - s.sign) = aged 1 s .sixteen := by
      simp only [int16, Int.bmod, aged]
      obtain hs | hs | hs := Int.lt_trichotomy s 0
      case inl     => rw [Int.sign_eq_neg_one_of_neg hs]; omega
      case inr.inl => simp [hs]
      case inr.inr => rw [Int.sign_eq_one_of_pos hs]; omega
    simp only [requantize, sampleAsInt, waveSample, intToSample,
      sampleToSixteenBitInt_sixteenBitIntToSample h₀ h₁, Except.ok_bind, Depth.wrap, hs, Except.pure_eq]
  case twentyFour =>
    obtain ⟨h₀, h₁⟩ := h
    have hv : value (ofRatio s 23) = .finite (s * 2 ^ 126) := Binary32.value_ofRatio <| by omega
    obtain ⟨ht, ht'⟩ := one_mul_tdiv (s * 2 ^ 126 * 2 ^ 23)
    have hs : (s * 2 ^ 126 * 2 ^ 23).tdiv unity = s := by
      simp only [unity] at *
      omega
    have hb : sampleToInt32 (ofRatio s 23) (2 ^ 23) = .ok s :=
      (sampleToInt32_of_finite hv <| by omega).trans <| by rw [hs]
    have hw : s.bmod (2 ^ 24) = s := by
      simp only [Int.bmod]
      omega
    simp only [requantize, sampleAsInt, waveSample, intToSample, hb, Except.ok_bind, Depth.wrap, hw, aged,
      Except.pure_eq]
  case thirtyTwo => exact requantize_float

end Native.AudioFile
