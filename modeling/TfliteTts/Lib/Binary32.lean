import Mathlib.Data.Nat.Log
import Mathlib.Tactic.Ring

-- Floating point numbers of the format `binary32`. A finite number is a multiple of 2 ^ -149, and is given by that
-- integer, so that its arithmetic is exact here and rounding is explicit.
namespace Binary32

inductive Value
  | finite (n : Int)  -- n * 2 ^ -149
  | infinite (negative : Bool)
  | nan
  deriving DecidableEq

-- The number 1.
def unity : Int :=
  2 ^ 149

-- The number that the bits other than the sign stand for.
def magnitude (b : Nat) : Nat :=
  if b < 2 ^ 23 then b else (2 ^ 23 + b % 2 ^ 23) * 2 ^ (b / 2 ^ 23 - 1)

def value (w : UInt32) : Value :=
  let b := w.toNat % 2 ^ 31
  let negative : Bool := 2 ^ 31 ≤ w.toNat
  if b < 0x7F800000 then .finite (if negative then -magnitude b else magnitude b)
  else if b = 0x7F800000 then .infinite negative
  else .nan

-- `a / 2 ^ k`, rounded to the nearest integer. Ties go to the even one.
def halfEven (a k : Nat) : Nat :=
  let q := a / 2 ^ k
  let r := a % 2 ^ k
  if 2 * r < 2 ^ k ∨ 2 * r = 2 ^ k ∧ q % 2 = 0 then q else q + 1

-- By how many bits a number is too long for a significand of `p` bits.
def excess (p a : Nat) : Nat :=
  a.log2 + 1 - p

-- The nearest number with a significand of `p` bits.
def round (p : Nat) (n : Int) : Int :=
  n.sign * (halfEven n.natAbs (excess p n.natAbs) * 2 ^ excess p n.natAbs : Nat)

-- The bits other than the sign. Numbers that are too large become infinite.
def encode (a : Nat) : Nat :=
  min (excess 24 a * 2 ^ 23 + halfEven a (excess 24 a)) 0x7F800000

def ofInt (n : Int) : UInt32 :=
  .ofNat <| (if n < 0 then 2 ^ 31 else 0) + encode n.natAbs

-- `m / 2 ^ k`
def ofRatio (m : Int) (k : Nat) : UInt32 :=
  ofInt (m * 2 ^ (149 - k))

namespace Value

def map (f : Int → Int) : Value → Value
  | finite n   => finite (f n)
  | infinite s => infinite s
  | nan        => nan

-- A product that is not rounded.
def scale (k : Int) : Value → Value
  | finite n   => finite (n * k)
  | infinite s => infinite (s ^^ decide (k < 0))
  | nan        => nan

def lt : Value → Value → Bool
  | finite a,   finite b   => a < b
  | infinite s, finite _   => s
  | finite _,   infinite t => !t
  | infinite s, infinite t => s && !t
  | _,          _          => false

-- The smaller and the larger one of two numbers. The first one is taken if they do not compare.
def min (a b : Value) : Value :=
  if b.lt a then b else a

def max (a b : Value) : Value :=
  if a.lt b then b else a

theorem min_finite {a b : Int} : (finite a).min (finite b) = finite (Min.min a b) := by
  simp only [min, lt, decide_eq_true_eq]
  split <;> congr 1 <;> omega

theorem max_finite {a b : Int} : (finite a).max (finite b) = finite (Max.max a b) := by
  simp only [max, lt, decide_eq_true_eq]
  split <;> congr 1 <;> omega

-- The integer part, towards zero.
def truncate : Value → Option Int
  | finite n => some (n.tdiv unity)
  | _        => none

end Value

theorem halfEven_eq {a q k : Nat} (h : a = q * 2 ^ k) : halfEven a k = q := by
  have hk : 0 < 2 ^ k := Nat.two_pow_pos k
  simp [halfEven, h, Nat.mul_div_cancel _ hk]

theorem excess_le {p a k : Nat} (hp : 0 < p) (h : a < 2 ^ (p + k)) : excess p a ≤ k := by
  by_cases ha : a = 0
  case pos =>
    subst ha
    simp [excess]
    omega
  case neg =>
    have := Nat.log2_lt ha |>.mpr h
    simp only [excess]
    omega

theorem lt_of_excess {p a : Nat} : a < 2 ^ (p + excess p a) := by
  refine Nat.lt_of_lt_of_le Nat.lt_log2_self <| Nat.pow_le_pow_right (by decide) ?_
  simp only [excess]
  omega

theorem le_of_excess {p a : Nat} (hp : 0 < p) (h : 0 < excess p a) : 2 ^ (p - 1 + excess p a) ≤ a := by
  simp only [excess] at h ⊢
  have ha : a ≠ 0 := by
    intro ha
    subst ha
    simp at h
    omega
  have he : p - 1 + (a.log2 + 1 - p) = a.log2 := by omega
  rw [he]
  exact Nat.log2_self_le ha

-- The numbers that are not rounded: those with a significand of `p` bits.
def Fits (p a : Nat) : Prop :=
  ∃ q k, q < 2 ^ p ∧ a = q * 2 ^ k

theorem Fits.exists_eq {p a : Nat} (hp : 0 < p) (f : Fits p a) :
    ∃ q, q < 2 ^ p ∧ a = q * 2 ^ excess p a ∧ (0 < excess p a → 2 ^ (p - 1) ≤ q) := by
  have ⟨q, k, hq, ha⟩ := f
  have hlt : a < 2 ^ (p + k) := by
    rw [ha, Nat.pow_add]
    exact Nat.mul_lt_mul_of_pos_right hq <| Nat.two_pow_pos k
  have he := excess_le hp hlt
  have hk : 2 ^ k = 2 ^ (k - excess p a) * 2 ^ excess p a := by
    rw [← Nat.pow_add]
    congr 1
    omega
  have ha' : a = q * 2 ^ (k - excess p a) * 2 ^ excess p a := by
    rw [Nat.mul_assoc, ← hk, ← ha]
  refine ⟨_, ?_, ha', fun h => ?_⟩
  case refine_1 =>
    have := @lt_of_excess p a
    rw [Nat.pow_add] at this
    exact Nat.lt_of_mul_lt_mul_right <| ha'.symm.trans_lt this
  case refine_2 =>
    have := le_of_excess hp h
    rw [Nat.pow_add] at this
    exact Nat.le_of_mul_le_mul_right (this.trans_eq ha') <| Nat.two_pow_pos _

theorem round_eq {p : Nat} {n : Int} (hp : 0 < p) (f : Fits p n.natAbs) : round p n = n := by
  have ⟨q, _, ha, _⟩ := f.exists_eq hp
  rw [round, halfEven_eq ha, ← ha]
  exact Int.sign_mul_natAbs n

theorem magnitude_encode {a : Nat} (f : Fits 24 a) (h : a < 2 ^ (24 + 253)) :
    encode a < 0x7F800000 ∧ magnitude (encode a) = a := by
  have ⟨q, hq, ha, hle⟩ := f.exists_eq <| by decide
  have hk : excess 24 a ≤ 253 := excess_le (by decide) h
  have he : encode a = excess 24 a * 2 ^ 23 + q := by
    rw [encode, halfEven_eq ha]
    omega
  generalize excess 24 a = k at *
  refine ⟨by omega, ?_⟩
  rw [he, magnitude]
  by_cases h : k = 0 ∧ q < 2 ^ 23
  case pos =>
    have ⟨hk, hq⟩ := h
    subst hk
    rw [if_pos (by omega), ha]
    omega
  case neg =>
    have hq : 2 ^ 23 ≤ q := by
      by_cases hk : 0 < k
      case pos => exact hle hk
      case neg => omega
    have hm : 2 ^ 23 + (k * 2 ^ 23 + q) % 2 ^ 23 = q := by omega
    have hd : (k * 2 ^ 23 + q) / 2 ^ 23 - 1 = k := by omega
    rw [if_neg (by omega), hm, hd, ha]

theorem value_ofInt {n : Int} (f : Fits 24 n.natAbs) (h : n.natAbs < 2 ^ (24 + 253)) :
    value (ofInt n) = .finite n := by
  have ⟨hb, hm⟩ := magnitude_encode f h
  rw [ofInt]
  generalize encode n.natAbs = b at *
  by_cases hn : n < 0
  case pos =>
    have hw : (UInt32.ofNat (2 ^ 31 + b)).toNat = 2 ^ 31 + b := by
      rw [UInt32.toNat_ofNat']
      omega
    have hs : (2 ^ 31 + b) % 2 ^ 31 = b := by omega
    simp only [if_pos hn, value, hw, hs, if_pos hb, hm]
    rw [decide_eq_true (by omega), if_pos rfl]
    congr 1
    omega
  case neg =>
    have hw : (UInt32.ofNat (0 + b)).toNat = b := by
      rw [UInt32.toNat_ofNat']
      omega
    have hs : b % 2 ^ 31 = b := by omega
    simp only [if_neg hn, value, hw, hs, if_pos hb, hm]
    rw [decide_eq_false (by omega), if_neg Bool.false_ne_true]
    congr 1
    omega

theorem Fits.natAbs_mul {p k : Nat} {m : Int} (h : m.natAbs < 2 ^ p) : Fits p (m * 2 ^ k).natAbs :=
  ⟨m.natAbs, k, h, by rw [Int.natAbs_mul, Int.natAbs_pow]; rfl⟩

theorem halfEven_le {a k : Nat} (h : a < 2 ^ (p + k)) : halfEven a k ≤ 2 ^ p := by
  have : a / 2 ^ k < 2 ^ p := by
    rw [Nat.div_lt_iff_lt_mul (Nat.two_pow_pos k), ← Nat.pow_add]
    exact h
  simp only [halfEven]
  split <;> omega

-- Rounding to an integer is off by a half at most.
theorem halfEven_error {a k : Nat} :
    2 * (halfEven a k * 2 ^ k) ≤ 2 * a + 2 ^ k ∧ 2 * a ≤ 2 * (halfEven a k * 2 ^ k) + 2 ^ k := by
  have hm := Nat.div_add_mod' a (2 ^ k)
  have hr := Nat.mod_lt a <| Nat.two_pow_pos k
  simp only [halfEven]
  split
  case isTrue h => omega
  case isFalse h =>
    rw [Nat.add_mul]
    omega

theorem fits_magnitude {b : Nat} : Fits 24 (magnitude b) := by
  rw [magnitude]
  by_cases hb : b < 2 ^ 23
  case pos => exact ⟨b, 0, by omega, by rw [if_pos hb, Nat.pow_zero, Nat.mul_one]⟩
  case neg => exact ⟨_, _, by omega, if_neg hb⟩

theorem fits_value {w : UInt32} (h : value w = .finite n) : Fits 24 n.natAbs := by
  simp only [value] at h
  split at h
  case isFalse => split at h <;> cases h
  case isTrue =>
    cases h
    split
    case isTrue  => rw [Int.natAbs_neg, Int.natAbs_natCast]; exact fits_magnitude
    case isFalse => rw [Int.natAbs_natCast]; exact fits_magnitude

-- The integer part of a number does not have a longer significand.
theorem Fits.tdiv {p k : Nat} {n : Int} (f : Fits p n.natAbs) : Fits p (n.tdiv (2 ^ k)).natAbs := by
  have ⟨q, j, hq, hn⟩ := f
  have hd : (n.tdiv (2 ^ k)).natAbs = q * 2 ^ j / 2 ^ k := by
    rw [Int.natAbs_tdiv, hn, Int.natAbs_pow]
    rfl
  rw [hd]
  by_cases h : k ≤ j
  case pos =>
    have hj : 2 ^ j = 2 ^ (j - k) * 2 ^ k := by
      rw [← Nat.pow_add]
      congr 1
      omega
    exact ⟨q, j - k, hq, by rw [hj, ← Nat.mul_assoc, Nat.mul_div_cancel _ (Nat.two_pow_pos k)]⟩
  case neg =>
    refine ⟨_, 0, ?_, (Nat.mul_one _).symm⟩
    refine Nat.lt_of_le_of_lt (Nat.div_le_of_le_mul ?_) hq
    rw [Nat.mul_comm]
    exact Nat.mul_le_mul_right q <| Nat.pow_le_pow_right (by decide) <| by omega

-- Rounding is off by half a unit of the last place at most.
theorem round_error {p k : Nat} {n : Int} (hp : 0 < p) (hn : 0 ≤ n) (h : n.natAbs < 2 ^ (p + k)) :
    2 * round p n ≤ 2 * n + (2 ^ k : Nat) ∧ 2 * n ≤ 2 * round p n + (2 ^ k : Nat) := by
  have ⟨h₁, h₂⟩ := @halfEven_error n.natAbs (excess p n.natAbs)
  have hk : 2 ^ excess p n.natAbs ≤ 2 ^ k := Nat.pow_le_pow_right (by decide) <| excess_le hp h
  by_cases h₀ : n = 0
  case pos =>
    rw [round, h₀, Int.sign_zero, Int.zero_mul]
    omega
  case neg =>
    rw [round, Int.sign_eq_one_of_pos (by omega), Int.one_mul]
    omega

theorem div_le_halfEven {a k : Nat} : a / 2 ^ k ≤ halfEven a k := by
  simp only [halfEven]
  split <;> omega

-- A smaller number that is not rounded is a multiple of the last place, or less than the least significand stands for.
theorem Fits.le_div_mul {p a b : Nat} (hp : 0 < p) (f : Fits p b) (h : b ≤ a) :
    b ≤ a / 2 ^ excess p a * 2 ^ excess p a := by
  have ⟨q, j, hq, hb⟩ := f
  obtain he | he := Nat.lt_or_ge j (excess p a)
  case inr =>
    have hm : b = q * 2 ^ (j - excess p a) * 2 ^ excess p a := by
      rw [hb, Nat.mul_assoc, ← Nat.pow_add]
      congr 2
      omega
    rw [hm] at h ⊢
    exact Nat.mul_le_mul_right _ <| (Nat.le_div_iff_mul_le <| Nat.two_pow_pos _).mpr h
  case inl =>
    have hge := le_of_excess hp <| Nat.zero_lt_of_lt he
    rw [Nat.pow_add, ← Nat.le_div_iff_mul_le <| Nat.two_pow_pos _] at hge
    calc b
      _ = q * 2 ^ j                              := hb
      _ ≤ 2 ^ p * 2 ^ j                          := Nat.mul_le_mul_right _ <| Nat.le_of_lt hq
      _ = 2 ^ (p + j)                            := (Nat.pow_add 2 p j).symm
      _ ≤ 2 ^ (p - 1 + excess p a)               := Nat.pow_le_pow_right (by decide) <| by omega
      _ = 2 ^ (p - 1) * 2 ^ excess p a           := Nat.pow_add _ _ _
      _ ≤ a / 2 ^ excess p a * 2 ^ excess p a    := Nat.mul_le_mul_right _ hge

-- Rounding does not go below a number that is not rounded itself.
theorem le_round {p : Nat} {m n : Int} (hp : 0 < p) (hm : 0 ≤ m) (f : Fits p m.natAbs) (h : m ≤ n) :
    m ≤ round p n := by
  have hle := f.le_div_mul hp <| show m.natAbs ≤ n.natAbs by omega
  have hr : n.natAbs / 2 ^ excess p n.natAbs * 2 ^ excess p n.natAbs ≤
      halfEven n.natAbs (excess p n.natAbs) * 2 ^ excess p n.natAbs := Nat.mul_le_mul_right _ div_le_halfEven
  by_cases h₀ : n = 0
  case pos =>
    rw [round, h₀, Int.sign_zero, Int.zero_mul]
    omega
  case neg =>
    rw [round, Int.sign_eq_one_of_pos (by omega), Int.one_mul]
    omega

theorem round_le {p k : Nat} {n : Int} (hp : 0 < p) (hn : 0 ≤ n) (h : n ≤ 2 ^ k) :
    0 ≤ round p n ∧ round p n ≤ 2 ^ k := by
  have hk : ((2 ^ k : Nat) : Int) = 2 ^ k := Int.natCast_pow 2 k
  have hr : round p n = (halfEven n.natAbs (excess p n.natAbs) * 2 ^ excess p n.natAbs : Nat) ∨ n = 0 := by
    by_cases h₀ : n = 0
    case pos => exact .inr h₀
    case neg => exact .inl <| by rw [round, Int.sign_eq_one_of_pos (by omega), Int.one_mul]
  obtain hr | hr := hr
  case inr =>
    rw [hr, round, Int.sign_zero, Int.zero_mul]
    omega
  case inl =>
    by_cases hf : n.natAbs = 2 ^ k
    case pos =>
      rw [round_eq hp ⟨1, k, Nat.one_lt_two_pow (by omega), by rw [hf, Nat.one_mul]⟩]
      exact ⟨hn, h⟩
    case neg =>
      have hle := halfEven_le <| @lt_of_excess p n.natAbs
      have hge := @le_of_excess p n.natAbs hp
      rw [hr]
      generalize excess p n.natAbs = e at *
      by_cases he : e = 0
      case pos =>
        rw [he, halfEven_eq (Nat.mul_one n.natAbs).symm, Nat.pow_zero, Nat.mul_one]
        omega
      case neg =>
        have hlt : 2 ^ (p - 1 + e) < 2 ^ k := Nat.lt_of_le_of_lt (hge <| by omega) <| by omega
        have hpe : p + e ≤ k := by
          have := Nat.pow_lt_pow_iff_right (by decide) |>.mp hlt
          omega
        have : halfEven n.natAbs e * 2 ^ e ≤ 2 ^ k := by
          refine Nat.le_trans (Nat.mul_le_mul_right _ hle) ?_
          rw [← Nat.pow_add]
          exact Nat.pow_le_pow_right (by decide) hpe
        omega

theorem value_ofRatio {m : Int} {k : Nat} (h : m.natAbs < 2 ^ 24) :
    value (ofRatio m k) = .finite (m * 2 ^ (149 - k)) := by
  refine value_ofInt (.natAbs_mul h) ?_
  rw [Int.natAbs_mul, Int.natAbs_pow, Nat.pow_add]
  exact Nat.mul_lt_mul'' h <| Nat.pow_lt_pow_right (by decide) <| by omega

end Binary32
