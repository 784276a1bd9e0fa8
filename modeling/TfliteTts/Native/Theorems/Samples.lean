import TfliteTts.Native.AudioFile.Save
import TfliteTts.Native.Theorems.Search

-- What samples become when they are written and read again.
namespace Native

open Iff (Endianness)
open Binary32 (Value value round ofRatio)

namespace Depth

variable {depth : Depth}

-- The integer that is read where an integer has been written.
def wrap (depth : Depth) (n : Int) : Int :=
  match depth with
  | eight      => n % 2 ^ 8
  | sixteen    => int16 n
  | twentyFour => n.bmod (2 ^ 24)
  | thirtyTwo  => int32 n

@[simp]
theorem ofBits_bits : ofBits depth.bits = some depth := by
  cases depth <;> rfl

theorem eq_bits_of_ofBits (h : ofBits n = some depth) : n = depth.bits := by
  unfold ofBits at h
  split_ifs at h <;> cases h <;> assumption

theorem bytes_pos : 0 < depth.bytes := by
  cases depth <;> decide

theorem bytes_le : depth.bytes ≤ 4 := by
  cases depth <;> decide

theorem bits_lt : depth.bits < 2 ^ 15 := by
  cases depth <;> decide

theorem bits_tdiv : (depth.bits : Int).tdiv 8 = depth.bytes := by
  cases depth <;> rfl

theorem mul_bits_tdiv {n : Int} : (n * depth.bits).tdiv 8 = n * depth.bytes := by
  have h : (depth.bits : Int) = depth.bytes * 8 := by cases depth <;> rfl
  rw [h, ← Int.mul_assoc, Int.mul_tdiv_cancel _ (by decide)]

end Depth

namespace AudioFile

variable {source : Buffer} {e : Endianness} {depth : Depth} {w : Word} {n : Int}

@[simp]
theorem length_bytesOf : (bytesOf k n e).length = k := by
  cases e <;> simp [bytesOf]

theorem map_byte_range : (List.range k).map (byte n) = LittleEndian.encode k (n % 256 ^ k).toNat := by
  induction k generalizing n
  case zero => rfl
  case succ k hi =>
    have hb : byte n ∘ Nat.succ = byte (n / 256) := by
      funext j
      simp only [Function.comp_apply, byte, Nat.succ_eq_add_one, pow_succ']
      rw [Int.ediv_mul_of_nonneg (by decide)]
    -- The remainder modulo `256 ^ (k + 1)` consists of the lowest byte and the remainder of the other ones.
    have hm : n % 256 ^ (k + 1) = n % 256 + 256 * (n / 256 % 256 ^ k) := by
      rw [pow_succ', Int.emod_def, Int.emod_def (n / 256), Int.ediv_mul_of_nonneg (by decide), Int.mul_assoc]
      omega
    have hr : 0 ≤ n / 256 % 256 ^ k := Int.emod_nonneg _ <| pow_ne_zero k <| by decide
    have h₀ : byte n 0 = .ofNat (n % 256 ^ (k + 1)).toNat := by
      rw [byte, ← UInt8.toNat_inj, UInt8.toNat_ofNat', UInt8.toNat_ofNat', pow_zero, Int.ediv_one]
      omega
    rw [List.range_succ_eq_map, List.map_cons, List.map_map, LittleEndian.encode, hb, hi, h₀]
    congr 2
    omega

theorem bytesOf_eq : bytesOf k n e = Iff.encode e k (n % 256 ^ k).toNat := by
  cases e <;> simp only [bytesOf, map_byte_range, Iff.encode]

theorem bytesOf_natCast {m : Nat} : bytesOf k m e = Iff.encode e k m := by
  have hm : ((m : Int) % 256 ^ k).toNat = m % 256 ^ k := by congr 1
  rw [bytesOf_eq, hm, Iff.encode_mod]

-- What is cut off does not matter.
theorem bytesOf_int32 {n : Int} : bytesOf 4 (int32 n) e = bytesOf 4 n e := by
  rw [bytesOf_eq, bytesOf_eq]
  congr 2
  simp only [int32, Int.bmod]
  omega

theorem bytesOf_int16 {n : Int} : bytesOf 2 (int16 n) e = bytesOf 2 n e := by
  rw [bytesOf_eq, bytesOf_eq]
  congr 2
  simp only [int16, Int.bmod]
  omega

theorem subscript_bytesOf (h : source.At i (bytesOf 1 n e)) : subscript source i = .ok (byte n 0) := by
  have hb : bytesOf 1 n e = [byte n 0] := by cases e <;> rfl
  rw [hb] at h
  exact subscript_natCast <| (h.getElem? Nat.zero_lt_one).trans rfl

-- Writing an integer and reading it again.
theorem readInt_bytesOf (h : source.At i (bytesOf depth.bytes n e)) (hl : source.length ≤ 2 ^ 31) :
    readInt source i e depth = .ok (depth.wrap n) := by
  have hle := h.length_le
  rw [length_bytesOf] at hle
  have hs := bytesOf_eq ▸ h
  cases depth
  case eight =>
    simp only [readInt, subscript_bytesOf h, Except.ok_bind, Except.pure_eq, byte, UInt8.toNat_ofNat',
      Depth.wrap, pow_zero, Int.ediv_one]
    congr 1
    omega
  case sixteen =>
    have hn : int16 (n % 256 ^ 2).toNat = int16 n := by
      simp only [int16, Int.bmod]
      omega
    rw [readInt, Depth.wrap, ← hn]
    exact twoBytesToInt_encode hs <| Nat.le_trans hle hl
  case twentyFour =>
    have hb := subscripts_eq hs <| by rw [Iff.length_encode]; exact Nat.le_trans hle hl
    rw [Iff.length_encode] at hb
    simp only [Depth.bytes] at hb
    simp only [readInt, hb, Except.ok_bind, Except.pure_eq, Iff.decode_encode, Depth.wrap, Int.bmod]
    congr 1
    split <;> split <;> omega
  case thirtyTwo =>
    have hn : int32 (n % 256 ^ 4).toNat = int32 n := by
      simp only [int32, Int.bmod]
      omega
    rw [readInt, Depth.wrap, ← hn]
    exact fourBytesToInt_encode hs <| Nat.le_trans hle hl

-- What is read where a sample has been written.
def requantize (isFloat : Bool) (byteToSample : Int → Word) (depth : Depth) (sample : Word) : Except Abort Word := do
  let sampleAsInt ← sampleAsInt isFloat sample depth
  return intToSample isFloat byteToSample (depth.wrap sampleAsInt) depth

-- Floats are not changed.
theorem requantize_float {byteToSample : Int → Word} : requantize true byteToSample .thirtyTwo w = .ok w := by
  have hw := w.toNat_lt
  have hu : uint32 (int32 (int32 w.toNat)) = w.toNat := by
    simp only [uint32, int32, Int.bmod]
    omega
  simp only [requantize, sampleAsInt, intToSample, Depth.wrap, if_true, Except.ok_bind, Except.pure_eq, hu]
  rw [UInt32.ofNat_toNat]

end AudioFile
end Native
