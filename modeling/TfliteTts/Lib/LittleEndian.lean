import Mathlib.Tactic.Ring

-- Numbers as bytes, least significant byte first.
namespace LittleEndian

abbrev Word := UInt32

-- The lowest `k` bytes of `n`.
def encode : Nat → Nat → List UInt8
  | 0,     _ => []
  | k + 1, n => UInt8.ofNat n :: encode k (n / 256)

def decode : List UInt8 → Nat
  | []      => 0
  | b :: bs => b.toNat + 256 * decode bs

@[simp]
theorem length_encode : (encode k n).length = k := by
  induction k generalizing n
  case zero       => rfl
  case succ k hi => simp [encode, hi]

theorem decode_encode : decode (encode k n) = n % 256 ^ k := by
  induction k generalizing n
  case zero => simp [encode, decode, Nat.mod_one]
  case succ k hi =>
    have hb : (UInt8.ofNat n).toNat = n % 256 := UInt8.toNat_ofNat'
    rw [encode, decode, hi, hb, Nat.pow_succ', Nat.mod_mul]

theorem encode_decode {bs : List UInt8} : encode bs.length (decode bs) = bs := by
  induction bs
  case nil => rfl
  case cons b bs hi =>
    have hb : (b.toNat + 256 * decode bs) / 256 = decode bs := by
      have := b.toNat_lt
      omega
    have hm : UInt8.ofNat (b.toNat + 256 * decode bs) = b := by
      rw [← UInt8.toNat_inj, UInt8.toNat_ofNat']
      have := b.toNat_lt
      omega
    rw [List.length_cons, decode, encode, hb, hm, hi]

def bytes (w : Word) : List UInt8 :=
  encode 4 w.toNat

-- The array of words that a block of bytes holds. Bytes that do not fill a word are left out.
def words : List UInt8 → List Word
  | b₀ :: b₁ :: b₂ :: b₃ :: bs => .ofNat (decode [b₀, b₁, b₂, b₃]) :: words bs
  | _                          => []

@[simp]
theorem length_bytes {w : Word} : (bytes w).length = 4 :=
  length_encode

theorem words_bytes_append {w : Word} : words (bytes w ++ bs) = w :: words bs := by
  have hd : decode (bytes w) = w.toNat := by
    rw [bytes, decode_encode]
    exact Nat.mod_eq_of_lt w.toNat_lt
  simp only [bytes, encode, List.cons_append, List.nil_append, words, List.cons.injEq, and_true]
  simp only [bytes, encode] at hd
  rw [hd, UInt32.ofNat_toNat]

theorem words_flatMap_bytes {ws : List Word} : words (ws.flatMap bytes) = ws := by
  induction ws
  case nil           => rfl
  case cons w ws hi => rw [List.flatMap_cons, words_bytes_append, hi]

@[simp]
theorem length_flatMap_bytes {ws : List Word} : (ws.flatMap bytes).length = 4 * ws.length := by
  induction ws
  case nil           => rfl
  case cons w ws hi => simp [hi]; omega

theorem length_lt_of_ne_cons {bs : List UInt8}
    (h : ∀ b₀ b₁ b₂ b₃ bs', bs = b₀ :: b₁ :: b₂ :: b₃ :: bs' → False) : bs.length < 4 := by
  match bs, h with
  | [], _ | [_], _ | [_, _], _ | [_, _, _], _ => simp
  | b₀ :: b₁ :: b₂ :: b₃ :: bs, h             => exact absurd rfl (h b₀ b₁ b₂ b₃ bs)

theorem length_words {bs : List UInt8} : (words bs).length = bs.length / 4 := by
  fun_induction words bs
  case case1 hi =>
    simp only [List.length_cons, hi]
    omega
  case case2 h =>
    have := length_lt_of_ne_cons h
    simp only [List.length_nil]
    omega

-- The word at index `i` of an array, when the array is that long.
def load (bs : List UInt8) (i : Nat) : Option Word :=
  let w := (bs.drop (4 * i)).take 4
  if w.length = 4 then some (.ofNat (decode w)) else none

theorem load_eq {bs : List UInt8} : load bs i = (words bs)[i]? := by
  fun_induction words bs generalizing i
  case case1 b₀ b₁ b₂ b₃ bs hi =>
    cases i
    case zero   => simp [load]
    case succ i => simp [load, ← hi, Nat.mul_add]
  case case2 h =>
    have := length_lt_of_ne_cons h
    simp [load]
    omega

end LittleEndian
