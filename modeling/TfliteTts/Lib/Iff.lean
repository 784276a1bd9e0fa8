import TfliteTts.Lib.At
import TfliteTts.Lib.LittleEndian

-- Files that are made of chunks, with numbers in either byte order: RIFF is little endian, and IFF is big endian.
namespace Iff

inductive Endianness
  | littleEndian
  | bigEndian
  deriving DecidableEq

-- The lowest `k` bytes of `n`.
def encode : Endianness → Nat → Nat → List UInt8
  | .littleEndian, k, n => LittleEndian.encode k n
  | .bigEndian,    k, n => LittleEndian.encode k n |>.reverse

def decode : Endianness → List UInt8 → Nat
  | .littleEndian, bs => LittleEndian.decode bs
  | .bigEndian,    bs => LittleEndian.decode bs.reverse

@[simp]
theorem length_encode {e : Endianness} : (encode e k n).length = k := by
  cases e <;> simp [encode]

theorem decode_encode {e : Endianness} : decode e (encode e k n) = n % 256 ^ k := by
  cases e <;> simp [encode, decode, LittleEndian.decode_encode]

theorem encode_decode {e : Endianness} {bs : List UInt8} : encode e bs.length (decode e bs) = bs := by
  cases e
  case littleEndian => exact LittleEndian.encode_decode
  case bigEndian =>
    rw [encode, decode, ← List.length_reverse, LittleEndian.encode_decode, List.reverse_reverse]

theorem encode_mod {e : Endianness} : encode e k (n % 256 ^ k) = encode e k n := by
  have h := @encode_decode e (encode e k n)
  rwa [length_encode, decode_encode] at h

theorem decode_lt {e : Endianness} {bs : List UInt8} : decode e bs < 256 ^ bs.length := by
  rw [← @encode_decode e bs, decode_encode, encode_decode]
  exact Nat.mod_lt _ <| Nat.pow_pos <| by decide

-- The values of consecutive fields, whose widths are given.
def readFields (e : Endianness) : List Nat → List UInt8 → List Nat
  | [],      _  => []
  | k :: ks, bs => decode e (bs.take k) :: readFields e ks (bs.drop k)

theorem readFields_cons {e : Endianness} {bs : List UInt8} :
    readFields e (k :: ks) (encode e k n ++ bs) = n % 256 ^ k :: readFields e ks bs := by
  rw [readFields, List.take_left' length_encode, List.drop_left' length_encode, decode_encode]

def ascii (s : String) : List UInt8 :=
  s.toList.map fun c => .ofNat c.toNat

theorem length_ascii {s : String} : (ascii s).length = s.length := by
  rw [ascii, List.length_map, String.length_toList]

-- A name, the size of the content as an unsigned number of four bytes, and the content.
@[ext]
structure Chunk where
  name        : List UInt8
  content     : List UInt8
  length_name : name.length = 4

namespace Chunk

def bytes (e : Endianness) (c : Chunk) : List UInt8 :=
  c.name ++ encode e 4 c.content.length ++ c.content

def length (c : Chunk) : Nat :=
  8 + c.content.length

@[simp]
theorem length_bytes {c : Chunk} : (c.bytes e).length = c.length := by
  simp [bytes, length, c.length_name, ← Nat.add_assoc]

end Chunk

-- A chunk of a file, and the size that the file gives for its content.
structure SizedChunk extends Chunk where
  size      : Nat
  length_eq : content.length = size

-- The chunk at the beginning, and the bytes behind it.
def readChunk (e : Endianness) (bs : List UInt8) : Option (SizedChunk × List UInt8) :=
  let size := decode e <| (bs.drop 4).take 4
  let rest := bs.drop 8
  if h : 8 ≤ bs.length ∧ size ≤ rest.length then
    some ({
      name        := bs.take 4
      content     := rest.take size
      length_name := List.length_take_of_le <| Nat.le_trans (Nat.le_add_left 4 4) h.left
      size        := size
      length_eq   := List.length_take_of_le h.right
    }, rest.drop size)
  else
    none

theorem readChunk_bytes {e : Endianness} {c : Chunk} (hc : c.content.length < 2 ^ 32) (rest : List UInt8) :
    readChunk e (c.bytes e ++ rest) = some ({ c with size := c.content.length, length_eq := rfl }, rest) := by
  have hb : c.bytes e ++ rest = c.name ++ (encode e 4 c.content.length ++ (c.content ++ rest)) := by
    simp only [Chunk.bytes, List.append_assoc]
  have ht : (c.bytes e ++ rest).take 4 = c.name := by
    rw [hb, List.take_left' c.length_name]
  have hd : (c.bytes e ++ rest).drop 4 = encode e 4 c.content.length ++ (c.content ++ rest) := by
    rw [hb, List.drop_left' c.length_name]
  have hr : (c.bytes e ++ rest).drop 8 = c.content ++ rest := by
    rw [← @List.drop_drop _ 4 4, hd, List.drop_left' length_encode]
  have hs : decode e (((c.bytes e ++ rest).drop 4).take 4) = c.content.length := by
    rw [hd, List.take_left' length_encode, decode_encode]
    exact Nat.mod_eq_of_lt hc
  have hx : ((c.bytes e ++ rest).drop 8).take (decode e (((c.bytes e ++ rest).drop 4).take 4)) = c.content := by
    rw [hs, hr, List.take_left]
  have hl : 8 ≤ (c.bytes e ++ rest).length := by
    rw [List.length_append, Chunk.length_bytes, Chunk.length]
    omega
  have hle : c.content.length ≤ (c.content ++ rest).length := by
    rw [List.length_append]
    omega
  refine (dif_pos ⟨hl, by rwa [hs, hr]⟩).trans ?_
  simp only [Option.some.injEq, Prod.mk.injEq, SizedChunk.mk.injEq]
  exact ⟨⟨Chunk.ext ht hx, hs⟩, by rw [hs, hr, List.drop_left]⟩

def bytes (e : Endianness) (cs : List Chunk) : List UInt8 :=
  cs.flatMap (·.bytes e)

theorem bytes_nil : bytes e [] = [] :=
  rfl

theorem bytes_cons : bytes e (c :: cs) = c.bytes e ++ bytes e cs :=
  List.flatMap_cons

-- Where the first chunk with a name begins.
def offset (name : List UInt8) : List Chunk → Option Nat
  | []      => none
  | c :: cs => if c.name = name then some 0 else (c.length + ·) <$> offset name cs

theorem length_le_length_bytes {cs : List Chunk} : cs.length ≤ (bytes e cs).length := by
  induction cs
  case nil => exact Nat.zero_le _
  case cons c cs hi =>
    rw [bytes_cons, List.length_append, Chunk.length_bytes, Chunk.length, List.length_cons]
    omega

theorem offset_eq_none_iff {cs : List Chunk} : offset name cs = none ↔ ∀ c ∈ cs, c.name ≠ name := by
  induction cs
  case nil => simp [offset]
  case cons c cs hi =>
    rw [offset, List.forall_mem_cons, ← hi]
    by_cases hc : c.name = name <;> simp [hc]

-- The content of the first chunk with a name.
def content (name : List UInt8) : List Chunk → Option (List UInt8)
  | []      => none
  | c :: cs => if c.name = name then some c.content else content name cs

theorem offset_eq_none_of_content {cs : List Chunk} (h : content name cs = none) : offset name cs = none := by
  induction cs
  case nil => rfl
  case cons c cs hi =>
    rw [content] at h
    split at h
    case isTrue  => cases h
    case isFalse hn => rw [offset, if_neg hn, hi h]; rfl

-- The chunk stands at its offset.
theorem exists_offset {cs : List Chunk} {x : List UInt8} (e : Endianness) (h : content name cs = some x) :
    ∃ k, ∃ c : Chunk, offset name cs = some k ∧ (bytes e cs).At k (c.bytes e) ∧ c.content = x := by
  induction cs
  case nil => cases h
  case cons c cs hi =>
    rw [content] at h
    rw [bytes_cons]
    by_cases hn : c.name = name
    case pos =>
      rw [if_pos hn] at h
      exact ⟨0, c, by rw [offset, if_pos hn], List.at_append [] (c.bytes e) (bytes e cs), Option.some.inj h⟩
    case neg =>
      rw [if_neg hn] at h
      have ⟨k, c', ho, ha, hc⟩ := hi h
      have ha' : (c.bytes e ++ bytes e cs).At c.length (bytes e cs) := by
        have := List.at_append (c.bytes e) (bytes e cs) []
        rwa [List.append_nil, Chunk.length_bytes] at this
      exact ⟨c.length + k, c', by rw [offset, if_neg hn, ho]; rfl, ha'.trans ha, hc⟩

end Iff
