import Mathlib.Logic.Function.Basic
import TfliteTts.Lib.Except
import TfliteTts.Lib.LittleEndian

-- The part of C++ that the native engine relies on.
namespace Native

-- How a call can end other than by returning.
inductive Abort
  | exit (code : Int)
  | exception  -- an exception that nothing catches
  | assertion  -- a failed assertion
  | undefined  -- undefined behaviour, such as a null dereference or an access out of bounds
  deriving DecidableEq, Repr

inductive Pointer (α : Type)
  | null
  | indeterminate  -- a member without initializer
  | object (a : α)

namespace Pointer

def deref : Pointer α → Except Abort α
  | object a => .ok a
  | _        => .error .undefined

theorem deref_eq_ok_iff {p : Pointer α} : p.deref = .ok a ↔ p = object a := by
  cases p <;> simp [deref]

-- `!p`
def isNull : Pointer α → Except Abort Bool
  | null          => .ok true
  | indeterminate => .error .undefined
  | object _      => .ok false

end Pointer

-- Conversions to the fixed-width integer types, which wrap.
@[irreducible]
def int16 (n : Int) : Int :=
  n.bmod (2 ^ 16)

@[irreducible]
def int32 (n : Int) : Int :=
  n.bmod (2 ^ 32)

@[irreducible]
def uint32 (n : Int) : Nat :=
  (n % 2 ^ 32).toNat

@[irreducible]
def size_t (n : Int) : Nat :=
  (n % 2 ^ 64).toNat

theorem int32_eq (h : -2 ^ 31 ≤ n) (h' : n < 2 ^ 31) : int32 n = n := by
  simp only [int32, Int.bmod]
  omega

theorem int32_lt (n : Int) : int32 n < 2 ^ 31 := by
  simp only [int32, Int.bmod]
  omega

theorem int32_toNat_le {n : Nat} : (int32 n).toNat ≤ n := by
  simp only [int32, Int.bmod]
  omega

theorem int32_add_int32 {a b : Int} : int32 (a + int32 b) = int32 (a + b) := by
  rw [int32, int32, int32, Int.add_bmod_bmod]

theorem int32_int32_add {a b : Int} : int32 (int32 a + b) = int32 (a + b) := by
  rw [int32, int32, int32, Int.bmod_add_bmod]

theorem uint32_eq (h : 0 ≤ n) (h' : n < 2 ^ 32) : uint32 n = n.toNat := by
  rw [uint32, Int.emod_eq_of_lt h h']

theorem size_t_eq (h : 0 ≤ n) (h' : n < 2 ^ 64) : size_t n = n.toNat := by
  rw [size_t, Int.emod_eq_of_lt h h']

-- `xs[i]` for a `std::vector`. A negative index converts to one that is out of bounds.
def subscript (xs : List α) (i : Int) : Except Abort α :=
  if i < 0 then .error .undefined else
    match xs[i.toNat]? with
    | some x => .ok x
    | none   => .error .undefined

theorem subscript_natCast {xs : List α} {i : Nat} (h : xs[i]? = some x) :
    subscript xs (i : Int) = .ok x := by
  have : ¬(i : Int) < 0 := by omega
  simp [subscript, h, this]

theorem subscript_eq_ok_iff {xs : List α} :
    subscript xs i = .ok x ↔ 0 ≤ i ∧ xs[i.toNat]? = some x := by
  unfold subscript
  split
  case isTrue h  => simp [show ¬0 ≤ i by omega]
  case isFalse h => cases hx : xs[i.toNat]? <;> simp [show 0 ≤ i by omega]

-- Blocks of memory and contents of files. Both targets are little endian.
abbrev Buffer := List UInt8

export LittleEndian (Word)

-- The block `dst` after `memcpy(dst, src, n)`.
def overwrite (dst src : Buffer) (n : Nat) : Except Abort Buffer :=
  if n ≤ dst.length ∧ n ≤ src.length then
    .ok (src.take n ++ dst.drop n)
  else
    .error .undefined

theorem overwrite_all {dst src : Buffer} (h : n = dst.length) (h' : n = src.length) :
    overwrite dst src n = .ok src := by
  have hl : src.take n = src := List.take_of_length_le <| Nat.le_of_eq h'.symm
  have hr : dst.drop n = [] := List.drop_eq_nil_of_le <| Nat.le_of_eq h.symm
  rw [overwrite, if_pos (by omega), hl, hr, List.append_nil]

abbrev Path       := String
abbrev FileSystem := Path → Option Buffer

def FileSystem.write (files : FileSystem) (path : Path) (content : Buffer) : FileSystem :=
  Function.update files path (some content)

@[simp]
theorem FileSystem.write_self {files : FileSystem} : files.write path content path = some content :=
  Function.update_self path _ files

theorem FileSystem.write_of_ne {files : FileSystem} (h : path' ≠ path) :
    files.write path content path' = files path' :=
  Function.update_of_ne h _ files

-- An input stream: what it still has to deliver, unless its failbit is set, as it is after opening a
-- file that does not exist.
structure IStream where
  content : Buffer
  failed  : Bool

-- `read(buffer, n)`, which yields nothing when it delivers fewer than `n` bytes.
def IStream.read (s : IStream) (n : Nat) : Option Buffer :=
  if s.failed ∨ s.content.length < n then none else some (s.content.take n)

end Native
