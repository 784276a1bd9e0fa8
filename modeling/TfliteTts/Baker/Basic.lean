import TfliteTts.Lib.Except
import TfliteTts.Baker.Tables

open Dart

namespace Baker

def symbolToId (symbol : Str) : Except Error Nat :=
  match symbolTable.lookup symbol with
  | some id => .ok id
  | none    => .error .type

def pinyinDict (pinyin : Str) : Option (Str × Str) :=
  pinyinTable.lookup pinyin

-- The code units that `zhPattern` matches.
def isHan (c : CodeUnit) : Bool :=
  0x4e00 ≤ c && c ≤ 0x9fa5

def isZH (word : Str) : Bool :=
  word.any isHan

-- The local variables of the loop in `getPhoneme`.
@[ext]
structure Cursor where
  i : Nat
  j : Nat
  result : List Str

-- `if (k < charLen && character[k] != "#") result.add("#0")`
def separator (character : Str) (k : Nat) : List Str :=
  match character[k]? with
  | some c => if [c] = lit "#" then [] else [lit "#0"]
  | none   => []

namespace Cursor

-- The branch of the loop body for a Han character whose pinyin is not in the dictionary.
def erhua (asserts : Bool) (character pinyin : Str) (s : Cursor) : Except Error Cursor := do
  assert asserts <| (fun c => c == lit "儿") <$> charAt character (s.i + 1)
  assert asserts <| (fun c => c == lit "r") <$> charAt pinyin (pinyin.length - 2)
  let tone ← charAt pinyin (pinyin.length - 1)
  let p ← nullCheck <| pinyinDict (← substring pinyin 0 (pinyin.length - 1))
  return {
    i := s.i + 2
    j := s.j + 1
    result := s.result ++ [p.1, p.2 ++ tone, lit "er5"] ++ separator character (s.i + 2)
  }

-- The branch of the loop body for a Han character whose pinyin is in the dictionary.
def plain (character pinyin : Str) (s : Cursor) : Except Error Cursor := do
  let tone ← charAt pinyin (pinyin.length - 1)
  let p ← nullCheck <| pinyinDict (← substring pinyin 0 (pinyin.length - 1))
  return {
    i := s.i + 1
    j := s.j + 1
    result := s.result ++ [p.1, p.2 ++ tone] ++ separator character (s.i + 1)
  }

-- One iteration of the loop in `getPhoneme`.
def step (asserts : Bool) (character : Str) (pinyin : List Str) (s : Cursor) :
    Except Error Cursor := do
  let curChar ← charAt character s.i
  if isZH curChar then
    let entry ← index pinyin s.j
    match pinyinDict (← substring entry 0 (entry.length - 1)) with
    | none   => s.erhua asserts character entry
    | some _ => s.plain character entry
  else if curChar = lit "#" then
    let symbol ← substring character s.i (s.i + 2)
    return { s with i := s.i + 2, result := s.result ++ [symbol] }
  else
    return { s with i := s.i + 1 }

theorem step_advances (h : step asserts character pinyin s = .ok s') : s.i < s'.i := by
  simp only [step, Except.bind_eq_ok] at h
  have ⟨_, _, h⟩ := h
  split at h
  case isTrue =>
    simp only [Except.bind_eq_ok] at h
    have ⟨_, _, _, _, h⟩ := h
    split at h <;> simp only [erhua, plain, Except.bind_eq_ok, Except.pure_eq, Except.ok.injEq] at h
    case h_1 => obtain ⟨_, _, _, _, _, _, _, _, _, _, rfl⟩ := h; simp
    case h_2 => obtain ⟨_, _, _, _, _, _, rfl⟩ := h; simp
  case isFalse =>
    split at h <;> simp only [Except.bind_eq_ok, Except.pure_eq, Except.ok.injEq] at h
    case isTrue  => obtain ⟨_, _, rfl⟩ := h; simp
    case isFalse => subst h; simp

-- `while (i < charLen) { ... }`
def loop (asserts : Bool) (character : Str) (pinyin : List Str) (s : Cursor) :
    Except Error Cursor :=
  if s.i < character.length then
    match _h : step asserts character pinyin s with
    | .error e => .error e
    | .ok s'   => loop asserts character pinyin s'
  else
    .ok s
termination_by character.length - s.i
decreasing_by
  have := step_advances ‹_›
  omega

end Cursor

def getPhoneme (asserts : Bool) (character : Str) (pinyin : List Str) :
    Except Error (List Str) := do
  let character := replaceAll character (lit "#4") (lit "")
  let s ← Cursor.loop asserts character pinyin { i := 0, j := 0, result := [lit "sil"] }
  let result := if s.result.getLast? = some (lit "#0") then s.result.dropLast else s.result
  assert asserts <| .ok (s.j == pinyin.length)
  return result ++ [lit "sil"]

-- The constructor computes this identifier once.
def eosId : Except Error Nat :=
  symbolToId (lit "eos")

def textToSequence (asserts : Bool) (text : Str) (pronunciation : Option (List Str)) :
    Except Error (List Nat) := do
  let phonemes ← getPhoneme asserts text (← nullCheck pronunciation)
  let sequence ← phonemes.mapM symbolToId
  return sequence ++ [← eosId]

end Baker
