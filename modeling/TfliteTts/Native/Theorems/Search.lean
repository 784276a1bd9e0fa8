import TfliteTts.Lib.At
import TfliteTts.Native.AudioFile.Load

-- How the reader finds chunks.
namespace Native

open Iff (Endianness Chunk encode decode ascii)

theorem slice_eq {xs ys : List α} (h : xs.At i ys) : slice xs i ys.length = .ok ys := by
  have := h.length_le
  rw [slice, if_pos (by omega), Int.toNat_natCast, h.take_drop]

theorem slice_ok {xs ys : List α} (h : slice xs i n = .ok ys) : 0 ≤ i ∧ i.toNat + n ≤ xs.length := by
  by_contra hn
  simp [slice, hn] at h

theorem subscripts_eq {xs ys : List α} (h : xs.At i ys) (hi : i + ys.length ≤ 2 ^ 31) :
    subscripts xs i ys.length = .ok ys := by
  have hs : ∀ (k : Nat) y, ys[k]? = some y → subscript xs (int32 (i + k : Int)) = .ok (id y) := by
    intro k y hk
    have hlt := List.getElem?_eq_some_iff.mp hk |>.choose
    rw [int32_eq (by omega) (by omega), ← Int.natCast_add]
    exact subscript_natCast <| (h.getElem? hlt).trans hk
  rw [subscripts, Except.mapM_range_eq_ok hs, List.map_id]

namespace AudioFile

variable {source name : Buffer} {e : Endianness} {c : Chunk} {cs : List Chunk}

theorem fourBytesToInt_encode (h : source.At i (encode e 4 n)) (hi : i + 4 ≤ 2 ^ 31) :
    fourBytesToInt source i e = .ok (int32 n) := by
  have hs := subscripts_eq h <| by rwa [Iff.length_encode]
  rw [Iff.length_encode] at hs
  rw [fourBytesToInt, hs, Except.ok_bind, Iff.decode_encode, Except.pure_eq]
  congr 1
  simp only [int32, Int.bmod]
  omega

theorem twoBytesToInt_encode (h : source.At i (encode e 2 n)) (hi : i + 2 ≤ 2 ^ 31) :
    twoBytesToInt source i e = .ok (int16 n) := by
  have hs := subscripts_eq h <| by rwa [Iff.length_encode]
  rw [Iff.length_encode] at hs
  rw [twoBytesToInt, hs, Except.ok_bind, Iff.decode_encode, Except.pure_eq]
  congr 1
  simp only [int16, Int.bmod]
  omega

-- A file that the reader can address.
theorem size_t_sub_four (h : 4 ≤ source.length) (hl : source.length < 2 ^ 31) :
    size_t (source.length - 4) = source.length - 4 := by
  rw [size_t_eq (by omega) (by omega)]
  omega

theorem searchTurn_ends (h : source.length ≤ i + 4) (hl : source.length < 2 ^ 31) (h4 : 4 ≤ source.length)
    (hi : i < 2 ^ 64) : searchTurn source name e i = .ok (.inr (-1)) := by
  have hs := size_t_sub_four h4 hl
  rw [searchTurn, size_t_eq (by omega) (by omega), hs, if_neg (by omega), Except.pure_eq]

theorem searchTurn_finds (h : source.At i name) (hn : name.length = 4) (hl : source.length < 2 ^ 31)
    (hi : i + 4 < source.length) : searchTurn source name e i = .ok (.inr i) := by
  have hs := size_t_sub_four (by omega) hl
  have hname := slice_eq h
  rw [hn] at hname
  rw [searchTurn, size_t_eq (by omega) (by omega), hs, if_pos (by omega), hname, Except.ok_bind, if_pos rfl,
    Except.pure_eq]

theorem searchTurn_skips (h : source.At i (c.bytes e)) (hn : c.name ≠ name) (hl : source.length < 2 ^ 31) :
    searchTurn source name e i = .ok (.inl (i + c.length : Nat)) := by
  have hle := h.length_le
  rw [Chunk.length_bytes, Chunk.length] at hle
  have hs := size_t_sub_four (by omega) hl
  have hname := slice_eq h.append_left.append_left
  have hsize : fourBytesToInt source (i + 4 : Nat) e = .ok (int32 c.content.length) :=
    fourBytesToInt_encode (c.length_name ▸ h.append_left.append_right) <| by omega
  rw [c.length_name] at hname
  have h₄ : int32 (i + 4) = (i + 4 : Nat) := int32_eq (by omega) (by omega)
  have hc : int32 c.content.length = c.content.length := int32_eq (by omega) (by omega)
  rw [searchTurn, size_t_eq (by omega) (by omega), hs, if_pos (by omega), hname, Except.ok_bind, if_neg hn]
  simp only [h₄, hsize, Except.ok_bind, Except.pure_eq, hc, Chunk.length]
  rw [int32_eq (by omega) (by omega)]
  congr 2
  omega

-- Chunks with other names are passed over.
theorem run_skips (h : source.At i (Iff.bytes e cs)) (hn : ∀ c ∈ cs, c.name ≠ name)
    (hl : source.length < 2 ^ 31) :
    Loop.run (searchTurn source name e) (n + cs.length) i =
      Loop.run (searchTurn source name e) n (i + (Iff.bytes e cs).length : Nat) := by
  induction cs generalizing i
  case nil => simp [Iff.bytes]
  case cons c cs hi =>
    have ⟨hc, hn⟩ := List.forall_mem_cons.mp hn
    rw [Iff.bytes_cons] at h
    have hr := h.append_right
    rw [Chunk.length_bytes] at hr
    rw [List.length_cons, ← Nat.add_assoc, Loop.run_next (searchTurn_skips h.append_left hc hl), hi hr hn,
      Iff.bytes_cons, List.length_append, Chunk.length_bytes, Nat.add_assoc]

-- The first chunk with the name is found.
theorem run_finds (h : source.At i (Iff.bytes e cs)) (ho : Iff.offset name cs = some k)
    (hn : name.length = 4) (hl : source.length < 2 ^ 31) :
    Loop.run (searchTurn source name e) cs.length i = some (.ok (i + k : Nat)) := by
  induction cs generalizing i k
  case nil => cases ho
  case cons c cs hi =>
    have hle := h.length_le
    rw [Iff.bytes_cons, List.length_append, Chunk.length_bytes, Chunk.length] at hle
    rw [Iff.bytes_cons] at h
    by_cases hc : c.name = name
    case pos =>
      rw [Iff.offset, if_pos hc, Option.some_inj] at ho
      have hname := h.append_left.append_left.append_left
      rw [hc] at hname
      rw [← ho, List.length_cons, Loop.run_ends (searchTurn_finds hname hn hl (by omega)), Nat.add_zero]
    case neg =>
      rw [Iff.offset, if_neg hc] at ho
      obtain ⟨k', hk, ho⟩ := Option.map_eq_some_iff.mp ho
      have hr := h.append_right
      rw [Chunk.length_bytes] at hr
      rw [List.length_cons, Loop.run_next (searchTurn_skips h.append_left hc hl), hi hr hk, ← ho, Nat.add_assoc]

theorem getIndexOfChunk_eq {id : String} (h : id.length = 4)
    (hr : Loop.run (searchTurn source (ascii id) e) n start = some r) (hn : n ≤ source.length + 1) :
    getIndexOfChunk source id start e = r.mapError .abort := by
  have ⟨k, hk⟩ := Nat.exists_eq_add_of_le hn
  rw [getIndexOfChunk, if_neg (not_not_intro h), hk, Loop.run_add hr]
  cases r <;> rfl

theorem getIndexOfChunk_finds {id : String} (hid : id.length = 4) (h : source.At start (Iff.bytes e cs))
    (ho : Iff.offset (ascii id) cs = some k) (hl : source.length < 2 ^ 31) :
    getIndexOfChunk source id start e = .ok (start + k : Nat) := by
  have hr := run_finds h ho (Iff.length_ascii.trans hid) hl
  have := h.length_le
  have := @Iff.length_le_length_bytes e cs
  exact getIndexOfChunk_eq hid hr <| by omega

-- Behind the chunks, the search ends if no other chunk could follow.
theorem getIndexOfChunk_fails {id : String} (hid : id.length = 4) (h : source.At start (Iff.bytes e cs))
    (hn : ∀ c ∈ cs, c.name ≠ ascii id) (hl : source.length < 2 ^ 31) (h4 : 4 ≤ source.length)
    (he : source.length ≤ start + (Iff.bytes e cs).length + 4) :
    getIndexOfChunk source id start e = .ok (-1) := by
  have := h.length_le
  have := @Iff.length_le_length_bytes e cs
  have hr : Loop.run (searchTurn source (ascii id) e) (1 + cs.length) start = some (.ok (-1)) := by
    rw [run_skips h hn hl]
    exact Loop.run_ends <| searchTurn_ends he hl h4 <| by omega
  exact getIndexOfChunk_eq hid hr <| by omega

-- Nothing but the name matters where a chunk is found.
theorem getIndexOfChunk_finds_behind {id : String} (hid : id.length = 4) (h : source.At start (Iff.bytes e cs))
    (hn : ∀ c ∈ cs, c.name ≠ ascii id) (hl : source.length < 2 ^ 31)
    (ha : source.At (start + (Iff.bytes e cs).length) (ascii id))
    (hlt : start + (Iff.bytes e cs).length + 4 < source.length) :
    getIndexOfChunk source id start e = .ok (start + (Iff.bytes e cs).length : Nat) := by
  have := @Iff.length_le_length_bytes e cs
  have hr : Loop.run (searchTurn source (ascii id) e) (1 + cs.length) start =
      some (.ok (start + (Iff.bytes e cs).length : Nat)) := by
    rw [run_skips h hn hl]
    exact Loop.run_ends <| searchTurn_finds ha (Iff.length_ascii.trans hid) hl hlt
  exact getIndexOfChunk_eq hid hr <| by omega

-- A file whose chunks begin at index 12 and go on to its end.
structure HasChunks (source : Buffer) (e : Endianness) (cs : List Chunk) : Prop where
  at_chunks : source.At 12 (Iff.bytes e cs)
  length_eq : source.length = 12 + (Iff.bytes e cs).length
  length_lt : source.length < 2 ^ 31

namespace HasChunks

theorem of_append (pre : Buffer) (h : source = pre ++ Iff.bytes e cs) (hp : pre.length = 12)
    (hl : source.length < 2 ^ 31) : HasChunks source e cs where
  at_chunks := by
    have := List.at_append pre (Iff.bytes e cs) []
    rwa [List.append_nil, ← h, hp] at this
  length_eq := by rw [h, List.length_append, hp]
  length_lt := hl

variable {id : String}

-- The search finds the first chunk with the name, and comes to an end if there is none.
theorem index_eq (h : HasChunks source e cs) (hid : id.length = 4) : getIndexOfChunk source id 12 e =
    .ok ((Iff.offset (ascii id) cs).elim (-1) fun k => (12 + k : Nat)) := by
  have hl := h.length_eq
  show getIndexOfChunk _ _ (12 : Nat) _ = _
  cases ho : Iff.offset (ascii id) cs
  case none   =>
    exact getIndexOfChunk_fails hid h.at_chunks (Iff.offset_eq_none_iff.mp ho) h.length_lt (by omega) (by omega)
  case some k => exact getIndexOfChunk_finds hid h.at_chunks ho h.length_lt

theorem index_of_none (h : HasChunks source e cs) (hid : id.length = 4) (hn : Iff.content (ascii id) cs = none) :
    getIndexOfChunk source id 12 e = .ok (-1) := by
  rw [h.index_eq hid, Iff.offset_eq_none_of_content hn]
  rfl

theorem exists_index (h : HasChunks source e cs) (id : String) (hid : id.length = 4) :
    ∃ i, getIndexOfChunk source id 12 e = .ok i ∧ (Iff.content (ascii id) cs = none → i = -1) :=
  ⟨_, h.index_eq hid, fun hn => by rw [Iff.offset_eq_none_of_content hn]; rfl⟩

theorem exists_chunk (h : HasChunks source e cs) (hid : id.length = 4)
    (hs : Iff.content (ascii id) cs = some content) : ∃ i : Nat, ∃ c : Chunk,
      getIndexOfChunk source id 12 e = .ok i ∧ source.At i (c.bytes e) ∧ c.content = content := by
  have ⟨k, c, ho, ha, hc⟩ := Iff.exists_offset e hs
  refine ⟨12 + k, c, ?_, h.at_chunks.trans ha, hc⟩
  rw [h.index_eq hid, ho]
  rfl

end HasChunks

end AudioFile
end Native
