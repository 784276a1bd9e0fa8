import Mathlib.Data.List.GetD
import Mathlib.Tactic.Common

-- Rectangles of cells, and the rows that store them.
@[ext]
structure Grid (α : Type _) [Inhabited α] where
  height  : Nat
  width   : Nat
  cell    : Nat → Nat → α
  empty   : height = 0 → width = 0
  outside : ∀ i j, ¬(i < height ∧ j < width) → cell i j = default

namespace Grid

variable {α : Type _} [Inhabited α] {g g' : Grid α} {rows : List (List α)} {w h : Nat}

theorem ext_cell (hh : g.height = g'.height) (hw : g.width = g'.width)
    (hc : ∀ i j, i < g.height → j < g.width → g.cell i j = g'.cell i j) : g = g' := by
  apply Grid.ext hh hw
  funext i j
  by_cases hi : i < g.height ∧ j < g.width
  case pos => exact hc i j hi.left hi.right
  case neg => rw [g.outside i j hi, g'.outside i j <| by rwa [← hh, ← hw]]

-- Keeps the cells that remain, and adds empty ones.
def resize (g : Grid α) (h w : Nat) : Grid α where
  height := h
  width  := if h = 0 then 0 else w
  cell   := fun i j => if i < h ∧ j < w then g.cell i j else default
  empty  := fun h => if_pos h
  outside := by
    intro i j hi
    have hn : ¬(i < h ∧ j < w) := by
      intro hlt
      rw [if_neg <| Nat.ne_of_gt <| Nat.zero_lt_of_lt hlt.left] at hi
      exact hi hlt
    exact if_neg hn

-- The grid whose rows have the given width.
def ofRows (w : Nat) (rows : List (List α)) : Grid α where
  height  := rows.length
  width   := if rows = [] then 0 else w
  cell    := fun i j => if i < rows.length ∧ j < w then (rows.getD i []).getD j default else default
  empty   := fun h => if_pos <| List.eq_nil_of_length_eq_zero h
  outside := by
    intro i j hi
    have hn : ¬(i < rows.length ∧ j < w) := by
      intro hlt
      rw [if_neg <| List.ne_nil_of_length_pos <| Nat.zero_lt_of_lt hlt.left] at hi
      exact hi hlt
    exact if_neg hn

theorem width_ofRows : (ofRows w rows).width = if rows = [] then 0 else w :=
  rfl

def resizeRow (row : List α) (w : Nat) : List α :=
  row.take w ++ List.replicate (w - row.length) default

def resizeRows (rows : List (List α)) (h w : Nat) : List (List α) :=
  (rows.take h ++ List.replicate (h - rows.length) []).map (resizeRow · w)

@[simp]
theorem length_resizeRow {row : List α} : (resizeRow row w).length = w := by
  rw [resizeRow, List.length_append, List.length_take, List.length_replicate]
  omega

@[simp]
theorem length_resizeRows : (resizeRows rows h w).length = h := by
  rw [resizeRows, List.length_map, List.length_append, List.length_take, List.length_replicate]
  omega

theorem length_of_mem_resizeRows : ∀ row ∈ resizeRows rows h w, row.length = w := by
  intro row hr
  have ⟨_, _, hr⟩ := List.mem_map.mp hr
  rw [← hr, length_resizeRow]

theorem getD_resizeRow {row : List α} {j : Nat} (hj : j < w) : (resizeRow row w).getD j default = row.getD j default := by
  rw [resizeRow]
  obtain hl | hl := Nat.lt_or_ge j row.length
  case inl =>
    rw [List.getD_append _ _ _ _ <| by rw [List.length_take]; omega, List.getD_eq_getElem?_getD,
      List.getElem?_take_of_lt hj, ← List.getD_eq_getElem?_getD]
  case inr =>
    rw [List.getD_append_right _ _ _ _ <| by rw [List.length_take]; omega, List.getD_eq_default _ _ hl,
      List.getD_eq_getElem?_getD]
    exact List.getElem?_getD_replicate_default_eq _ _ _

theorem getD_resizeRows {i : Nat} (hi : i < h) : (resizeRows rows h w).getD i [] = resizeRow (rows.getD i []) w := by
  rw [resizeRows, List.getD_eq_getElem?_getD, List.getElem?_map]
  obtain hl | hl := Nat.lt_or_ge i rows.length
  case inl =>
    rw [List.getElem?_append_left <| by rw [List.length_take]; omega, List.getElem?_take_of_lt hi,
      List.getElem?_eq_getElem hl, List.getD_eq_getElem _ _ hl]
    rfl
  case inr =>
    have hk : i - min h rows.length < h - rows.length := by omega
    rw [List.getElem?_append_right <| by rw [List.length_take]; omega, List.length_take,
      List.getElem?_replicate_of_lt hk, List.getD_eq_default _ _ hl]
    rfl

-- The rows store what the grid contains.
theorem ofRows_resizeRows {w' : Nat} (hr : ∀ row ∈ rows, row.length = w) :
    ofRows w' (resizeRows rows h w') = (ofRows w rows).resize h w' := by
  apply ext_cell
  case hh => exact length_resizeRows
  case hw =>
    have he : resizeRows rows h w' = [] ↔ h = 0 := by
      rw [← List.length_eq_zero_iff, length_resizeRows]
    simp only [ofRows, resize, he]
  case hc =>
    intro i j hi hj
    have hi : i < h := Nat.lt_of_lt_of_eq hi length_resizeRows
    have hj : j < w' := by
      rw [ofRows] at hj
      simp only at hj
      split at hj
      case isTrue  => exact absurd hj <| Nat.not_lt_zero j
      case isFalse => exact hj
    simp only [ofRows, resize, length_resizeRows, hi, hj, and_self, if_true, getD_resizeRows hi, getD_resizeRow hj]
    obtain hl | hl := Nat.lt_or_ge i rows.length
    case inr => simp [Nat.not_lt.mpr hl]
    case inl =>
      have hw := hr _ <| List.getElem_mem hl
      rw [List.getD_eq_getElem _ _ hl]
      obtain hlt | hge := Nat.lt_or_ge j w
      case inl => rw [if_pos ⟨hl, hlt⟩]
      case inr => rw [if_neg <| by omega, List.getD_eq_default _ _ <| by omega]

-- What is beyond the width does not matter.
theorem ofRows_take : ofRows w (rows.map (·.take w)) = ofRows w rows := by
  apply ext_cell
  case hh => exact List.length_map _
  case hw => simp only [width_ofRows, List.map_eq_nil_iff]
  case hc =>
    intro i j _ _
    simp only [ofRows, List.length_map]
    by_cases hi : i < rows.length ∧ j < w
    case neg => rw [if_neg hi, if_neg hi]
    case pos =>
      have hr : (rows.map (·.take w)).getD i [] = (rows.getD i []).take w := by
        rw [List.getD_eq_getElem _ _ <| by rw [List.length_map]; exact hi.left, List.getElem_map,
          List.getD_eq_getElem _ _ hi.left]
      rw [if_pos hi, if_pos hi, hr, List.getD_eq_getElem?_getD, List.getElem?_take_of_lt hi.right,
        ← List.getD_eq_getElem?_getD]

end Grid
