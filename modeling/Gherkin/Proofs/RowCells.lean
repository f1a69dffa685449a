import Gherkin.Proofs.Neat

/-!
# The cells of a row

Writing cells as a row and splitting a line into cells are inverse to each other.
What a row cannot show is white space around a cell, and it cannot show a bar in
one; other texts can be cells, the empty one too, wherever it stands.

> `cells_row_inverse`: the cells of a line are trimmed and have no bar, and exactly
> such cells are the cells of their row.  A line has one cell more than bars, when
> a bar at either end is not counted.

The bars at the ends are taken off one after the other, so a line that is a single
bar loses one only, and has one empty cell.
-/

namespace Gherkin

/-- Cells that a row can show. -/
structure Row.IsTrimmed (cells : Row) : Prop where
  ne_nil : cells ≠ []
  trimmed : ∀ c ∈ cells, Text.trim c = c
  noBar : ∀ c ∈ cells, '|' ∉ c

/-- Cells that can be written as a row on one line. -/
structure Row.IsNeat (cells : Row) : Prop where
  ne_nil : cells ≠ []
  neat : ∀ c ∈ cells, Text.IsNeat c
  noBar : ∀ c ∈ cells, '|' ∉ c

theorem Row.IsNeat.isTrimmed {cells : Row} (h : cells.IsNeat) : cells.IsTrimmed where
  ne_nil := h.ne_nil
  trimmed c hc := (h.neat c hc).trim_eq
  noBar := h.noBar

namespace Text

/-- There is one piece more than separators. -/
theorem length_pieces (sep : Char) : ∀ s : Text, (pieces sep s).length = s.count sep + 1
  | [] => rfl
  | c :: s => by
    have ih := length_pieces sep s
    rw [pieces]
    by_cases hc : c = sep
    · rw [if_pos hc, List.length_cons, ih, hc, List.count_cons_self]
    · rw [if_neg hc, List.count_cons_of_ne hc, ← ih]
      -- the character joins the first piece
      cases hp : pieces sep s with
      | nil => exact absurd hp (pieces_ne_nil sep s)
      | cons w ws => rfl

/-- A text without one `c` in front of it. -/
theorem withoutLeading_singleton (c : Char) (s : Text) :
    withoutLeading [c] s = if s.head? = some c then s.tail else s := by
  cases s with
  | nil => rfl
  | cons d s =>
    by_cases hd : d = c
    · subst hd
      rw [List.head?_cons, if_pos rfl]
      exact withoutLeading_append [d] s
    · have hnone : after? [c] (d :: s) = none := by simp [after?, Ne.symm hd]
      rw [withoutLeading, hnone, if_neg (by simpa using hd)]
      rfl

/-- A text without one `c` behind it. -/
theorem withoutTrailing_singleton (c : Char) (s : Text) :
    withoutTrailing [c] s = if s.getLast? = some c then s.dropLast else s := by
  rcases List.eq_nil_or_concat' s with rfl | ⟨s, d, rfl⟩
  · rfl
  · rw [List.getLast?_concat, List.dropLast_concat]
    by_cases hd : d = c
    · subst hd
      rw [if_pos rfl, withoutTrailing_append]
    · have hnone : before? [c] (s ++ [d]) = none := by simp [before?, after?, Ne.symm hd]
      rw [withoutTrailing, hnone, if_neg (by simpa using hd)]
      rfl

end Text

namespace Line

/-! ## From cells to a row and back -/

/-- A cell as it stands in a row. -/
def padded (c : Text) : Text := ' ' :: (c ++ [' '])

theorem pad_join :
    ∀ {cs : List Text}, cs ≠ [] →
      ' ' :: (Text.join [' ', '|', ' '] cs ++ [' ']) = Text.join ['|'] (cs.map padded)
  | [], h => absurd rfl h
  | [c], _ => rfl
  | c :: d :: cs, _ => by
    have ih := pad_join (List.cons_ne_nil d cs)
    rw [List.map_cons, Text.join_cons _ _ (List.cons_ne_nil d cs), Text.join_cons ['|'] _ (by simp),
      ← ih]
    simp [padded]

theorem trim_padded (c : Text) : Text.trim (padded c) = Text.trim c := by
  have hblank : ∀ x ∈ [' '], Text.isBlank x = true := Text.isBlank_of_mem_spaces 1
  show Text.trim ([' '] ++ (c ++ [' '])) = Text.trim c
  rw [Text.trim_append_of_blank hblank, Text.trim_append_blank hblank]

/-- A row starts and ends with a bar. -/
theorem trim_row (cs : Row) : Text.trim (row cs) = row cs := by
  have hbar : Text.isBlank '|' = false := by decide
  apply Text.trim_eq_self
  · intro c hc
    obtain rfl : '|' = c := by simpa [row] using hc
    exact hbar
  · intro c hc
    have hrow : row cs = (['|', ' '] ++ Text.join [' ', '|', ' '] cs ++ [' ']) ++ ['|'] := by
      simp [row]
    rw [hrow, List.getLast?_concat, Option.some.injEq] at hc
    exact hc ▸ hbar

/-- And it stands on one line. -/
theorem isNeat_row {cs : Row} (h : cs.IsNeat) : Text.IsNeat (row cs) := by
  have hjoin : ∀ {cs : List Text}, (∀ c ∈ cs, '\n' ∉ c) →
      '\n' ∉ Text.join [' ', '|', ' '] cs := by
    intro cs hcs
    induction cs with
    | nil => simp [Text.join]
    | cons c cs ih =>
      cases cs with
      | nil => exact hcs c (by simp)
      | cons d ds =>
        have hc := hcs c (by simp)
        have hds := ih fun x hx => hcs x (List.mem_cons_of_mem _ hx)
        simp [Text.join, hc, hds]
  rw [Text.isNeat_iff]
  refine ⟨trim_row cs, ?_⟩
  simp [row, hjoin fun c hc => (h.neat c hc).oneLine]

/-- The cells of a written row. -/
theorem cells_row {cs : Row} (h : cs.IsTrimmed) : cells (row cs) = cs := by
  -- with the bars at its ends taken off, a row is its padded cells between bars
  have hrow : row cs = '|' :: (Text.join ['|'] (cs.map padded) ++ ['|']) := by
    rw [← pad_join h.ne_nil]
    simp [row]
  have hlead (s : Text) : Text.withoutLeading ['|'] ('|' :: s) = s :=
    Text.withoutLeading_append ['|'] s
  have hbars : ∀ w ∈ cs.map padded, '|' ∉ w := by
    intro w hw
    obtain ⟨c, hc, rfl⟩ := List.mem_map.1 hw
    simp [padded, h.noBar c hc]
  have htrim : ∀ c ∈ cs, (Text.trim ∘ padded) c = c := fun c hc =>
    (trim_padded c).trans (h.trimmed c hc)
  rw [cells, trim_row, hrow, hlead, Text.withoutTrailing_append,
    Text.pieces_join (by simpa using h.ne_nil) hbars, List.map_map]
  exact (List.map_congr_left htrim).trans (List.map_id cs)

/-! ## The cells of a line -/

/-- The cells of any line can be shown in a row. -/
theorem isTrimmed_cells (line : Text) : Row.IsTrimmed (cells line) where
  ne_nil := by simpa [cells] using Text.pieces_ne_nil _ _
  trimmed c hc := by
    obtain ⟨w, -, rfl⟩ := List.mem_map.1 hc
    exact Text.trim_trim w
  noBar c hc := by
    obtain ⟨w, hw, rfl⟩ := List.mem_map.1 hc
    exact fun hmem => (Text.not_mem_of_mem_pieces hw).1 (Text.mem_of_mem_trim hmem)

/-- And on one line if it is one. -/
theorem isNeat_cells {line : Text} (h : '\n' ∉ line) : Row.IsNeat (cells line) where
  ne_nil := (isTrimmed_cells line).ne_nil
  neat c hc := by
    obtain ⟨w, hw, rfl⟩ := List.mem_map.1 hc
    refine Text.isNeat_trim fun hmem => h ?_
    exact Text.mem_of_mem_trim (Text.mem_of_mem_withoutLeading
      (Text.mem_of_mem_withoutTrailing ((Text.not_mem_of_mem_pieces hw).2 _ hmem)))
  noBar := (isTrimmed_cells line).noBar

/-- A text without one bar in front of it and then, if there is one left, one bar
behind it. -/
def withinBars (s : Text) : Text :=
  let rest := if s.head? = some '|' then s.tail else s
  if rest.getLast? = some '|' then rest.dropLast else rest

/-- A line has one cell more than bars within it. -/
theorem length_cells (line : Text) :
    (cells line).length = (withinBars (Text.trim line)).count '|' + 1 := by
  rw [cells, List.length_map, Text.length_pieces, Text.withoutTrailing_singleton,
    Text.withoutLeading_singleton]
  rfl

/-- **Splitting and writing are inverse.**  The cells of a line, of which there is one
more than bars within it, are trimmed and have no bar, and the row that is written with
them has the same cells.  Exactly such cells, if there is at least one, are the cells of
their row. -/
theorem cells_row_inverse :
    (∀ line : Text, Row.IsTrimmed (cells line) ∧ cells (row (cells line)) = cells line ∧
      (cells line).length = (withinBars (Text.trim line)).count '|' + 1) ∧
    ∀ cs : Row, cells (row cs) = cs ↔ cs.IsTrimmed := by
  refine ⟨fun line => ?_, fun cs => ⟨fun h => ?_, cells_row⟩⟩
  · have htrimmed := isTrimmed_cells line
    exact ⟨htrimmed, cells_row htrimmed, length_cells line⟩
  · rw [← h]
    exact isTrimmed_cells (row cs)

/-- The edges of the rule: one bar, no bar behind, and empty cells at both ends. -/
example : cells ['|'] = [[]] ∧ cells "| a" = ["a".toList] ∧
    cells "|| b | |" = [[], "b".toList, []] := by decide

end Line

end Gherkin
