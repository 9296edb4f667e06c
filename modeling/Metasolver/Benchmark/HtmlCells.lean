import Metasolver.Benchmark.HtmlDocument

/-!
# Cells and fields

What cells a CSV table that was written with all fields in quotes has after `csv_to_html`.
The loop opens a cell at the first character of a field that is not a quote: a field without
such a character gets no cell, and the quotes before it are outside the cell.
-/

namespace Metasolver

open Csv
open Markup hiding Text

/-! ## Reading the cells -/

/-- The rows and the cells that have been read. -/
structure TableReader where
  rows : List (List Text) := []
  row : List Text := []
  cell : Option Text := none
  deriving DecidableEq, Repr

def TableReader.read (r : TableReader) : Token HtmlTag → TableReader
  | .start .tr => { r with row := [] }
  | .stop .tr => { r with rows := r.rows ++ [r.row], row := [] }
  | .start .th | .start .td => { r with cell := some [] }
  | .stop .th | .stop .td => { r with row := r.row ++ r.cell.toList, cell := none }
  | .char c => { r with cell := r.cell.map (· ++ [c]) }
  | _ => r

/-- The texts of the cells, row by row, with the entities decoded. -/
def tableCells (html : Text) : Option (List (List Text)) :=
  (htmlVocabulary.lex html).map fun ts => (ts.foldl TableReader.read {}).rows

/-- The cells of the table are the fields of the CSV table. -/
def CellForCell (table : List (List Text)) : Prop :=
  tableCells (csvToHtml (write (table.map (·.map Field.quoted)))) = some table

instance : DecidablePred CellForCell := fun _ => inferInstanceAs (Decidable (_ = _))

section Reader

variable {rows : List (List Text)} {row : List Text} {tag : HtmlTag}

theorem read_text (t u : Text) :
    (t.map Token.char).foldl TableReader.read ⟨rows, row, some u⟩ = ⟨rows, row, some (u ++ t)⟩ := by
  induction t generalizing u with
  | nil => rw [List.append_nil]; rfl
  | cons c t ih =>
      rw [List.map_cons, List.foldl_cons, TableReader.read, Option.map_some, ih, List.append_assoc]
      rfl

theorem read_items (isCell : tag = .th ∨ tag = .td) (items : List RowItem) :
    (items.flatMap (RowItem.tokens tag)).foldl TableReader.read ⟨rows, row, none⟩ =
      ⟨rows, row ++ items.filterMap RowItem.text, none⟩ := by
  induction items generalizing row with
  | nil => rw [List.filterMap_nil, List.append_nil]; rfl
  | cons item items ih =>
      cases item with
      | quote => exact ih
      | cell t =>
          have cell : (RowItem.tokens tag (.cell t)).foldl TableReader.read ⟨rows, row, none⟩ =
              ⟨rows, row ++ [t], none⟩ := by
            rcases isCell with rfl | rfl
            all_goals
              rw [RowItem.tokens, List.cons_append, List.foldl_cons, TableReader.read,
                List.foldl_append, read_text]
              rfl
          rw [List.flatMap_cons, List.foldl_append, cell, ih, List.append_assoc]
          rfl

theorem read_row (isCell : tag = .th ∨ tag = .td) (items : List RowItem) :
    (rowTokens tag items).foldl TableReader.read ⟨rows, [], none⟩ =
      ⟨rows ++ [items.filterMap RowItem.text], [], none⟩ := by
  rw [rowTokens, List.cons_append, List.foldl_cons, List.foldl_append, TableReader.read,
    read_items isCell]
  rfl

theorem read_body (others : List (List RowItem)) :
    (others.flatMap (rowTokens .td)).foldl TableReader.read ⟨rows, [], none⟩ =
      ⟨rows ++ others.map (·.filterMap RowItem.text), [], none⟩ := by
  induction others generalizing rows with
  | nil => rw [List.map_nil, List.append_nil]; rfl
  | cons items others ih =>
      rw [List.flatMap_cons, List.foldl_append, read_row (Or.inr rfl), ih, List.append_assoc]
      rfl

theorem read_document (items : List (List RowItem)) :
    ((documentTokens items).foldl TableReader.read {}).rows =
      items.map (·.filterMap RowItem.text) := by
  cases items with
  | nil => rfl
  | cons header others =>
      have read : (tableStart ++ rowsTokens (header :: others)).foldl TableReader.read {} =
          ⟨(header :: others).map (·.filterMap RowItem.text), [], none⟩ := by
        rw [rowsTokens, List.append_assoc, List.foldl_append, List.foldl_append]
        have start : tableStart.foldl TableReader.read {} = {} := rfl
        have head (rows : List (List Text)) :
            headEnd.foldl TableReader.read ⟨rows, [], none⟩ = ⟨rows, [], none⟩ := rfl
        rw [start, read_row (Or.inl rfl), List.foldl_append, head, read_body]
        rfl
      rw [documentTokens, List.foldl_append, read]
      rfl

end Reader

/-- The cells of every output, row by row, are those of the records. -/
theorem tableCells_csvToHtml (input : Text) :
    tableCells (csvToHtml input) = some ((records input).map recordCells) := by
  rw [tableCells, csvToHtml_eq, Vocabulary.lex_printTokens, Option.map_some, read_document,
    List.map_map]
  rfl

/-! ## The cells of the fields -/

/-- The text that is shown of a field. -/
def shownText (t : Text) : Option Text :=
  if t.dropWhile (· = '"') = [] then none else some (t.dropWhile (· = '"'))

/-- A field of which all is shown: it is not empty and does not begin with a quote. -/
def Showable (t : Text) : Prop := t ≠ [] ∧ t.head? ≠ some '"'

theorem shownText_eq_self_iff (t : Text) : shownText t = some t ↔ Showable t := by
  cases t with
  | nil => simp [shownText, Showable]
  | cons c t =>
      by_cases quote : c = '"'
      · subst quote
        refine iff_of_false (fun shown => ?_) (fun showable => showable.2 rfl)
        have shorter := (List.dropWhile_suffix (l := t) (· = '"')).length_le
        rw [shownText, List.dropWhile_cons_of_pos (by simp)] at shown
        split_ifs at shown
        have length := congrArg List.length (Option.some.inj shown)
        rw [List.length_cons] at length
        omega
      · refine iff_of_true ?_ ⟨List.cons_ne_nil _ _, by simpa using quote⟩
        simp [shownText, quote]

/-- A row is shown as it is if each of its fields is. -/
theorem filterMap_shownText_eq_self_iff (row : List Text) :
    row.filterMap shownText = row ↔ ∀ t ∈ row, Showable t := by
  induction row with
  | nil => simp
  | cons t row ih =>
      cases shown : shownText t with
      | none =>
          refine iff_of_false (fun same => ?_) (fun all => ?_)
          · have fewer := List.length_filterMap_le shownText row
            rw [List.filterMap_cons_none shown] at same
            rw [same, List.length_cons] at fewer
            omega
          · rw [(shownText_eq_self_iff t).mpr (all t List.mem_cons_self)] at shown
            cases shown
      | some u =>
          rw [List.filterMap_cons_some shown, List.cons.injEq, ih, List.forall_mem_cons,
            ← shownText_eq_self_iff, shown, Option.some.injEq]

section Fields

variable {items : List RowItem}

theorem put_inCell (t u : Text) :
    (t.map Field.symbolInQuotes).foldl OpenRow.put ⟨items, some u⟩ = ⟨items, some (u ++ t)⟩ := by
  induction t generalizing u with
  | nil => rw [List.append_nil]; rfl
  | cons c t ih =>
      have one : OpenRow.put ⟨items, some u⟩ (Field.symbolInQuotes c) =
          ⟨items, some (u ++ [c])⟩ := by
        rw [Field.symbolInQuotes]
        split_ifs with quote
        · rw [quote]
          rfl
        · rfl
      rw [List.map_cons, List.foldl_cons, one, ih, List.append_assoc]
      rfl

/-- The quotes before the first other character go into the row, and the rest into a cell. -/
theorem put_field (t : Text) :
    ∃ quotes, quotes.filterMap RowItem.text = [] ∧
      (Field.quoted t).symbols.foldl OpenRow.put ⟨items, none⟩ =
        ⟨items ++ quotes, shownText t⟩ := by
  have inQuotes : ∃ quotes, quotes.filterMap RowItem.text = [] ∧
      (t.map Field.symbolInQuotes).foldl OpenRow.put ⟨items, none⟩ =
        ⟨items ++ quotes, shownText t⟩ := by
    induction t generalizing items with
    | nil => exact ⟨[], rfl, by rw [List.append_nil]; rfl⟩
    | cons c t ih =>
        by_cases quote : c = '"'
        · subst quote
          obtain ⟨quotes, none_, put⟩ := @ih (items ++ [.quote])
          refine ⟨.quote :: quotes, none_, ?_⟩
          rw [List.append_assoc] at put
          have same : shownText ('"' :: t) = shownText t := by
            simp [shownText]
          rw [same]
          exact put
        · have shown : shownText (c :: t) = some (c :: t) :=
            (shownText_eq_self_iff _).mpr ⟨List.cons_ne_nil _ _, by simpa using quote⟩
          refine ⟨[], rfl, ?_⟩
          rw [List.map_cons, List.foldl_cons, Field.symbolInQuotes, if_neg quote, shown,
            List.append_nil]
          exact put_inCell t [c]
  obtain ⟨quotes, none_, put⟩ := inQuotes
  refine ⟨quotes, none_, ?_⟩
  have start : OpenRow.put ⟨items, none⟩ .quote = ⟨items, none⟩ := rfl
  rw [Field.symbols, List.cons_append, List.foldl_cons, List.foldl_append, start, put]
  rfl

/-- Of a field without a character that is not a quote there is no cell. -/
theorem text_closeCell (items : List RowItem) (cell : Option Text) :
    (OpenRow.closeCell ⟨items, cell⟩).items.filterMap RowItem.text =
      items.filterMap RowItem.text ++ cell.toList := by
  cases cell with
  | none => exact (List.append_nil _).symm
  | some t => exact List.filterMap_append

theorem text_line (row : List Text) (items : List RowItem) :
    ((lineRecord (row.map Field.quoted)).foldl OpenRow.put ⟨items, none⟩).close.filterMap
        RowItem.text = items.filterMap RowItem.text ++ row.filterMap shownText := by
  induction row generalizing items with
  | nil => exact (List.append_nil _).symm
  | cons t row ih =>
      obtain ⟨quotes, none_, put⟩ := @put_field items t
      have closed : (OpenRow.closeCell ⟨items ++ quotes, shownText t⟩).items.filterMap
          RowItem.text = items.filterMap RowItem.text ++ (shownText t).toList := by
        rw [text_closeCell, List.filterMap_append, none_, List.append_nil]
      have first (rest : List Text) : (t :: rest).filterMap shownText =
          (shownText t).toList ++ rest.filterMap shownText := by
        cases shown : shownText t with
        | none => exact List.filterMap_cons_none shown
        | some u => exact List.filterMap_cons_some shown
      cases row with
      | nil =>
          rw [lineRecord, List.map_cons, List.map_nil, List.map_cons, List.map_nil,
            List.intercalate_singleton, put, OpenRow.close, closed, first, List.filterMap_nil,
            List.append_nil]
      | cons u row =>
          have line : lineRecord ((t :: u :: row).map Field.quoted) = (Field.quoted t).symbols ++
              .separator :: lineRecord ((u :: row).map Field.quoted) := by
            simp [lineRecord, List.intercalate_cons_cons]
          have cleared : OpenRow.put ⟨items ++ quotes, shownText t⟩ .separator =
              ⟨(OpenRow.closeCell ⟨items ++ quotes, shownText t⟩).items, none⟩ := by
            rw [OpenRow.put, ← CsvToHtml.cell_closeCell ⟨items ++ quotes, shownText t⟩]
          rw [line, List.foldl_append, put, List.foldl_cons, cleared, ih, closed, first,
            List.append_assoc]

end Fields

/-- The cells of a line that has been written. -/
theorem recordCells_line (row : List Text) :
    recordCells (lineRecord (row.map Field.quoted)) = row.filterMap shownText :=
  text_line row []

/-- `csv_to_html` shows a CSV table cell for cell exactly if no field is empty or begins
    with a quote. -/
theorem cellForCell_iff (table : List (List Text)) :
    CellForCell table ↔ ∀ row ∈ table, ∀ t ∈ row, Showable t := by
  have rows : records (write (table.map (·.map Field.quoted))) =
      table.map fun row => lineRecord (row.map Field.quoted) := by
    have read := records_write_append (table.map (·.map Field.quoted)) []
    rw [List.append_nil, List.map_map] at read
    exact read.trans (List.append_nil _)
  have cells : (table.map fun row => lineRecord (row.map Field.quoted)).map recordCells =
      table.map (·.filterMap shownText) := by
    rw [List.map_map]
    exact List.map_congr_left fun row _ => recordCells_line row
  have same : table.map (·.filterMap shownText) = table ↔
      ∀ row ∈ table, row.filterMap shownText = row := by
    conv_lhs => rhs; rw [← List.map_id table]
    exact List.map_inj_left
  rw [CellForCell, tableCells_csvToHtml, rows, cells, Option.some.injEq, same]
  exact forall₂_congr fun row _ => filterMap_shownText_eq_self_iff row

/-- The second of three fields is empty, and the third is shown in its column. -/
theorem empty_field_dropped : ¬CellForCell [["a".toList, [], "b".toList]] := by
  decide

end Metasolver
