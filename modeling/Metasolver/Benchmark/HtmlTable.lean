import Metasolver.Lib.Markup
import Metasolver.Benchmark.CsvConversion

/-!
# The table that `csv_to_html` writes

While the loop runs, the text that it has written shows a table in the making: the rows
that are finished, and the open row with its open cell.  `Shows` relates the four flags of
the loop to it, and putting a symbol preserves that.  So the text in the end is a document
with one row for each record, which is made of this record only.
-/

namespace Metasolver

open Csv
open Markup hiding Text

inductive HtmlTag where
  | table
  | thead
  | tbody
  | tr
  | th
  | td
  deriving DecidableEq, Repr

namespace HtmlTag

def all : List HtmlTag := [.table, .thead, .tbody, .tr, .th, .td]

def name : HtmlTag → String
  | .table => "table"
  | .thead => "thead"
  | .tbody => "tbody"
  | .tr => "tr"
  | .th => "th"
  | .td => "td"

end HtmlTag

def htmlEntities : List (Char × String) :=
  [('<', "lt"), ('>', "gt"), ('&', "amp"), ('"', "quot")]

theorem mem_of_lookup_htmlEntities {c : Char} {n : String}
    (found : htmlEntities.lookup c = some n) : (c, n) ∈ htmlEntities := by
  obtain ⟨l₁, l₂, split, -⟩ := List.lookup_eq_some_iff.mp found
  rw [split]
  exact List.mem_append_right _ List.mem_cons_self

/-- The tags and entities of the document. -/
def htmlVocabulary : Vocabulary HtmlTag where
  name t := t.name.toList
  ofName n := HtmlTag.all.find? fun t => t.name.toList = n
  entity c := (htmlEntities.lookup c).map String.toList
  ofEntity n := (htmlEntities.find? fun e => e.2.toList = n).map Prod.fst
  ofName_name t := by cases t <;> rfl
  name_ends t := by cases t <;> decide
  name_starts t := by cases t <;> decide
  ofEntity_entity c n found := by
    obtain ⟨m, named, rfl⟩ := Option.map_eq_some_iff.mp found
    have all : ∀ e ∈ htmlEntities,
        (htmlEntities.find? fun e' => e'.2.toList = e.2.toList).map Prod.fst = some e.1 := by decide
    exact all (c, m) (mem_of_lookup_htmlEntities named)
  entity_ends c n found := by
    obtain ⟨m, named, rfl⟩ := Option.map_eq_some_iff.mp found
    have all : ∀ e ∈ htmlEntities, ';' ∉ e.2.toList := by decide
    exact all (c, m) (mem_of_lookup_htmlEntities named)
  reserved c member := by
    have all : ['<', '>', '&'].all fun c => (htmlEntities.lookup c).isSome := rfl
    rw [Option.isSome_map]
    exact List.all_eq_true.mp all c member

theorem printChar_eq (c : Char) :
    htmlVocabulary.printChar c = (CsvToHtml.escape c).toList := by
  unfold CsvToHtml.escape
  split
  case h_5 less greater ampersand quote =>
    have none_ : htmlVocabulary.entity c = none := by
      refine Option.map_eq_none_iff.mpr (List.lookup_eq_none_iff.mpr ?_)
      simpa [htmlEntities] using ⟨less, greater, ampersand, quote⟩
    rw [Vocabulary.printChar, none_]
    simp
  all_goals rfl

/-! ## Rows and documents -/

/-- What the loop puts into a row: cells, and quotes that are in none. -/
inductive RowItem where
  | quote
  | cell (text : Text)
  deriving DecidableEq, Repr

def RowItem.tokens (tag : HtmlTag) : RowItem → List (Token HtmlTag)
  | .quote => [.char '"']
  | .cell t => .start tag :: t.map .char ++ [.stop tag]

def rowTokens (tag : HtmlTag) (items : List RowItem) : List (Token HtmlTag) :=
  .start .tr :: items.flatMap (RowItem.tokens tag) ++ [.stop .tr, .char '\n']

/-- Where the header ends and the other rows begin. -/
def headEnd : List (Token HtmlTag) := [.stop .thead, .char '\n', .start .tbody, .char '\n']

/-- Rows, of which the first is the header. -/
def rowsTokens : List (List RowItem) → List (Token HtmlTag)
  | [] => []
  | header :: rows => rowTokens .th header ++ headEnd ++ rows.flatMap (rowTokens .td)

/-- The tag of the cells in the row after these. -/
def cellTag (rows : List (List RowItem)) : HtmlTag := if rows = [] then .th else .td

def tableStart : List (Token HtmlTag) := [.start .table, .char '\n', .start .thead, .char '\n']

def tableEnd : List (Token HtmlTag) := [.stop .tbody, .char '\n', .stop .table]

def documentTokens (rows : List (List RowItem)) : List (Token HtmlTag) :=
  tableStart ++ rowsTokens rows ++ tableEnd

theorem rowsTokens_append (rows : List (List RowItem)) (items : List RowItem) :
    rowsTokens (rows ++ [items]) = rowsTokens rows ++ rowTokens (cellTag rows) items ++
      if rows = [] then headEnd else [] := by
  cases rows with
  | nil => simp [rowsTokens, cellTag]
  | cons header rows => simp [rowsTokens, cellTag]

/-! ## The table in the making -/

/-- A row that is not finished. -/
structure OpenRow where
  items : List RowItem := []
  cell : Option Text := none
  deriving DecidableEq, Repr

namespace OpenRow

def closeCell (r : OpenRow) : OpenRow :=
  match r.cell with
  | none => r
  | some t => { items := r.items ++ [.cell t] }

def close (r : OpenRow) : List RowItem := r.closeCell.items

/-- A line break ends the row and is not put into it. -/
def put (r : OpenRow) : Symbol → OpenRow
  | .quote => r
  | .escapedQuote => match r.cell with
    | none => { r with items := r.items ++ [.quote] }
    | some t => { r with cell := some (t ++ ['"']) }
  | .separator => r.closeCell
  | .char c => { r with cell := some (r.cell.getD [] ++ [c]) }
  | .lineBreak => r

def tokens (tag : HtmlTag) (r : OpenRow) : List (Token HtmlTag) :=
  .start .tr :: r.items.flatMap (RowItem.tokens tag) ++
    match r.cell with
    | none => []
    | some t => .start tag :: t.map .char

end OpenRow

structure Draft where
  rows : List (List RowItem) := []
  row : Option OpenRow := none

namespace Draft

def openRow (d : Draft) : OpenRow := d.row.getD {}

def put (d : Draft) : Symbol → Draft
  | .lineBreak => { rows := d.rows ++ [d.openRow.close], row := none }
  | symbol => { d with row := some (d.openRow.put symbol) }

def finish (d : Draft) : List (List RowItem) := d.rows ++ (d.row.map OpenRow.close).toList

def tokens (d : Draft) : List (Token HtmlTag) :=
  tableStart ++ rowsTokens d.rows ++
    match d.row with
    | none => []
    | some r => r.tokens (cellTag d.rows)

end Draft

namespace CsvToHtml

/-- The flags say what is open, and what has been written is what there is of the table. -/
structure Shows (s : CsvToHtml) (d : Draft) : Prop where
  html : s.html = htmlVocabulary.printTokens d.tokens
  isHeader : s.isHeader = decide (d.rows = [])
  newRow : s.newRow = d.row.isNone
  newCell : ∀ r, d.row = some r → s.newCell = r.cell.isNone

variable {s : CsvToHtml} {r : OpenRow} {rows : List (List RowItem)} {row : Option OpenRow}
  {c : Char} {t : Text}

theorem shows_start : Shows {} {} where
  html := rfl
  isHeader := rfl
  newRow := rfl
  newCell := nofun

theorem html_emit (text : String) : (s.emit text).html = s.html ++ text.toList := rfl

theorem Shows.startRow (shows : Shows s ⟨rows, row⟩) :
    Shows s.startRow ⟨rows, some (row.getD {})⟩ := by
  have newRow := shows.newRow
  rw [CsvToHtml.startRow]
  cases row with
  | none =>
      rw [if_pos (by simpa using newRow)]
      refine ⟨?_, shows.isHeader, rfl, ?_⟩
      · have written : s.html ++ "<tr>".toList = _ := congrArg (· ++ "<tr>".toList) shows.html
        refine written.trans ?_
        simp [Draft.tokens, OpenRow.tokens]
        rfl
      · rintro _ ⟨⟩
        rfl
  | some r =>
      rw [if_neg (by simp [newRow])]
      exact shows

theorem tag_of_isHeader (shows : Shows s ⟨rows, row⟩) :
    (if s.isHeader then "<th>" else "<td>").toList =
        htmlVocabulary.printToken (.start (cellTag rows)) ∧
      (if s.isHeader then "</th>" else "</td>").toList =
        htmlVocabulary.printToken (.stop (cellTag rows)) := by
  have isHeader := shows.isHeader
  rw [isHeader, cellTag]
  by_cases first : rows = []
  · simp only [first, decide_true, if_true]
    exact ⟨rfl, rfl⟩
  · simp only [first, decide_false, if_false]
    exact ⟨rfl, rfl⟩

theorem Shows.openCell (shows : Shows s ⟨rows, some r⟩) :
    Shows s.openCell ⟨rows, some { r with cell := some (r.cell.getD []) }⟩ := by
  have newCell := shows.newCell r rfl
  rw [CsvToHtml.openCell]
  cases cell : r.cell with
  | none =>
      rw [if_pos (by simp [newCell, cell])]
      refine ⟨?_, shows.isHeader, shows.newRow, ?_⟩
      · have written := shows.html
        simp only [html_emit, (tag_of_isHeader shows).1, written]
        simp [Draft.tokens, OpenRow.tokens, cell]
      · rintro _ ⟨⟩
        rfl
  | some t =>
      rw [if_neg (by simp [newCell, cell])]
      have same : { r with cell := some ((some t).getD []) } = r := by
        rw [Option.getD_some, ← cell]
      rw [same]
      exact shows

/-- A character goes into the open cell. -/
theorem Shows.emit_char (shows : Shows s ⟨rows, some { r with cell := some t }⟩) (c : Char) :
    Shows (s.emit (escape c)) ⟨rows, some { r with cell := some (t ++ [c]) }⟩ where
  html := by
    rw [html_emit, shows.html, ← printChar_eq]
    simp [Draft.tokens, OpenRow.tokens, Vocabulary.printToken]
  isHeader := shows.isHeader
  newRow := shows.newRow
  newCell := by
    have isOpen : s.newCell = false := shows.newCell _ rfl
    rintro _ ⟨⟩
    exact isOpen

theorem Shows.emit_quote (shows : Shows s ⟨rows, some r⟩) :
    Shows (s.emit "&quot;") ⟨rows, some (r.put .escapedQuote)⟩ := by
  cases cell : r.cell with
  | some t =>
      have same : r = { r with cell := some t } := by rw [← cell]
      rw [same] at shows
      have written : Shows (s.emit "&quot;") _ := shows.emit_char '"'
      simpa only [OpenRow.put, cell] using written
  | none =>
      refine ⟨?_, shows.isHeader, shows.newRow, ?_⟩
      · rw [html_emit, shows.html]
        simp only [Draft.tokens, OpenRow.tokens, OpenRow.put, cell]
        simp [RowItem.tokens]
        rfl
      · have closed := shows.newCell r rfl
        rintro _ ⟨⟩
        simp only [OpenRow.put, cell]
        exact closed.trans (by rw [cell])

theorem Shows.html_closeCell (shows : Shows s ⟨rows, some r⟩) :
    s.closeCell.html = htmlVocabulary.printTokens (Draft.tokens ⟨rows, some r.closeCell⟩) := by
  have newCell := shows.newCell r rfl
  rw [CsvToHtml.closeCell, OpenRow.closeCell]
  cases cell : r.cell with
  | none =>
      rw [if_neg (by simp [newCell, cell])]
      exact shows.html
  | some t =>
      rw [if_pos (by simp [newCell, cell]), html_emit, (tag_of_isHeader shows).2, shows.html]
      simp [Draft.tokens, OpenRow.tokens, RowItem.tokens, cell]

theorem isHeader_closeCell : s.closeCell.isHeader = s.isHeader := by
  rw [CsvToHtml.closeCell]
  split_ifs <;> rfl

theorem newRow_closeCell : s.closeCell.newRow = s.newRow := by
  rw [CsvToHtml.closeCell]
  split_ifs <;> rfl

theorem cell_closeCell (r : OpenRow) : r.closeCell.cell = none := by
  rw [OpenRow.closeCell]
  cases cell : r.cell with
  | none => exact cell
  | some t => rfl

theorem Shows.closeCell (shows : Shows s ⟨rows, some r⟩) :
    Shows { s.closeCell with newCell := true } ⟨rows, some r.closeCell⟩ where
  html := shows.html_closeCell
  isHeader := isHeader_closeCell.trans shows.isHeader
  newRow := newRow_closeCell.trans shows.newRow
  newCell := by
    rintro _ ⟨⟩
    rw [cell_closeCell]
    rfl

/-- The row is finished, and the header with it if it is the first. -/
theorem Shows.html_closeRow (shows : Shows s ⟨rows, some r⟩) :
    s.closeRow.html =
      htmlVocabulary.printTokens (tableStart ++ rowsTokens (rows ++ [r.close])) := by
  have written := shows.html_closeCell
  have isHeader : s.closeCell.isHeader = decide (rows = []) :=
    isHeader_closeCell.trans shows.isHeader
  have stop : "</tr>\n".toList = htmlVocabulary.printTokens [.stop .tr, .char '\n'] := rfl
  have head : "</thead>\n<tbody>\n".toList = htmlVocabulary.printTokens headEnd := rfl
  have row : s.closeCell.html ++ "</tr>\n".toList = htmlVocabulary.printTokens
      (tableStart ++ rowsTokens rows ++ rowTokens (cellTag rows) r.close) := by
    rw [written, stop, ← Vocabulary.printTokens_append]
    simp only [Draft.tokens, OpenRow.tokens, cell_closeCell, rowTokens, OpenRow.close,
      List.append_nil, List.append_assoc]
  rw [CsvToHtml.closeRow, rowsTokens_append]
  by_cases first : rows = []
  · simp only [emit, isHeader, first, decide_true, if_true] at row ⊢
    rw [row, head]
    simp
  · simp only [emit, isHeader, first, decide_false, if_false] at row ⊢
    simpa using row

theorem Shows.put (shows : Shows s ⟨rows, row⟩) (symbol : Symbol) :
    Shows (s.put symbol) (Draft.put ⟨rows, row⟩ symbol) := by
  have started := shows.startRow
  cases symbol with
  | quote =>
      exact ⟨started.html, started.isHeader, started.newRow, started.newCell⟩
  | escapedQuote => exact started.emit_quote
  | separator => exact started.closeCell
  | lineBreak =>
      refine ⟨?_, ?_, rfl, nofun⟩
      · refine started.html_closeRow.trans ?_
        rw [Draft.put, Draft.tokens, List.append_nil]
        rfl
      · simp [Draft.put, CsvToHtml.put]
  | char c =>
      have opened := started.openCell.emit_char c
      exact opened

theorem Shows.foldl_put {d : Draft} (shows : Shows s d) (ss : List Symbol) :
    Shows (ss.foldl CsvToHtml.put s) (ss.foldl Draft.put d) := by
  induction ss generalizing s d with
  | nil => exact shows
  | cons symbol ss ih => exact ih (shows.put symbol)

/-- In the end all that is open is closed. -/
theorem Shows.finish {d : Draft} (shows : Shows s d) :
    s.finish = htmlVocabulary.printTokens (documentTokens d.finish) := by
  obtain ⟨rows, row⟩ := d
  have newRow := shows.newRow
  have ending : "</tbody>\n</table>".toList = htmlVocabulary.printTokens tableEnd := rfl
  rw [CsvToHtml.finish, documentTokens, Vocabulary.printTokens_append, ← ending]
  refine congrArg (· ++ "</tbody>\n</table>".toList) ?_
  cases row with
  | none =>
      simp only [newRow]
      refine shows.html.trans ?_
      simp [Draft.tokens, Draft.finish]
  | some r =>
      simp only [newRow]
      exact shows.html_closeRow

end CsvToHtml

/-! ## Rows and records -/

/-- The row that is made of a record. -/
def recordItems (record : List Symbol) : List RowItem := (record.foldl OpenRow.put {}).close

/-- A record begins where a row is opened, and ends where it is finished. -/
theorem finish_foldl_put (ss : List Symbol) (rows : List (List RowItem))
    (current : Option (List Symbol)) :
    (ss.foldl Draft.put ⟨rows, current.map (·.foldl OpenRow.put {})⟩).finish =
      rows ++ (recordsFrom current ss).map recordItems := by
  induction ss generalizing rows current with
  | nil =>
      cases current <;> rfl
  | cons symbol ss ih =>
      have row (current : Option (List Symbol)) :
          Draft.openRow ⟨rows, current.map (·.foldl OpenRow.put {})⟩ =
            (current.getD []).foldl OpenRow.put {} := by
        cases current <;> rfl
      by_cases ends : symbol = .lineBreak
      · subst ends
        rw [List.foldl_cons, Draft.put, row, recordsFrom, List.map_cons]
        have rest := ih (rows ++ [recordItems (current.getD [])]) none
        rw [List.append_assoc] at rest
        exact rest
      · have rest := ih rows (some (current.getD [] ++ [symbol]))
        rw [List.foldl_cons, recordsFrom, ← rest]
        · rw [Draft.put, row, Option.map_some, List.foldl_append]
          · rfl
          · exact ends
        · exact ends

/-- The document has one row for each record of the input, which is made of this record. -/
theorem csvToHtml_eq (input : Text) :
    csvToHtml input =
      htmlVocabulary.printTokens (documentTokens ((records input).map recordItems)) := by
  have shows := CsvToHtml.shows_start.foldl_put (symbols false input)
  have finished := finish_foldl_put (symbols false input) [] none
  rw [csvToHtml, CsvToHtml.loop_eq, shows.finish]
  exact congrArg (fun rows => htmlVocabulary.printTokens (documentTokens rows)) finished

end Metasolver
