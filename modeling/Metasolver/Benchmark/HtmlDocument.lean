import Mathlib.Data.List.Forall2
import Metasolver.Benchmark.HtmlTable

/-!
# The document is well formed

What `csv_to_html` returns is read back as a document: one table with one head and one
body, the header in the head and the other records in the body.  Every character of the
input that is markup elsewhere is read back as a character of a cell.
-/

namespace Metasolver

open Csv
open Markup hiding Text

/-! ## The document as a forest -/

def itemsForest (tag : HtmlTag) : List RowItem → Forest HtmlTag
  | [] => .nil
  | .quote :: items => .char '"' (itemsForest tag items)
  | .cell t :: items => .element tag (.ofText t) (itemsForest tag items)

def rowForest (tag : HtmlTag) (items : List RowItem) (next : Forest HtmlTag) : Forest HtmlTag :=
  .element .tr (itemsForest tag items) (.char '\n' next)

def bodyForest : List (List RowItem) → Forest HtmlTag
  | [] => .nil
  | row :: rows => rowForest .td row (bodyForest rows)

def tableForest (header : List RowItem) (rows : List (List RowItem)) : Forest HtmlTag :=
  .char '\n' (.element .thead (.char '\n' (rowForest .th header .nil))
    (.char '\n' (.element .tbody (.char '\n' (bodyForest rows)) (.char '\n' .nil))))

def pageForest (header : List RowItem) (rows : List (List RowItem)) : Forest HtmlTag :=
  .element .table (tableForest header rows) .nil

theorem tokens_itemsForest (tag : HtmlTag) (items : List RowItem) :
    (itemsForest tag items).tokens = items.flatMap (RowItem.tokens tag) := by
  induction items with
  | nil => rfl
  | cons item items ih =>
      cases item with
      | quote => simp [itemsForest, Forest.tokens, RowItem.tokens, ih]
      | cell t => simp [itemsForest, Forest.tokens, RowItem.tokens, ih]

theorem tokens_rowForest (tag : HtmlTag) (items : List RowItem) (next : Forest HtmlTag) :
    (rowForest tag items next).tokens = rowTokens tag items ++ next.tokens := by
  simp [rowForest, rowTokens, Forest.tokens, tokens_itemsForest]

theorem tokens_bodyForest (rows : List (List RowItem)) :
    (bodyForest rows).tokens = rows.flatMap (rowTokens .td) := by
  induction rows with
  | nil => rfl
  | cons row rows ih => rw [bodyForest, tokens_rowForest, ih, List.flatMap_cons]

theorem tokens_pageForest (header : List RowItem) (rows : List (List RowItem)) :
    (pageForest header rows).tokens = documentTokens (header :: rows) := by
  simp [pageForest, tableForest, Forest.tokens, tokens_rowForest, tokens_bodyForest,
    documentTokens, tableStart, tableEnd, rowsTokens, headEnd]

/-! ## What is read back -/

def RowItem.text : RowItem → Option Text
  | .quote => none
  | .cell t => some t

/-- The texts of the cells that are made of a record. -/
def recordCells (record : List Symbol) : List Text := (recordItems record).filterMap RowItem.text

/-- The elements of the row are cells with these texts and nothing else in them. -/
def HasCells (tag : HtmlTag) (row : Forest HtmlTag) (texts : List Text) : Prop :=
  row.elements = texts.map fun t => (tag, .ofText t)

/-- A page with one table, of one head and one body, and one row in the head. -/
structure TablePage (page table head body first : Forest HtmlTag) (rows : List (Forest HtmlTag)) :
    Prop where
  tables : page.elements = [(.table, table)]
  parts : table.elements = [(.thead, head), (.tbody, body)]
  headRows : head.elements = [(.tr, first)]
  bodyRows : body.elements = rows.map fun row => (.tr, row)

/-- The text is a page as it is printed, with a table that has the first record in its head
    and the others in its body. -/
def ShowsTable (html : Text) (records : List (List Symbol)) : Prop :=
  ∃ page table head body first rows,
    html = htmlVocabulary.print page ∧ htmlVocabulary.read html = some page ∧
    TablePage page table head body first rows ∧ rows.length + 1 = records.length ∧
    ∃ header others, records.map recordCells = header :: others ∧
      HasCells .th first header ∧ List.Forall₂ (HasCells .td) rows others

theorem hasCells_itemsForest (tag : HtmlTag) (items : List RowItem) :
    HasCells tag (itemsForest tag items) (items.filterMap RowItem.text) := by
  rw [HasCells]
  induction items with
  | nil => rfl
  | cons item items ih =>
      cases item with
      | quote => exact ih
      | cell t =>
          rw [itemsForest, Forest.elements, ih]
          rfl

theorem elements_bodyForest (rows : List (List RowItem)) :
    (bodyForest rows).elements = (rows.map (itemsForest .td)).map fun row => (.tr, row) := by
  induction rows with
  | nil => rfl
  | cons row rows ih =>
      rw [bodyForest, rowForest, Forest.elements, Forest.elements, ih]
      rfl

/-- Every input that is not empty is shown as a table of its records. -/
theorem csvToHtml_wellFormed (input : Text) (nonempty : input ≠ []) :
    ShowsTable (csvToHtml input) (records input) := by
  obtain ⟨record, rest, split⟩ := List.exists_cons_of_ne_nil (records_ne_nil nonempty)
  have printed : csvToHtml input =
      htmlVocabulary.print (pageForest (recordItems record) (rest.map recordItems)) := by
    rw [csvToHtml_eq, split, Vocabulary.print, tokens_pageForest]
    rfl
  refine ⟨_, tableForest (recordItems record) (rest.map recordItems), _, _,
    itemsForest .th (recordItems record), (rest.map recordItems).map (itemsForest .td),
    printed, ?_, ⟨rfl, rfl, rfl, elements_bodyForest _⟩, ?_, recordCells record,
    rest.map recordCells, ?_, hasCells_itemsForest .th _, ?_⟩
  · rw [printed]
    exact htmlVocabulary.read_print _
  · rw [split]
    simp
  · rw [split]
    rfl
  · rw [List.forall₂_map_left_iff, List.forall₂_map_left_iff, List.forall₂_map_right_iff]
    exact List.forall₂_same.mpr fun record _ => hasCells_itemsForest .td _

/-- A head and a row, with a line break between quotes. -/
def twoRecords : Text := "<a>,\"b\r\n&\r\n\"c\r\n<d>,e".toList

theorem csvToHtml_wellFormed_sample :
    (records twoRecords).map (fun record => (recordCells record).length) = [2, 2] ∧
      ShowsTable (csvToHtml twoRecords) (records twoRecords) :=
  ⟨by decide, csvToHtml_wellFormed twoRecords (by decide)⟩

end Metasolver
