import Metasolver.Lib.Csv

/-!
# `csv_to_html`

The conversion of a CSV text to an HTML table (`csv_conversion.h`).  A `std::string` is the
list of its characters.  `loop_eq` takes the loop apart into reading symbols and putting
them into the table: the two characters for which the loop goes two steps are one symbol.
-/

namespace Metasolver

open Csv

/-- The variables of `csv_to_html`. -/
structure CsvToHtml where
  html : Text := "<table>\n<thead>\n".toList
  inQuotes : Bool := false
  isHeader : Bool := true
  newCell : Bool := true
  newRow : Bool := true
  deriving DecidableEq, Repr

namespace CsvToHtml

/-- `html += text`. -/
def emit (s : CsvToHtml) (text : String) : CsvToHtml := { s with html := s.html ++ text.toList }

def startRow (s : CsvToHtml) : CsvToHtml :=
  if s.newRow then { s.emit "<tr>" with newRow := false, newCell := true } else s

def openCell (s : CsvToHtml) : CsvToHtml :=
  if s.newCell then { s.emit (if s.isHeader then "<th>" else "<td>") with newCell := false } else s

def closeCell (s : CsvToHtml) : CsvToHtml :=
  if !s.newCell then s.emit (if s.isHeader then "</th>" else "</td>") else s

def closeRow (s : CsvToHtml) : CsvToHtml :=
  let s := s.closeCell.emit "</tr>\n"
  if s.isHeader then s.emit "</thead>\n<tbody>\n" else s

/-- The `switch` (`csv_conversion.h:63-69`). -/
def escape (c : Char) : String :=
  match c with
  | '<' => "&lt;"
  | '>' => "&gt;"
  | '&' => "&amp;"
  | '"' => "&quot;"
  | c => c.toString

/-- What the loop does for one character, and whether it has gone past the next one
    (`csv_conversion.h:19-69`). -/
def body (s : CsvToHtml) (c : Char) (next : Option Char) : CsvToHtml × Bool :=
  let s := s.startRow
  if c = '"' then
    if s.inQuotes ∧ next = some '"' then (s.emit "&quot;", true)
    else ({ s with inQuotes := !s.inQuotes }, false)
  else if c = ',' ∧ !s.inQuotes then
    ({ s.closeCell with newCell := true }, false)
  else if (c = '\n' ∨ c = '\r') ∧ !s.inQuotes then
    ({ s.closeRow with isHeader := false, newRow := true, newCell := true },
      c = '\r' ∧ next = some '\n')
  else
    (s.openCell.emit (escape c), false)

/-- The loop.  The character that it has gone past is skipped. -/
def loop (skip : Bool) (s : CsvToHtml) : Text → CsvToHtml
  | [] => s
  | c :: rest =>
      if skip then loop false s rest
      else
        let (s', skip') := s.body c rest.head?
        loop skip' s' rest

/-- What follows the loop (`csv_conversion.h:72-79`). -/
def finish (s : CsvToHtml) : Text :=
  let s := if !s.newRow then s.closeRow else s
  (s.emit "</tbody>\n</table>").html

/-- What the loop does for a symbol. -/
def put (s : CsvToHtml) : Symbol → CsvToHtml
  | .quote => { s.startRow with inQuotes := !s.inQuotes }
  | .escapedQuote => s.startRow.emit "&quot;"
  | .separator => { s.startRow.closeCell with newCell := true }
  | .lineBreak => { s.startRow.closeRow with isHeader := false, newRow := true, newCell := true }
  | .char c => s.startRow.openCell.emit (escape c)

end CsvToHtml

/-- `csv_to_html` (`csv_conversion.h:8-80`). -/
def csvToHtml (input : Text) : Text := (CsvToHtml.loop false {} input).finish

namespace CsvToHtml

variable {s : CsvToHtml} {c : Char} {rest : Text}

@[simp] theorem inQuotes_emit (text : String) : (s.emit text).inQuotes = s.inQuotes := rfl

@[simp] theorem inQuotes_startRow : s.startRow.inQuotes = s.inQuotes := by
  rw [startRow]
  split_ifs <;> rfl

@[simp] theorem inQuotes_openCell : s.openCell.inQuotes = s.inQuotes := by
  rw [openCell]
  split_ifs <;> rfl

@[simp] theorem inQuotes_closeCell : s.closeCell.inQuotes = s.inQuotes := by
  rw [closeCell]
  split_ifs <;> rfl

@[simp] theorem inQuotes_closeRow : s.closeRow.inQuotes = s.inQuotes := by
  rw [closeRow]
  split_ifs <;> simp

theorem loop_skip : loop true s (c :: rest) = loop false s rest := rfl

theorem loop_cons :
    loop false s (c :: rest) = loop (s.body c rest.head?).2 (s.body c rest.head?).1 rest := rfl

/-- The loop puts the symbols of its input into the table one after the other. -/
theorem loop_eq (s : CsvToHtml) (input : Text) :
    loop false s input = (symbols s.inQuotes input).foldl put s := by
  generalize quoted : s.inQuotes = q
  fun_induction symbols q input generalizing s with
  | case1 => rfl
  | case2 rest ih =>
      rw [loop_cons, List.foldl_cons, ← ih]
      · simp [body, quoted, put, loop_skip]
      · simpa [put] using quoted
  | case3 q rest single ih =>
      have alone : ¬(s.inQuotes = true ∧ rest.head? = some '"') := by
        rintro ⟨inside, next⟩
        obtain ⟨rest', rfl⟩ := List.head?_eq_some_iff.mp next
        exact single rest' (quoted.symm.trans inside) rfl
      rw [loop_cons, List.foldl_cons, ← ih]
      · simp [body, alone, put]
      · simp [put, quoted]
  | case4 rest ih =>
      rw [loop_cons, List.foldl_cons, ← ih]
      · simp [body, quoted, put]
      · simpa [put] using quoted
  | case5 rest ih =>
      rw [loop_cons, List.foldl_cons, ← ih]
      · simp [body, quoted, put, loop_skip]
      · simpa [put] using quoted
  | case6 rest single ih =>
      have alone : rest.head? ≠ some '\n' := by
        intro next
        obtain ⟨rest', rfl⟩ := List.head?_eq_some_iff.mp next
        exact single rest' rfl
      rw [loop_cons, List.foldl_cons, ← ih]
      · simp [body, quoted, put, alone]
      · simpa [put] using quoted
  | case7 rest ih =>
      rw [loop_cons, List.foldl_cons, ← ih]
      · simp [body, quoted, put]
      · simpa [put] using quoted
  | case8 q c rest _ other separator _ carriageReturn newline ih =>
      have plain : s.body c rest.head? = (s.startRow.openCell.emit (escape c), false) := by
        have notQuote : c ≠ '"' := other
        cases q with
        | true => simp [body, quoted, notQuote]
        | false =>
            have notSeparator : c ≠ ',' := separator rfl
            have notBreak : ¬(c = '\n' ∨ c = '\r') := not_or.mpr ⟨newline rfl, carriageReturn rfl⟩
            simp [body, notQuote, notSeparator, notBreak]
      rw [loop_cons, plain, List.foldl_cons, ← ih]
      · rfl
      · simpa [put] using quoted

end CsvToHtml

end Metasolver
