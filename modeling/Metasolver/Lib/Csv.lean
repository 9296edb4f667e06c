import Mathlib.Data.List.Basic
import Mathlib.Data.List.TakeWhile

/-!
# Comma-separated values

A text is first read as symbols.  A double quote begins or ends a part in which commas and
line breaks are characters like others, and two quotes in such a part stand for one; the
characters of a field need not all be in quotes.  The symbols are cut into records at the
line breaks, and these into fields at the separators.

`parse_write_append` says that fields are read as they were written, each in quotes or, if it
has no special character, as it is.  `clean_of_parse` says that no other text can be written
as it is.
-/

namespace Csv

abbrev Text := List Char

inductive Symbol where
  | quote
  | escapedQuote
  | separator
  | lineBreak
  | char (c : Char)
  deriving DecidableEq, Repr

/-- The symbols of a text, which begins in quotes or not. -/
def symbols : Bool → Text → List Symbol
  | _, [] => []
  | true, '"' :: '"' :: rest => .escapedQuote :: symbols true rest
  | quoted, '"' :: rest => .quote :: symbols (!quoted) rest
  | false, ',' :: rest => .separator :: symbols false rest
  | false, '\r' :: '\n' :: rest => .lineBreak :: symbols false rest
  | false, '\r' :: rest => .lineBreak :: symbols false rest
  | false, '\n' :: rest => .lineBreak :: symbols false rest
  | quoted, c :: rest => .char c :: symbols quoted rest

/-- The character that a symbol is in a field. -/
def Symbol.text : Symbol → Option Char
  | .escapedQuote => some '"'
  | .char c => some c
  | _ => none

/-- A field ends here. -/
def Symbol.EndsField (s : Symbol) : Prop := s = .separator ∨ s = .lineBreak

instance : DecidablePred Symbol.EndsField :=
  fun s => inferInstanceAs (Decidable (s = .separator ∨ s = .lineBreak))

/-- The records of a text of which `current` has been read since the last line break.  A
    line break at the end starts no record. -/
def recordsFrom : Option (List Symbol) → List Symbol → List (List Symbol)
  | current, [] => current.toList
  | current, .lineBreak :: rest => current.getD [] :: recordsFrom none rest
  | current, symbol :: rest => recordsFrom (some (current.getD [] ++ [symbol])) rest

def records (text : Text) : List (List Symbol) := recordsFrom none (symbols false text)

def fields (record : List Symbol) : List Text :=
  (record.splitOn .separator).map fun field => field.filterMap Symbol.text

def parse (text : Text) : List (List Text) := (records text).map fields

/-- Nothing in the text has a meaning of its own. -/
def Clean (t : Text) : Prop := ∀ c ∈ t, c ∉ [',', '"', '\r', '\n']

instance : DecidablePred Clean :=
  fun t => List.decidableBAll (fun c => c ∉ [',', '"', '\r', '\n']) t

/-- A field as it is to be written. -/
inductive Field where
  | quoted (text : Text)
  | plain (text : Text) (clean : Clean text)

namespace Field

def value : Field → Text
  | .quoted t => t
  | .plain t _ => t

/-- In quotes, a quote is written twice. -/
def double (c : Char) : Text := if c = '"' then ['"', '"'] else [c]

def write : Field → Text
  | .quoted t => '"' :: t.flatMap double ++ ['"']
  | .plain t _ => t

def symbolInQuotes (c : Char) : Symbol := if c = '"' then .escapedQuote else .char c

def symbols : Field → List Symbol
  | .quoted t => .quote :: t.map symbolInQuotes ++ [.quote]
  | .plain t _ => t.map .char

end Field

def writeLine (line : List Field) : Text := [','].intercalate (line.map Field.write) ++ ['\n']

def write (table : List (List Field)) : Text := table.flatMap writeLine

/-- The record of a line that has been written. -/
def lineRecord (line : List Field) : List Symbol :=
  [Symbol.separator].intercalate (line.map Field.symbols)

theorem writeLine_singleton (f : Field) : writeLine [f] = f.write ++ ['\n'] := by
  rw [writeLine, List.map_cons, List.map_nil, List.intercalate_singleton]

theorem writeLine_cons_cons (f g : Field) (line : List Field) :
    writeLine (f :: g :: line) = f.write ++ ',' :: writeLine (g :: line) := by
  simp [writeLine, List.intercalate_cons_cons]

theorem writeLine_cons (f : Field) (fs : List Field) :
    writeLine (f :: fs) = f.write ++ (fs.flatMap fun f => ',' :: f.write) ++ ['\n'] := by
  induction fs generalizing f with
  | nil => rw [writeLine_singleton, List.flatMap_nil, List.append_nil]
  | cons g fs ih =>
      rw [writeLine_cons_cons, ih]
      simp

/-! ## Clean texts -/

section Clean

variable {t u : Text} {ts : List Text}

theorem Clean.append (first : Clean t) (second : Clean u) : Clean (t ++ u) := by
  intro c member
  rcases List.mem_append.mp member with member | member
  · exact first c member
  · exact second c member

theorem Clean.intercalate {sep : Text} (separator : Clean sep) (each : ∀ t ∈ ts, Clean t) :
    Clean (sep.intercalate ts) := by
  induction ts with
  | nil => nofun
  | cons t ts ih =>
      have first := each t List.mem_cons_self
      have others := ih fun u member => each u (List.mem_cons_of_mem _ member)
      cases ts with
      | nil => rwa [List.intercalate_singleton]
      | cons u ts =>
          rw [List.intercalate_cons_cons]
          exact (first.append separator).append others

/-- In a clean text no quote has to be doubled. -/
theorem write_quoted_clean (clean : Clean t) : (Field.quoted t).write = '"' :: t ++ ['"'] := by
  have single (c : Char) (member : c ∈ t) : Field.double c = [c] := by
    refine if_neg fun quote => clean c member ?_
    rw [quote]
    decide
  have same : t.flatMap Field.double = t :=
    (List.flatMap_congr single).trans (List.flatMap_singleton' t)
  rw [Field.write, same]

end Clean

/-! ## Reading what has been written -/

section Read

variable {c : Char} {t rest : Text} {f : Field} {line : List Field} {ss : List Symbol}

theorem symbols_quoted_cons (other : c ≠ '"') :
    symbols true (c :: rest) = .char c :: symbols true rest := by
  rw [symbols] <;> simp [other]

theorem symbols_close (other : rest.head? ≠ some '"') :
    symbols true ('"' :: rest) = .quote :: symbols false rest := by
  rw [symbols]
  · rfl
  · rintro rest' - rfl
    exact other rfl

theorem symbols_open (rest : Text) : symbols false ('"' :: rest) = .quote :: symbols true rest := by
  rw [symbols]
  · rfl
  · nofun

theorem symbols_clean (clean : Clean t) (rest : Text) :
    symbols false (t ++ rest) = t.map .char ++ symbols false rest := by
  induction t with
  | nil => rfl
  | cons c t ih =>
      have first := clean c List.mem_cons_self
      simp only [List.mem_cons, List.not_mem_nil, or_false, not_or] at first
      have others : Clean t := fun d member => clean d (List.mem_cons_of_mem _ member)
      rw [List.cons_append, List.map_cons, List.cons_append, ← ih others]
      rw [symbols] <;> simp [first]

/-- The closing quote is not doubled. -/
theorem symbols_inQuotes (t : Text) (other : rest.head? ≠ some '"') :
    symbols true (t.flatMap Field.double ++ '"' :: rest) =
      t.map Field.symbolInQuotes ++ .quote :: symbols false rest := by
  induction t with
  | nil => exact symbols_close other
  | cons c t ih =>
      rw [List.flatMap_cons, List.map_cons, List.append_assoc, List.cons_append, ← ih,
        Field.double, Field.symbolInQuotes]
      split_ifs with quote
      · rw [List.cons_append, List.cons_append, List.nil_append, symbols]
      · exact symbols_quoted_cons quote

theorem symbols_write (f : Field) (other : rest.head? ≠ some '"') :
    symbols false (f.write ++ rest) = f.symbols ++ symbols false rest := by
  cases f with
  | quoted t =>
      have read := symbols_inQuotes t other
      simp only [Field.write, Field.symbols, List.cons_append, List.append_assoc,
        List.nil_append, symbols_open, read]
  | plain t clean => exact symbols_clean clean rest

theorem symbols_line (line : List Field) (rest : Text) :
    symbols false (writeLine line ++ rest) =
      lineRecord line ++ .lineBreak :: symbols false rest := by
  have ended (rest : Text) : symbols false ('\n' :: rest) = .lineBreak :: symbols false rest := by
    rw [symbols]
  rw [writeLine, lineRecord, List.append_assoc, List.cons_append, List.nil_append, ← ended]
  induction line with
  | nil => rfl
  | cons f line ih =>
      cases line with
      | nil =>
          simp only [List.map_cons, List.map_nil, List.intercalate_singleton]
          exact symbols_write f (by simp)
      | cons g line =>
          have separated (rest : Text) :
              symbols false (',' :: rest) = .separator :: symbols false rest := by
            rw [symbols]
          simp only [List.map_cons, List.intercalate_cons_cons, List.append_assoc,
            List.cons_append, List.nil_append] at ih ⊢
          rw [symbols_write f (by simp), separated, ih]

/-- In a field there is nothing that ends a field. -/
theorem not_endsField_of_mem {f : Field} {s : Symbol} (member : s ∈ f.symbols) : ¬s.EndsField := by
  rintro (rfl | rfl)
  all_goals
    cases f with
    | quoted t =>
        simp only [Field.symbols, List.cons_append, List.mem_cons, List.mem_append, List.mem_map,
          reduceCtorEq, List.not_mem_nil, or_false, false_or] at member
        obtain ⟨c, -, is⟩ := member
        rw [Field.symbolInQuotes] at is
        split_ifs at is
    | plain t clean => simp [Field.symbols] at member

theorem lineBreak_not_mem_lineRecord (line : List Field) : Symbol.lineBreak ∉ lineRecord line := by
  induction line with
  | nil => simp [lineRecord]
  | cons f line ih =>
      have first : Symbol.lineBreak ∉ f.symbols :=
        fun member => not_endsField_of_mem member (Or.inr rfl)
      cases line with
      | nil => simpa [lineRecord] using first
      | cons g line =>
          simp only [lineRecord, List.map_cons, List.intercalate_cons_cons] at ih ⊢
          simp [first, ih]

/-- A record ends with its line break. -/
theorem recordsFrom_append {current : Option (List Symbol)} (whole : Symbol.lineBreak ∉ ss)
    (rest : List Symbol) :
    recordsFrom current (ss ++ .lineBreak :: rest) =
      (current.getD [] ++ ss) :: recordsFrom none rest := by
  induction ss generalizing current with
  | nil => simp [recordsFrom]
  | cons symbol ss ih =>
      have other : symbol ≠ .lineBreak := fun same => whole (by simp [same])
      have others : Symbol.lineBreak ∉ ss := fun member => whole (by simp [member])
      rw [List.cons_append, recordsFrom, ih others]
      · simp
      · exact other

theorem fields_lineRecord (nonempty : line ≠ []) :
    fields (lineRecord line) = line.map Field.value := by
  have within : ∀ field ∈ line.map Field.symbols, Symbol.separator ∉ field := by
    intro field member
    obtain ⟨f, -, rfl⟩ := List.mem_map.mp member
    exact fun member => not_endsField_of_mem member (Or.inl rfl)
  have text (f : Field) : f.symbols.filterMap Symbol.text = f.value := by
    cases f with
    | quoted t =>
        have same : Symbol.text ∘ Field.symbolInQuotes = some := by
          funext c
          rw [Function.comp, Field.symbolInQuotes]
          split_ifs with quote
          · rw [quote]
            rfl
          · rfl
        rw [Field.symbols, List.cons_append, List.filterMap_cons_none rfl, List.filterMap_append,
          List.filterMap_map, same, List.filterMap_some, List.filterMap_cons_none rfl,
          List.filterMap_nil, List.append_nil]
        rfl
    | plain t clean =>
        have same : Symbol.text ∘ Symbol.char = some := rfl
        rw [Field.symbols, List.filterMap_map, same, List.filterMap_some]
        rfl
  rw [fields, lineRecord, List.splitOn_intercalate _ within (by simpa using nonempty),
    List.map_map]
  exact List.map_congr_left fun f _ => text f

end Read

/-- Lines that have been written are read one for one, whatever follows them. -/
theorem records_write_append (table : List (List Field)) (rest : Text) :
    records (write table ++ rest) = table.map lineRecord ++ records rest := by
  induction table with
  | nil => rfl
  | cons line table ih =>
      rw [write, List.flatMap_cons, List.append_assoc, records, symbols_line,
        recordsFrom_append (lineBreak_not_mem_lineRecord line)]
      exact congrArg (lineRecord line :: ·) ih

theorem parse_write_append (table : List (List Field)) (fields : ∀ line ∈ table, line ≠ [])
    (rest : Text) :
    parse (write table ++ rest) = table.map (·.map Field.value) ++ parse rest := by
  rw [parse, records_write_append, List.map_append, List.map_map]
  refine congrArg (· ++ _) (List.map_congr_left fun line member => ?_)
  exact fields_lineRecord (fields line member)

/-! ## The first field -/

section First

variable {t rest : Text} {ss : List Symbol}

/-- The text of the first field. -/
def firstText (ss : List Symbol) : Text :=
  (ss.takeWhile (¬Symbol.EndsField ·)).filterMap Symbol.text

@[simp] theorem firstText_quote : firstText (.quote :: ss) = firstText ss := rfl

@[simp] theorem firstText_escapedQuote :
    firstText (.escapedQuote :: ss) = '"' :: firstText ss := rfl

@[simp] theorem firstText_separator : firstText (.separator :: ss) = [] := rfl

@[simp] theorem firstText_lineBreak : firstText (.lineBreak :: ss) = [] := rfl

@[simp] theorem firstText_char (c : Char) : firstText (.char c :: ss) = c :: firstText ss := rfl

theorem firstText_clean (t : Text) : firstText (t.map .char ++ ss) = t ++ firstText ss := by
  induction t with
  | nil => rfl
  | cons c t ih => simp [ih]

theorem head?_recordsFrom (current : List Symbol) (ss : List Symbol) :
    (recordsFrom (some current) ss).head? = some (current ++ ss.takeWhile (· ≠ .lineBreak)) := by
  induction ss generalizing current with
  | nil => simp [recordsFrom]
  | cons symbol ss ih =>
      by_cases ends : symbol = .lineBreak
      · simp [ends, recordsFrom]
      · rw [recordsFrom, ih]
        · simp [ends]
        · exact ends

theorem recordsFrom_ne_nil (symbol : Symbol) (ss : List Symbol) :
    recordsFrom none (symbol :: ss) ≠ [] := by
  by_cases ends : symbol = .lineBreak
  · simp [ends, recordsFrom]
  · intro nothing
    have first := head?_recordsFrom [symbol] ss
    rw [recordsFrom] at nothing
    · rw [Option.getD_none, List.nil_append] at nothing
      rw [nothing] at first
      cases first
    · exact ends

theorem symbols_ne_nil (quoted : Bool) (nonempty : t ≠ []) : symbols quoted t ≠ [] := by
  fun_cases symbols quoted t with
  | case1 => exact absurd rfl nonempty
  | _ => exact List.cons_ne_nil _ _

theorem records_ne_nil (nonempty : t ≠ []) : records t ≠ [] := by
  obtain ⟨symbol, ss, read⟩ := List.exists_cons_of_ne_nil (symbols_ne_nil false nonempty)
  rw [records, read]
  exact recordsFrom_ne_nil symbol ss

theorem head?_splitOn (ss : List Symbol) :
    (ss.splitOn .separator).head? = some (ss.takeWhile (· ≠ .separator)) := by
  induction ss with
  | nil => rfl
  | cons symbol ss ih =>
      rw [List.splitOn_cons_eq_if_modifyHead]
      by_cases ends : symbol = .separator
      · simp [ends]
      · simp [ends, ih]

theorem head?_fields (record : List Symbol) :
    (fields record).head? =
      some ((record.takeWhile (· ≠ .separator)).filterMap Symbol.text) := by
  rw [fields, List.head?_map, head?_splitOn]
  rfl

/-- What is read first in a text that has a record. -/
theorem firstText_of_parse {field : Text} {line : List Text} {table : List (List Text)}
    (read : parse t = (field :: line) :: table) : firstText (symbols false t) = field := by
  have first : (parse t).head?.bind List.head? = some field := by
    rw [read]
    rfl
  rw [parse, records, List.head?_map] at first
  cases ss : symbols false t with
  | nil =>
      rw [ss] at first
      cases first
  | cons symbol rest =>
      have record : (recordsFrom none (symbol :: rest)).head? =
          some ((symbol :: rest).takeWhile (· ≠ .lineBreak)) := by
        by_cases ends : symbol = .lineBreak
        · simp [ends, recordsFrom]
        · rw [recordsFrom, head?_recordsFrom]
          · simp [ends]
          · exact ends
      have both : (fun s : Symbol => decide (s ≠ .separator) && decide (s ≠ .lineBreak)) =
          fun s => decide ¬s.EndsField := by
        funext s
        simp [Symbol.EndsField]
      rw [ss, record, Option.map_some, Option.bind_some, head?_fields,
        List.takeWhile_takeWhile] at first
      rw [firstText, ← both]
      simpa using first

/-- The quotes at the beginning of a text. -/
def leadingQuotes (t : Text) : Nat := (t.takeWhile (· = '"')).length

@[simp] theorem leadingQuotes_nil : leadingQuotes [] = 0 := rfl

@[simp] theorem leadingQuotes_quote (t : Text) :
    leadingQuotes ('"' :: t) = leadingQuotes t + 1 := by
  simp [leadingQuotes]

theorem leadingQuotes_other {c : Char} (other : c ≠ '"') (t : Text) :
    leadingQuotes (c :: t) = 0 := by
  simp [leadingQuotes, other]

/-- Quotes at the beginning of a text are not all read as characters. -/
theorem leadingQuotes_firstText (quoted : Bool) (t : Text) :
    leadingQuotes (firstText (symbols quoted t)) ≤ leadingQuotes t ∧
      (quoted = false → leadingQuotes t ≠ 0 →
        leadingQuotes (firstText (symbols quoted t)) < leadingQuotes t) := by
  fun_induction symbols quoted t with
  | case1 quoted => simp [firstText]
  | case2 rest ih =>
      have fewer := ih.1
      simp only [firstText_escapedQuote, leadingQuotes_quote]
      exact ⟨by omega, nofun⟩
  | case3 quoted rest single ih =>
      have fewer := ih.1
      simp only [firstText_quote, leadingQuotes_quote]
      exact ⟨by omega, fun _ _ => by omega⟩
  | case4 rest ih => simp [leadingQuotes_other]
  | case5 rest ih => simp [leadingQuotes_other]
  | case6 rest single ih => simp [leadingQuotes_other]
  | case7 rest ih => simp [leadingQuotes_other]
  | case8 quoted c rest _ other => simp [leadingQuotes_other other]

theorem leadingQuotes_append (t : Text) {c : Char} (other : c ≠ '"') (rest : Text) :
    leadingQuotes (t ++ c :: rest) = leadingQuotes t := by
  induction t with
  | nil => exact leadingQuotes_other other rest
  | cons d t ih =>
      by_cases quote : d = '"'
      · simp [quote, ih]
      · simp [leadingQuotes_other quote]

theorem symbols_carriageReturn (rest : Text) :
    ∃ rest', symbols false ('\r' :: rest) = .lineBreak :: rest' := by
  by_cases two : rest.head? = some '\n'
  · obtain ⟨rest', rfl⟩ := List.head?_eq_some_iff.mp two
    exact ⟨_, by rw [symbols]⟩
  · refine ⟨symbols false rest, ?_⟩
    rw [symbols]
    rintro rest' rfl
    exact two rfl

/-- Another text is not read as it is. -/
theorem clean_of_firstText (same : firstText (symbols false (t ++ ',' :: rest)) = t) : Clean t := by
  induction t with
  | nil => nofun
  | cons c t ih =>
      by_cases quote : c = '"'
      · subst quote
        have fewer := (leadingQuotes_firstText false ('"' :: t ++ ',' :: rest)).2 rfl
        rw [same, leadingQuotes_append _ (by decide)] at fewer
        exact absurd (fewer (by simp)) (Nat.lt_irrefl _)
      by_cases carriageReturn : c = '\r'
      · obtain ⟨rest', read⟩ := symbols_carriageReturn (t ++ ',' :: rest)
        rw [carriageReturn, List.cons_append, read] at same
        cases same
      by_cases separator : c = ','
      · rw [separator, List.cons_append, symbols] at same
        cases same
      by_cases newline : c = '\n'
      · rw [newline, List.cons_append, symbols] at same
        cases same
      have first : Clean [c] := by
        simp [Clean, quote, carriageReturn, separator, newline]
      have read := symbols_clean first (t ++ ',' :: rest)
      rw [List.cons_append, List.nil_append] at read
      rw [List.cons_append, read, firstText_clean] at same
      have others := ih (List.cons.inj same).2
      intro d member
      rcases List.mem_cons.mp member with rfl | member
      · exact first d List.mem_cons_self
      · exact others d member

/-- Only a clean text can be written without quotes. -/
theorem clean_of_parse {line : List Text} {table : List (List Text)}
    (read : parse (t ++ ',' :: rest) = (t :: line) :: table) : Clean t :=
  clean_of_firstText (firstText_of_parse read)

end First

end Csv
