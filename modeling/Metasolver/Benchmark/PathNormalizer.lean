import Metasolver.Lib.PosixPath

/-!
# File names that Windows takes

`win_normalize_filename` (`path_normalizer.h`), by which the benchmark names the files it
writes.  The name is rewritten in three steps, and each keeps what the steps before it have
established: no reserved symbol, no space or dot at the end, no name of a device.
-/

namespace Metasolver

open PosixPath

/-- `WIN_RESERVED_KEYWORDS` (`path_normalizer.h:7-10`). -/
def winReservedKeywords : List String :=
  ["CON", "PRN", "AUX", "NUL", "COM1", "COM2", "COM3", "COM4", "COM5", "COM6", "COM7", "COM8",
    "COM9", "LPT1", "LPT2", "LPT3", "LPT4", "LPT5", "LPT6", "LPT7", "LPT8", "LPT9"]

/-- `WIN_RESERVED_SYMBOLS` (`path_normalizer.h:12`). -/
def winReservedSymbols : String := "<>:\"/\\|?*"

namespace WinNormalize

/-- The first loop. -/
def replaceReserved (s : List Char) : List Char :=
  s.map fun c => if c ∈ winReservedSymbols.toList then '_' else c

/-- What may not be at the end. -/
def Trailing (c : Char) : Prop := c = ' ' ∨ c = '.'

instance : DecidablePred Trailing := fun c => inferInstanceAs (Decidable (c = ' ' ∨ c = '.'))

/-- The second loop and the name for an empty rest. -/
def trimmed (s : List Char) : List Char :=
  if s.rdropWhile Trailing = [] then "file".toList else s.rdropWhile Trailing

def upper (s : List Char) : List Char := s.map Char.toUpper

/-- The third loop. -/
def escapeKeyword (s : List Char) : List Char :=
  if winReservedKeywords.any fun r => upper s = r.toList then '_' :: s else s

/-- What becomes of the file name. -/
def normalized (s : List Char) : List Char := escapeKeyword (trimmed (replaceReserved s))

end WinNormalize

/-- `win_normalize_filename` (`path_normalizer.h:14-40`). -/
def winNormalizeFilename (p : Path) : Path :=
  append (parentPath p) (WinNormalize.normalized (filename p))

/-- Equal but for upper and lower case. -/
def EqIgnoringCase (s t : List Char) : Prop := s.map Char.toUpper = t.map Char.toUpper

/-- A file name that Windows takes. -/
structure WinFilename (s : List Char) : Prop where
  nonempty : s ≠ []
  noReserved : ∀ c ∈ s, c ∉ winReservedSymbols.toList
  last : ∀ nonempty, s.getLast nonempty ≠ ' ' ∧ s.getLast nonempty ≠ '.'
  noKeyword : ∀ r ∈ winReservedKeywords, ¬EqIgnoringCase s r.toList

namespace WinNormalize

variable {s : List Char}

theorem noReserved_replaceReserved (s : List Char) :
    ∀ c ∈ replaceReserved s, c ∉ winReservedSymbols.toList := by
  intro c member
  obtain ⟨d, -, rfl⟩ := List.mem_map.mp member
  split_ifs with reserved
  · decide
  · exact reserved

theorem replaceReserved_of_noReserved (clean : ∀ c ∈ s, c ∉ winReservedSymbols.toList) :
    replaceReserved s = s := by
  rw [replaceReserved]
  conv_rhs => rw [← List.map_id s]
  exact List.map_congr_left fun c member => if_neg (clean c member)

theorem trimmed_cases (s : List Char) :
    trimmed s = "file".toList ∨ (trimmed s <+: s ∧ trimmed s ≠ [] ∧
      ∀ nonempty, ¬Trailing ((trimmed s).getLast nonempty)) := by
  rw [trimmed]
  split_ifs with empty
  · exact Or.inl rfl
  · refine Or.inr ⟨List.rdropWhile_prefix _ _, empty, fun nonempty => ?_⟩
    simpa using List.rdropWhile_last_not _ _ nonempty

/-- Trimming brings no symbol into a name but those of `file`. -/
theorem noReserved_trimmed (clean : ∀ c ∈ s, c ∉ winReservedSymbols.toList) :
    ∀ c ∈ trimmed s, c ∉ winReservedSymbols.toList := by
  intro c member
  rcases trimmed_cases s with file | ⟨before, -⟩
  · have all : "file".toList.all fun c => c ∉ winReservedSymbols.toList := by decide
    rw [file] at member
    simpa using List.all_eq_true.mp all c member
  · exact clean c (before.subset member)

theorem trimmed_ne_nil (s : List Char) : trimmed s ≠ [] := by
  rcases trimmed_cases s with file | ⟨-, nonempty, -⟩
  · rw [file]
    decide
  · exact nonempty

theorem last_trimmed (s : List Char) (nonempty : trimmed s ≠ []) :
    ¬Trailing ((trimmed s).getLast nonempty) := by
  rcases trimmed_cases s with file | ⟨-, -, last⟩
  · revert nonempty
    rw [file]
    decide
  · exact last nonempty

theorem trimmed_of_last (nonempty : s ≠ []) (last : ¬Trailing (s.getLast nonempty)) :
    trimmed s = s := by
  have whole : s.rdropWhile Trailing = s :=
    List.rdropWhile_eq_self_iff.mpr fun _ => by simpa using last
  rw [trimmed, whole, if_neg nonempty]

theorem any_keyword_iff :
    (winReservedKeywords.any fun r => upper s = r.toList) = true ↔
      ∃ r ∈ winReservedKeywords, EqIgnoringCase s r.toList := by
  have upperCase : ∀ r ∈ winReservedKeywords, r.toList.map Char.toUpper = r.toList := by decide
  rw [List.any_eq_true]
  refine exists_congr fun r => and_congr_right fun keyword => ?_
  rw [EqIgnoringCase, upperCase r keyword, decide_eq_true_iff, upper]

/-- No device has a name that begins with the prefix. -/
theorem noKeyword_escapeKeyword (s : List Char) :
    ∀ r ∈ winReservedKeywords, ¬EqIgnoringCase (escapeKeyword s) r.toList := by
  intro r keyword equal
  rw [escapeKeyword] at equal
  split_ifs at equal with reserved
  · have first : ∀ r ∈ winReservedKeywords, (r.toList.map Char.toUpper).head? ≠ some '_' := by
      decide
    refine first r keyword ?_
    rw [← equal]
    rfl
  · exact reserved (any_keyword_iff.mpr ⟨r, keyword, equal⟩)

theorem escapeKeyword_of_noKeyword
    (other : ∀ r ∈ winReservedKeywords, ¬EqIgnoringCase s r.toList) : escapeKeyword s = s := by
  rw [escapeKeyword, if_neg]
  intro reserved
  obtain ⟨r, keyword, equal⟩ := any_keyword_iff.mp reserved
  exact other r keyword equal

theorem escapeKeyword_cases (s : List Char) :
    escapeKeyword s = '_' :: s ∨ escapeKeyword s = s := by
  rw [escapeKeyword]
  split_ifs
  · exact Or.inl rfl
  · exact Or.inr rfl

theorem winFilename_normalized (s : List Char) : WinFilename (normalized s) := by
  have clean := noReserved_trimmed (noReserved_replaceReserved s)
  have nonempty := trimmed_ne_nil (replaceReserved s)
  have last := last_trimmed (replaceReserved s) nonempty
  have noKeyword := noKeyword_escapeKeyword (trimmed (replaceReserved s))
  rw [← normalized] at noKeyword
  rw [Trailing, not_or] at last
  rcases escapeKeyword_cases (trimmed (replaceReserved s)) with escaped | escaped
  · rw [← normalized] at escaped
    refine ⟨?_, ?_, ?_, noKeyword⟩
    · rw [escaped]
      exact List.cons_ne_nil _ _
    · rw [escaped]
      intro c member
      rcases List.mem_cons.mp member with rfl | member
      · decide
      · exact clean c member
    · simp only [escaped]
      intro _
      rw [List.getLast_cons nonempty]
      exact last
  · rw [← normalized] at escaped
    refine ⟨?_, ?_, ?_, noKeyword⟩
    · rw [escaped]
      exact nonempty
    · rw [escaped]
      exact clean
    · simp only [escaped]
      exact fun _ => last

/-- A name that Windows takes is left as it is. -/
theorem normalized_of_winFilename (safe : WinFilename s) : normalized s = s := by
  have last := safe.last safe.nonempty
  rw [normalized, replaceReserved_of_noReserved safe.noReserved,
    trimmed_of_last safe.nonempty (by simpa [Trailing] using last),
    escapeKeyword_of_noKeyword safe.noKeyword]

end WinNormalize

theorem WinFilename.slash_not_mem {s : List Char} (safe : WinFilename s) : '/' ∉ s :=
  fun member => safe.noReserved '/' member (by decide)

/-- The file is in the directory it was to be in, under a name that Windows takes, and a
    second normalization changes nothing. -/
theorem winNormalizeFilename_safe_idempotent (p : Path) :
    parentPath (winNormalizeFilename p) = parentPath p ∧
      WinFilename (filename (winNormalizeFilename p)) ∧
      winNormalizeFilename (winNormalizeFilename p) = winNormalizeFilename p := by
  have safe := WinNormalize.winFilename_normalized (filename p)
  have parent : parentPath (winNormalizeFilename p) = parentPath p :=
    parentPath_append safe.slash_not_mem p
  have name : filename (winNormalizeFilename p) = WinNormalize.normalized (filename p) :=
    filename_append safe.slash_not_mem (parentPath p)
  refine ⟨parent, ?_, ?_⟩
  · rw [name]
    exact safe
  · conv_lhs => rw [winNormalizeFilename, parent, name,
      WinNormalize.normalized_of_winFilename safe]
    rfl

/-- A name that is reserved only after the dot is gone. -/
example : winNormalizeFilename "results//nul. .".toList = "results/_nul".toList := by
  decide +kernel

end Metasolver
