import Mathlib.Data.List.DropRight

/-!
# POSIX paths

`std::filesystem::path` where names are separated by slashes and there are no root names:
its last element, the path before it, and how a path is appended.  `filename_append` and
`parentPath_append` say that a parent path and a file name are put together and taken apart
again without loss.
-/

namespace PosixPath

/-- A path as it is written. -/
abbrev Path := List Char

/-- `filename`: what follows the last slash. -/
def filename (p : Path) : Path := p.rtakeWhile (· ≠ '/')

/-- What there is up to the last slash. -/
def directory (p : Path) : Path := p.rdropWhile (· ≠ '/')

/-- `parent_path`: the slashes before the file name go, unless they are the root. -/
def parentPath (p : Path) : Path :=
  if (directory p).rdropWhile (· = '/') = [] then directory p
  else (directory p).rdropWhile (· = '/')

/-- `operator/`. -/
def append (p q : Path) : Path :=
  if q.head? = some '/' then q
  else if filename p = [] then p ++ q
  else p ++ '/' :: q

/-- `operator/` of two paths that are strings. -/
def joinPath (p q : String) : String := String.ofList (append p.toList q.toList)

variable {p q s : Path}

theorem directory_append_filename (p : Path) : directory p ++ filename p = p :=
  List.rdropWhile_append_rtakeWhile

/-- A name without slashes at the end is part of the file name. -/
theorem filename_append_name (name : '/' ∉ s) : filename (q ++ s) = filename q ++ s := by
  induction s using List.reverseRecOn with
  | nil => simp
  | append_singleton s c ih =>
      have notSlash : c ≠ '/' := fun slash => name (by simp [slash])
      have rest : '/' ∉ s := fun member => name (by simp [member])
      have last : filename (q ++ (s ++ [c])) = filename (q ++ s) ++ [c] := by
        rw [← List.append_assoc]
        exact List.rtakeWhile_concat_pos _ _ _ (by simpa using notSlash)
      rw [last, ih rest, List.append_assoc]

theorem directory_append_name (name : '/' ∉ s) : directory (q ++ s) = directory q := by
  induction s using List.reverseRecOn with
  | nil => simp
  | append_singleton s c ih =>
      have notSlash : c ≠ '/' := fun slash => name (by simp [slash])
      have rest : '/' ∉ s := fun member => name (by simp [member])
      have last : directory (q ++ (s ++ [c])) = directory (q ++ s) := by
        rw [← List.append_assoc]
        exact List.rdropWhile_concat_pos _ _ _ (by simpa using notSlash)
      rw [last, ih rest]

theorem filename_slash : filename (q ++ ['/']) = [] :=
  List.rtakeWhile_concat_neg _ _ _ (by simp)

theorem directory_slash : directory (q ++ ['/']) = q ++ ['/'] :=
  List.rdropWhile_concat_neg _ _ _ (by simp)

theorem directory_directory (p : Path) : directory (directory p) = directory p :=
  List.rdropWhile_idempotent _ _

theorem filename_directory (p : Path) : filename (directory p) = [] := by
  have parts := directory_append_filename (directory p)
  rw [directory_directory] at parts
  exact List.append_right_eq_self.mp parts

theorem head?_of_slash_not_mem (name : '/' ∉ s) : s.head? ≠ some '/' :=
  fun first => name (List.mem_of_mem_head? first)

/-- A parent path has no file name, or one that does not end in a slash. -/
theorem parentPath_cases (p : Path) :
    (parentPath p = directory p ∧ (directory p).rdropWhile (· = '/') = []) ∨
      (filename (parentPath p) ≠ [] ∧ parentPath p ≠ [] ∧
        (parentPath p).rdropWhile (· = '/') = parentPath p) := by
  rw [parentPath]
  split_ifs with root
  · exact Or.inl ⟨rfl, root⟩
  · refine Or.inr ⟨fun nothing => ?_, root, List.rdropWhile_idempotent _ _⟩
    have last := List.rtakeWhile_eq_nil_iff.mp nothing root
    exact List.rdropWhile_last_not _ _ root (by simpa using last)

theorem append_name (name : '/' ∉ s) (p : Path) :
    append p s = if filename p = [] then p ++ s else p ++ '/' :: s := by
  rw [append, if_neg (head?_of_slash_not_mem name)]

/-- The file name that has been appended. -/
theorem filename_append (name : '/' ∉ s) (p : Path) : filename (append p s) = s := by
  rw [append_name name]
  split_ifs with without
  · rw [filename_append_name name, without, List.nil_append]
  · rw [show p ++ '/' :: s = (p ++ ['/']) ++ s by simp, filename_append_name name,
      filename_slash, List.nil_append]

/-- A parent path stays the parent of what is appended. -/
theorem parentPath_append (name : '/' ∉ s) (p : Path) :
    parentPath (append (parentPath p) s) = parentPath p := by
  rw [append_name name]
  rcases parentPath_cases p with ⟨parent, root⟩ | ⟨named, nonempty, trimmed⟩
  · rw [parent, if_pos (filename_directory p), parentPath, directory_append_name name,
      directory_directory, if_pos root]
  · rw [if_neg named]
    generalize parentPath p = q at nonempty trimmed
    have dropped : (directory (q ++ '/' :: s)).rdropWhile (· = '/') = q := by
      rw [show q ++ '/' :: s = (q ++ ['/']) ++ s by simp, directory_append_name name,
        directory_slash, List.rdropWhile_concat_pos _ _ _ (by simp), trimmed]
    rw [parentPath, dropped, if_neg nonempty]

end PosixPath
