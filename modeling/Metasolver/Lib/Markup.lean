import Mathlib.Data.List.Basic

/-!
# Markup

Documents of nested elements and characters, and how they are written with tags and
entities.  A `Vocabulary` has the tags and the entities that may occur.  Reading is strict:
tags and entities of the vocabulary only, no lone `<`, `>` or `&`, and each end tag closes
the element that was opened last.

`read_print` says that every document is read as it was written, so what is read back from a
text is properly nested and nothing in it is markup that has not been written as such.
-/

namespace Markup

abbrev Text := List Char

/-- The tags of the elements `τ` and the entities. -/
structure Vocabulary (τ : Type) where
  name : τ → Text
  ofName : Text → Option τ
  entity : Char → Option Text
  ofEntity : Text → Option Char
  ofName_name : ∀ t, ofName (name t) = some t
  name_ends : ∀ t, '>' ∉ name t
  name_starts : ∀ t, (name t).head? ≠ some '/'
  ofEntity_entity : ∀ c n, entity c = some n → ofEntity n = some c
  entity_ends : ∀ c n, entity c = some n → ';' ∉ n
  reserved : ∀ c ∈ ['<', '>', '&'], (entity c).isSome

inductive Token (τ : Type) where
  | start (t : τ)
  | stop (t : τ)
  | char (c : Char)
  deriving DecidableEq, Repr

/-- Elements and characters one after the other.  `next` is what follows. -/
inductive Forest (τ : Type) where
  | nil
  | char (c : Char) (next : Forest τ)
  | element (t : τ) (children next : Forest τ)
  deriving DecidableEq, Repr

namespace Forest

variable {τ : Type}

def append : Forest τ → Forest τ → Forest τ
  | nil, g => g
  | char c f, g => char c (f.append g)
  | element t children f, g => element t children (f.append g)

@[simp] theorem append_nil (f : Forest τ) : f.append nil = f := by
  induction f with
  | nil => rfl
  | char c f ih => rw [append, ih]
  | element t children f _ ih => rw [append, ih]

theorem append_assoc (f g h : Forest τ) : (f.append g).append h = f.append (g.append h) := by
  induction f with
  | nil => rfl
  | char c f ih => simp only [append, ih]
  | element t children f _ ih => simp only [append, ih]

def tokens : Forest τ → List (Token τ)
  | nil => []
  | char c f => .char c :: f.tokens
  | element t children f => .start t :: (children.tokens ++ .stop t :: f.tokens)

/-- The elements at the top. -/
def elements : Forest τ → List (τ × Forest τ)
  | nil => []
  | char _ f => f.elements
  | element t children f => (t, children) :: f.elements

def ofText : Text → Forest τ
  | [] => nil
  | c :: t => char c (ofText t)

@[simp] theorem tokens_ofText (t : Text) : (ofText t : Forest τ).tokens = t.map .char := by
  induction t with
  | nil => rfl
  | cons c t ih => simp [ofText, tokens, ih]

end Forest

namespace Vocabulary

variable {τ : Type} (v : Vocabulary τ)

def printChar (c : Char) : Text :=
  match v.entity c with
  | some n => '&' :: n ++ [';']
  | none => [c]

def printToken : Token τ → Text
  | .start t => '<' :: v.name t ++ ['>']
  | .stop t => '<' :: '/' :: v.name t ++ ['>']
  | .char c => v.printChar c

def printTokens (ts : List (Token τ)) : Text := ts.flatMap v.printToken

def print (f : Forest τ) : Text := v.printTokens f.tokens

@[simp] theorem printTokens_nil : v.printTokens [] = [] := rfl

@[simp] theorem printTokens_cons (token : Token τ) (ts : List (Token τ)) :
    v.printTokens (token :: ts) = v.printToken token ++ v.printTokens ts :=
  List.flatMap_cons

@[simp] theorem printTokens_append (ts us : List (Token τ)) :
    v.printTokens (ts ++ us) = v.printTokens ts ++ v.printTokens us :=
  List.flatMap_append

/-- Where in a token the reader is, with the characters it has read of it. -/
inductive Position where
  | between
  | tag (soFar : Text)
  | entity (soFar : Text)

def tagToken : Text → Option (Token τ)
  | '/' :: n => (v.ofName n).map .stop
  | n => (v.ofName n).map .start

def lexFrom : Position → Text → Option (List (Token τ))
  | .between, [] => some []
  | _, [] => none
  | .between, c :: rest =>
      if c = '<' then lexFrom (.tag []) rest
      else if c = '&' then lexFrom (.entity []) rest
      else if c = '>' then none
      else (lexFrom .between rest).map (.char c :: ·)
  | .tag soFar, c :: rest =>
      if c = '>' then
        (v.tagToken soFar).bind fun token => (lexFrom .between rest).map (token :: ·)
      else lexFrom (.tag (soFar ++ [c])) rest
  | .entity soFar, c :: rest =>
      if c = ';' then
        (v.ofEntity soFar).bind fun c => (lexFrom .between rest).map (.char c :: ·)
      else lexFrom (.entity (soFar ++ [c])) rest

def lex (s : Text) : Option (List (Token τ)) := v.lexFrom .between s

end Vocabulary

section Parse

variable {τ : Type} [DecidableEq τ]

/-- The elements that are open, each with what precedes it, and what has been read since the
    last of them was opened. -/
def parseFrom : List (τ × Forest τ) → Forest τ → List (Token τ) → Option (Forest τ)
  | [], read, [] => some read
  | _ :: _, _, [] => none
  | opened, read, .char c :: ts => parseFrom opened (read.append (.char c .nil)) ts
  | opened, read, .start t :: ts => parseFrom ((t, read) :: opened) .nil ts
  | [], _, .stop _ :: _ => none
  | (t, before) :: opened, read, .stop u :: ts =>
      if t = u then parseFrom opened (before.append (.element t read .nil)) ts else none

def Vocabulary.read (v : Vocabulary τ) (s : Text) : Option (Forest τ) :=
  (v.lex s).bind fun ts => parseFrom [] .nil ts

end Parse

/-! ## Reading what has been printed -/

namespace Vocabulary

variable {τ : Type} (v : Vocabulary τ)

theorem lexFrom_tag (soFar : Text) {n : Text} (ends : '>' ∉ n) (rest : Text) :
    v.lexFrom (.tag soFar) (n ++ '>' :: rest) =
      (v.tagToken (soFar ++ n)).bind fun token => (v.lex rest).map (token :: ·) := by
  induction n generalizing soFar with
  | nil => simp [lexFrom, lex]
  | cons c n ih =>
      have other : c ≠ '>' := fun same => ends (by simp [same])
      have others : '>' ∉ n := fun member => ends (by simp [member])
      rw [List.cons_append, lexFrom, if_neg other, ih _ others, List.append_assoc]
      rfl

theorem lexFrom_entity (soFar : Text) {n : Text} (ends : ';' ∉ n) (rest : Text) :
    v.lexFrom (.entity soFar) (n ++ ';' :: rest) =
      (v.ofEntity (soFar ++ n)).bind fun c => (v.lex rest).map (.char c :: ·) := by
  induction n generalizing soFar with
  | nil => simp [lexFrom, lex]
  | cons c n ih =>
      have other : c ≠ ';' := fun same => ends (by simp [same])
      have others : ';' ∉ n := fun member => ends (by simp [member])
      rw [List.cons_append, lexFrom, if_neg other, ih _ others, List.append_assoc]
      rfl

theorem tagToken_start (t : τ) : v.tagToken (v.name t) = some (.start t) := by
  have starts := v.name_starts t
  have named := v.ofName_name t
  generalize v.name t = n at starts named
  rw [tagToken]
  · rw [named]
    rfl
  · rintro n' rfl
    exact starts rfl

theorem tagToken_stop (t : τ) : v.tagToken ('/' :: v.name t) = some (.stop t) := by
  rw [tagToken, v.ofName_name]
  rfl

/-- One token is read back. -/
theorem lex_printToken (token : Token τ) (rest : Text) :
    v.lex (v.printToken token ++ rest) = (v.lex rest).map (token :: ·) := by
  cases token with
  | start t =>
      have text : v.printToken (.start t) ++ rest = '<' :: (v.name t ++ '>' :: rest) := by
        simp [printToken]
      rw [text, lex, lexFrom, if_pos rfl, v.lexFrom_tag [] (v.name_ends t), List.nil_append,
        tagToken_start]
      rfl
  | stop t =>
      have text : v.printToken (.stop t) ++ rest =
          '<' :: (('/' :: v.name t) ++ '>' :: rest) := by
        simp [printToken]
      have ends : '>' ∉ '/' :: v.name t := by
        simpa using v.name_ends t
      rw [text, lex, lexFrom, if_pos rfl, v.lexFrom_tag [] ends, List.nil_append, tagToken_stop]
      rfl
  | char c =>
      rw [printToken, printChar]
      cases entity : v.entity c with
      | some n =>
          have text : ('&' :: n ++ [';']) ++ rest = '&' :: (n ++ ';' :: rest) := by
            simp
          simp only
          rw [text, lex, lexFrom, if_neg (by decide), if_pos rfl,
            v.lexFrom_entity [] (v.entity_ends c n entity), List.nil_append,
            v.ofEntity_entity c n entity]
          rfl
      | none =>
          have free (d : Char) (reserved : d ∈ ['<', '>', '&']) : c ≠ d := by
            rintro rfl
            have some_ := v.reserved c reserved
            rw [entity] at some_
            cases some_
          simp only [List.cons_append, List.nil_append]
          rw [lex, lexFrom, if_neg (free '<' (by decide)), if_neg (free '&' (by decide)),
            if_neg (free '>' (by decide))]
          rfl

theorem lex_printTokens (ts : List (Token τ)) : v.lex (v.printTokens ts) = some ts := by
  induction ts with
  | nil => rfl
  | cons token ts ih =>
      rw [printTokens_cons, lex_printToken, ih]
      rfl

variable [DecidableEq τ]

theorem parseFrom_tokens (f : Forest τ) (opened : List (τ × Forest τ)) (read : Forest τ)
    (ts : List (Token τ)) :
    parseFrom opened read (f.tokens ++ ts) = parseFrom opened (read.append f) ts := by
  induction f generalizing opened read ts with
  | nil => rw [Forest.tokens, List.nil_append, Forest.append_nil]
  | char c f ih =>
      rw [Forest.tokens, List.cons_append, parseFrom, ih, Forest.append_assoc]
      rfl
  | element t children f children_ih ih =>
      rw [Forest.tokens, List.cons_append, parseFrom, List.append_assoc, children_ih,
        List.cons_append, parseFrom, if_pos rfl, ih, Forest.append_assoc]
      rfl

/-- Every document is read as it was written. -/
theorem read_print (f : Forest τ) : v.read (v.print f) = some f := by
  have parsed := parseFrom_tokens f [] .nil []
  rw [List.append_nil] at parsed
  rw [read, print, lex_printTokens, Option.bind_some, parsed]
  rfl

end Vocabulary

end Markup
