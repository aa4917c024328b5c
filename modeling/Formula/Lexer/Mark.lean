import Formula.Lexer.Recognizer

/-! Marks: how each recognizer, reading the whole text by itself, covers its characters. -/

namespace Formula

/-- What one recognizer makes of one character: nothing, the start of a token, or more of one. -/
inductive Mark where
  | outside
  | opening (lexeme : List Char)
  | inside
  deriving DecidableEq

namespace Recognizer

/-- The marks of one recognizer: a token covers its characters, and the search goes on after it. -/
def marksFrom (form : Recognizer) (covered : Nat) (before : List Char) : List Char → List Mark
  | [] => []
  | c :: rest =>
    match covered with
    | remaining + 1 => .inside :: form.marksFrom remaining (c :: before) rest
    | 0 =>
      match form.matchLength before (c :: rest) with
      | 0 => .outside :: form.marksFrom 0 (c :: before) rest
      | length + 1 =>
        .opening ((c :: rest).take (length + 1)) :: form.marksFrom length (c :: before) rest

/-- The marks of one recognizer over a whole text, one for each character. -/
def marks (form : Recognizer) (text : List Char) : List Mark :=
  form.marksFrom 0 [] text

end Recognizer

/-- A token that a recognizer claims at some place of a text. -/
structure Claim where
  form : Recognizer
  lexeme : List Char
  deriving DecidableEq

/-- What all recognizers make of one character, the one with the highest priority first. -/
structure Column where
  character : Char
  marks : List (Recognizer × Mark)

namespace Column

/-- The tokens that are claimed to start at a character. -/
def claims (column : Column) : List Claim :=
  column.marks.filterMap fun
    | (form, .opening lexeme) => some ⟨form, lexeme⟩
    | _ => none

/-- A character is covered when it belongs to a token of some recognizer. -/
def isCovered (column : Column) : Bool :=
  column.marks.any fun mark => mark.2 != .outside

end Column

/-- What the recognizers make of a text, character by character. -/
def columns (text : List Char) : List Column :=
  Recognizer.all.foldr
    (fun form later => List.zipWith
      (fun mark column => { column with marks := (form, mark) :: column.marks })
      (form.marks text) later)
    (text.map (Column.mk · []))

end Formula
