import Formula.Lexer.Mark
import Formula.Text.Blank

/-! The lexer: tokens of a text, from what all recognizers claim of it. -/

namespace Formula

/-- What happens when two recognizers claim a token at one place. -/
inductive ConflictPolicy where
  | strict
  | priority
  deriving DecidableEq

namespace ConflictPolicy

/-- The written name of a policy. -/
def name : ConflictPolicy → String
  | strict => "strict"
  | priority => "priority"

/-- The policy with a given name. -/
def ofName? (name : String) : Option ConflictPolicy :=
  [strict, priority].find? fun policy => policy.name == name

end ConflictPolicy

/-- Why a text has no tokens. -/
inductive LexicalFault where
  | empty
  | ambiguous (position : Nat) (kept other : Claim)
  | unexpected (position : Nat) (character : Char)
  deriving DecidableEq

namespace LexicalFault

/-- The wording of a lexical fault. -/
def message : LexicalFault → String
  | empty => "Expression is empty"
  | ambiguous position kept other =>
    "Ambiguous token at position " ++ toString position ++ ": '"
      ++ (kept.form.token kept.lexeme).text ++ "' (" ++ kept.form.name ++ ") and '"
      ++ (other.form.token other.lexeme).text ++ "' (" ++ other.form.name ++ ")"
  | unexpected position character =>
    "Unexpected character '" ++ String.singleton character ++ "' at position " ++ toString position

/-- The place of a lexical fault among the characters that are not blank. -/
def position? : LexicalFault → Option Nat
  | empty => none
  | ambiguous position _ _ => some position
  | unexpected position _ => some position

end LexicalFault

/-- Two claims on one place, of which the one with the higher priority comes first. -/
structure Clash where
  position : Nat
  kept : Claim
  other : Claim

/-- The clashes at one place: every further claim clashes with the first. -/
def clashesAt (position : Nat) : List Claim → List Clash
  | [] => []
  | kept :: others => others.map (Clash.mk position kept)

/-- All clashes of a text, in order of their places. -/
def clashesByPlace (text : List Char) : List Clash :=
  (columns text).zipIdx.flatMap fun (column, position) => clashesAt position column.claims

/-- All clashes as they are noticed: each recognizer reads the whole text before the next one. -/
def clashes (text : List Char) : List Clash :=
  let placed := clashesByPlace text
  Recognizer.all.flatMap fun form => placed.filter fun clash => clash.other.form == form

/-- The first character that belongs to no token, with its place. -/
def firstUncovered? (text : List Char) : Option (Char × Nat) :=
  ((columns text).zipIdx.find? fun (column, _) => !column.isCovered).map fun (column, position) =>
    (column.character, position)

/-- At every place the claim with the highest priority becomes a token. -/
def claimedTokens (text : List Char) : List Token :=
  (columns text).filterMap fun column =>
    column.claims.head?.map fun claim => claim.form.token claim.lexeme

/-- The tokens of a text without blanks, under a policy for clashes and for uncovered characters. -/
def tokenizeChars (policy : ConflictPolicy) (rejecting : Bool) (text : List Char) :
    Except LexicalFault (List Token) :=
  if text.isEmpty then .error .empty
  else
    -- Clashes are reported before characters that nothing covers.
    match policy, clashes text with
    | .strict, clash :: _ => .error (.ambiguous clash.position clash.kept clash.other)
    | _, _ =>
      match rejecting, firstUncovered? text with
      | true, some (character, position) => .error (.unexpected position character)
      | _, _ => .ok (claimedTokens text)

/-- The tokens of a text; blanks are dropped first, and places are counted without them. -/
def tokenize (policy : ConflictPolicy) (rejecting : Bool) (text : String) :
    Except LexicalFault (List Token) :=
  tokenizeChars policy rejecting (Text.withoutBlanks text.toList)

end Formula
