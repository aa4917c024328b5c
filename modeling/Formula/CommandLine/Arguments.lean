import Formula.Decimal.Numeral
import Formula.Settings

/-! Command line arguments: one formula, and options that say what to do with it. -/

namespace Formula.CommandLine

/-- The options of the command line. -/
inductive Flag where
  | help
  | x
  | root
  | roots
  | table
  | method
  | showPostfix
  | verbose
  deriving DecidableEq

namespace Flag

/-- All options. -/
def all : List Flag :=
  [help, x, root, roots, table, method, showPostfix, verbose]

/-- The written name of an option. -/
def name : Flag → String
  | help => "--help"
  | x => "--x"
  | root => "--root"
  | roots => "--roots"
  | table => "--table"
  | method => "--method"
  | showPostfix => "--postfix"
  | verbose => "--verbose"

/-- The short name of an option; only help has one. -/
def shortName? : Flag → Option String
  | help => some "-h"
  | _ => none

/-- The words that stand for the arguments of an option where its use is shown. -/
def placeholders : Flag → List String
  | help => []
  | x => ["X"]
  | root => ["A", "B"]
  | roots => ["A", "B"]
  | table => ["START", "STOP", "NUM"]
  | method => ["\x7b" ++ ",".intercalate (Method.all.map Method.name) ++ "\x7d"]
  | showPostfix => []
  | verbose => []

/-- The number of arguments that an option takes. -/
def arity (flag : Flag) : Nat :=
  flag.placeholders.length

/-- The options whose names a text abbreviates; a whole name abbreviates only itself. -/
def abbreviated (text : List Char) : List Flag :=
  match all.find? fun flag => flag.name.toList == text with
  | some flag => [flag]
  | none => all.filter fun flag => text.isPrefixOf flag.name.toList

end Flag

/-- What an argument is by itself. -/
inductive Piece where
  | plain (text : String)
  | option (flag : Flag) (attached : Option String)
  | unknownOption
  | separator

namespace Piece

/-- A minus sign and digits, with at most one point and digits after it, is a negative number. -/
def isNegativeNumber (text : List Char) : Bool :=
  -- One line feed at the end is overlooked.
  let line := if text.getLast? == some '\n' then text.dropLast else text
  match line with
  | '-' :: rest =>
    let fraction := rest.dropWhile Text.isDigit
    match fraction with
    | [] => !rest.isEmpty
    | c :: digits => c == '.' && !digits.isEmpty && digits.all Text.isDigit
  | _ => false

/-- The part before the first equals sign, and the part after it if there is one. -/
def splitAttached (text : List Char) : List Char × Option String :=
  match text.span (· != '=') with
  | (name, _ :: attached) => (name, some (String.ofList attached))
  | (name, []) => (name, none)

/-- An argument that looks like an option is plain all the same if it is a number or has a space. -/
def ofUnmatched (text : String) : Piece :=
  if isNegativeNumber text.toList || text.toList.contains ' ' then plain text else unknownOption

/-- What comes after the short name of help, and after repetitions of its letter, spoils it. -/
def spoilsHelp (rest : List Char) : Bool :=
  match rest.dropWhile (· == 'h') with
  | c :: _ => c == '=' || c == '-'
  | [] => false

/-- An argument is an option by its name or an abbreviation of it, which must fit only one name. -/
def ofArgument? (text : String) : Option Piece :=
  match text.toList with
  | '-' :: '-' :: _ =>
    let (name, attached) := splitAttached text.toList
    match Flag.abbreviated name with
    | [flag] => some (option flag attached)
    | [] => some (ofUnmatched text)
    | _ => none
  | '-' :: 'h' :: rest =>
    -- Other characters after the letter are left over, but help is given before they are missed.
    some (option .help (if spoilsHelp rest then some (String.ofList rest) else none))
  | '-' :: _ :: _ => some (ofUnmatched text)
  | _ => some (plain text)

/-- The pieces of a command line; after a bare double minus every argument is plain. -/
def ofArguments? : List String → Option (List Piece)
  | [] => some []
  | text :: rest =>
    if text = "--" then some (separator :: rest.map plain)
    else
      match ofArgument? text with
      | some piece => (ofArguments? rest).map (piece :: ·)
      | none => none

/-- The text of a plain argument. -/
def plainText? : Piece → Option String
  | plain text => some text
  | _ => none

end Piece

/-- What the command line asks for. -/
structure Request where
  formula : Option String := none
  x : Option Float := none
  root : Option (Float × Float) := none
  roots : Option (Float × Float) := none
  table : Option (Float × Float × Float) := none
  method : Option String := none
  showPostfix : Bool := false
  verbose : Bool := false
  leftover : Bool := false

/-- Why the reading of a command line ends early: it cannot be understood, or it asks for help. -/
inductive Halt where
  | misuse
  | help
  deriving DecidableEq

/-- What could be read is given, and what could not is misuse. -/
def Halt.unlessRead {α : Type} : Option α → Except Halt α
  | some value => .ok value
  | none => .error misuse

namespace Request

/-- An option with its arguments changes the request; a repeated option replaces the earlier one. -/
def withOption (request : Request) (flag : Flag) (values : List String) :
    Except Halt Request :=
  match flag, values with
  | .help, [] => .error .help
  | .x, [text] => do
    let x ← Halt.unlessRead (readFloat? text)
    return { request with x := some x }
  | .root, [first, second] => do
    let a ← Halt.unlessRead (readFloat? first)
    let b ← Halt.unlessRead (readFloat? second)
    return { request with root := some (a, b) }
  | .roots, [first, second] => do
    let a ← Halt.unlessRead (readFloat? first)
    let b ← Halt.unlessRead (readFloat? second)
    return { request with roots := some (a, b) }
  | .table, [first, last, number] => do
    let start ← Halt.unlessRead (readFloat? first)
    let stop ← Halt.unlessRead (readFloat? last)
    let count ← Halt.unlessRead (readFloat? number)
    return { request with table := some (start, stop, count) }
  | .method, [name] =>
    if (Method.ofName? name).isSome then .ok { request with method := some name }
    else .error .misuse
  | .showPostfix, [] => .ok { request with showPostfix := true }
  | .verbose, [] => .ok { request with verbose := true }
  | _, _ => .error .misuse

/-- A plain argument is the formula, unless there is one already. -/
def withPlain (request : Request) (text : String) : Request :=
  match request.formula with
  | none => { request with formula := some text }
  | some _ => { request with leftover := true }

/-- Reads pieces from left to right; `pending` holds an option that still waits for arguments. -/
def read (request : Request) (pending : Option (Flag × List String)) :
    List Piece → Except Halt Request
  | [] => if pending.isNone then .ok request else .error .misuse
  | piece :: rest =>
    match pending, piece with
    | some (flag, values), .plain text =>
      let values := values ++ [text]
      if values.length = flag.arity then
        match request.withOption flag values with
        | .ok next => next.read none rest
        | .error halt => .error halt
      else request.read (some (flag, values)) rest
    | some _, _ => .error .misuse
    | none, .plain text =>
      match rest with
      -- A double minus right after the formula belongs to it.
      | .separator :: later =>
        if request.formula.isNone then (request.withPlain text).read none later
        else (request.withPlain text).read none (.separator :: later)
      | later => (request.withPlain text).read none later
    | none, .option flag (some attached) =>
      -- An attached argument is the only one.
      match request.withOption flag [attached] with
      | .ok next => next.read none rest
      | .error halt => .error halt
    | none, .option flag none =>
      if flag.arity = 0 then
        match request.withOption flag [] with
        | .ok next => next.read none rest
        | .error halt => .error halt
      else request.read (some (flag, [])) rest
    | none, .unknownOption => { request with leftover := true }.read none rest
    | none, .separator =>
      match request.formula, rest with
      | none, .plain text :: later => (request.withPlain text).read none later
      | _, later => { request with leftover := true }.read none later

/-- A request that is read to its end needs one formula, and nothing may be left over. -/
def complete (request : Request) : Except Halt (String × Request) :=
  match request.formula, request.leftover with
  | some formula, false => .ok (formula, request)
  | _, _ => .error .misuse

/-- The request of a command line, with the formula that it is about. -/
def ofArguments (arguments : List String) : Except Halt (String × Request) :=
  match Piece.ofArguments? arguments with
  | none => .error .misuse
  | some pieces => do
    let request ← read {} none pieces
    request.complete

end Request

end Formula.CommandLine
