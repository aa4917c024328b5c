import Formula.CommandLine.Arguments

/-! Help on the command line: a screen that shows its usage, and what its arguments are for. -/

namespace Formula.CommandLine

namespace Flag

/-- All written names of an option, a short one first. -/
def names (flag : Flag) : List String :=
  flag.shortName?.toList ++ [flag.name]

/-- An option under one of its names, with its arguments. -/
def form (flag : Flag) (name : String) : String :=
  " ".intercalate (name :: flag.placeholders)

/-- What an option is for. -/
def purpose : Flag → String
  | help => "show this help message and exit"
  | x => "Value substituted for x"
  | root => "Find a root of the expression in [A, B]"
  | roots => "Find all roots the sampling grid brackets in [A, B]"
  | table => "Tabulate the expression on NUM points between START and STOP"
  | method => "Root finding method"
  | showPostfix => "Print the postfix form of the expression"
  | verbose => "Enable debug logging"

end Flag

namespace Help

/-- The length of a line: a screen of eighty characters, less a margin of two. -/
def lineWidth : Nat :=
  78

/-- The place in a line from which on purposes are written. -/
def purposeColumn : Nat :=
  24

/-- Adds words to a line while they fit, and goes on with the next line. -/
def fillFrom (width : Nat) (line : String) : List String → List String
  | [] => [line]
  | word :: rest =>
    if line.length + 1 + word.length ≤ width then fillFrom width (line ++ " " ++ word) rest
    else line :: fillFrom width word rest

/-- Words in lines of some width; only a word that is longer stands out. -/
def fill (width : Nat) : List String → List String
  | [] => []
  | word :: rest => fillFrom width word rest

/-- Lines one below the other, all but the first from some place on. -/
def below (column : Nat) (lines : List String) : String :=
  ("\n".pushn ' ' column).intercalate lines

/-- The name under which the formula is shown. -/
def formulaName : String :=
  "expression"

/-- How a program is used: all options in brackets, and the formula on a line of its own. -/
def usage (program : String) : String :=
  let label := "usage: "
  let heading := label ++ program
  let parts := Flag.all.map fun flag =>
    "[" ++ flag.form (flag.shortName?.getD flag.name) ++ "]"
  -- A long name has its line to itself, because there is little room beside it.
  let (gap, column) :=
    if 4 * heading.length ≤ 3 * lineWidth then (" ", heading.length + 1)
    else ("\n".pushn ' ' label.length, label.length)
  heading ++ (gap ++ below column (fill (lineWidth - column) parts ++ [formulaName]))

/-- An argument with its purpose, which begins on a new line if the argument is a long one. -/
def entry (argument purpose : String) : String :=
  let lines := fill (lineWidth - purposeColumn) (purpose.splitOn " ")
  let margin := purposeColumn - 2
  if argument.length + 2 ≤ margin then
    "  " ++ argument.pushn ' ' (margin - argument.length) ++ below purposeColumn lines
  else "  " ++ below purposeColumn (argument :: lines)

/-- The entry of an option: its names with its arguments, and its purpose. -/
def optionEntry (flag : Flag) : String :=
  entry (", ".intercalate (flag.names.map flag.form)) flag.purpose

/-- The screen that is shown to who asks for help. -/
def screen (program : String) : String :=
  usage program ++ "\n\nSingle-variable expression calculator\n\npositional arguments:\n"
    ++ entry formulaName "Infix expression in x, e.g. 'x^2-4' or 'log(8,2)'"
    ++ "\n\noptions:\n" ++ "\n".intercalate (Flag.all.map optionEntry) ++ "\n"

end Help

end Formula.CommandLine
