/-! Commands, their options, and the pages that explain them.

A page is set for eighty columns: options and commands stand in a column of their own, and
their explanations are wrapped beside it. -/
namespace Exemplar.CommandLine

def programName : String := "pytest-specify"

inductive Command
  | assertions | outline | run
deriving DecidableEq, Repr

/-- An option of a command. -/
inductive Switch
  | globalMode | location | help
deriving DecidableEq, Repr

/-- What a page explains. -/
inductive Page
  | program
  | command (c : Command)
deriving DecidableEq, Repr

namespace Switch

def short? : Switch → Option Char
  | globalMode => some 'g'
  | location => some 'p'
  | help => none

def long : Switch → String
  | globalMode => "--global-api"
  | location => "--pythonpath"
  | help => "--help"

def takesValue : Switch → Bool
  | location => true
  | _ => false

/-- The option as a page shows it. -/
def shown (s : Switch) : String :=
  let short := match s.short? with
    | some c => "-" ++ c.toString ++ ", "
    | none => ""
  short ++ s.long ++ if s.takesValue then " TEXT" else ""

def explanation : Switch → String
  | globalMode => "Merge the DSL verbs into the builder module namespace."
  | location => "Directory prepended to the import path; may be repeated."
  | help => "Show this message and exit."

end Switch

namespace Command

/-- The commands in the order of their names. -/
def all : List Command := [assertions, outline, run]

def name : Command → String
  | assertions => "assertions"
  | outline => "outline"
  | run => "run"

def ofName? (s : String) : Option Command := all.find? (·.name = s)

def explanation : Command → String
  | assertions => "List registered assertion verbs."
  | outline => "Print the example tree of a specification as YAML without running it."
  | run => "Run a specification with the in-process engine and report results."

def takesTarget : Command → Bool
  | assertions => false
  | _ => true

end Command

namespace Page

def switches : Page → List Switch
  | program | command .assertions => [.help]
  | command .outline => [.location, .help]
  | command .run => [.globalMode, .location, .help]

/-- The words that reach what the page explains. -/
def path : Page → String
  | program => programName
  | command c => programName ++ " " ++ c.name

def usage (p : Page) : String :=
  let operands := match p with
    | program => " COMMAND [ARGS]..."
    | command c => if c.takesTarget then " TARGET" else ""
  "Usage: " ++ p.path ++ " [OPTIONS]" ++ operands

def explanation : Page → String
  | program => "Command-line utilities for pytest-specify specifications."
  | command c => c.explanation

end Page

/-! ### Setting a page -/

def columns : Nat := 80

/-- Puts words on lines of at most `width` characters; a longer word has a line of its own. -/
def wrapWords (width : Nat) : List String → String → List String
  | [], line => if line.isEmpty then [] else [line]
  | w :: ws, line =>
    if line.isEmpty then wrapWords width ws w
    else if line.length + 1 + w.length ≤ width then wrapWords width ws (line ++ " " ++ w)
    else line :: wrapWords width ws w

def words (s : String) : List String := (s.splitOn " ").filter (!·.isEmpty)

def wrap (width : Nat) (s : String) : List String := wrapWords width (words s) ""

def spaces (n : Nat) : String := String.ofList (List.replicate n ' ')

/-- Names in a column, with their explanations wrapped in a second one. -/
def definitions (rows : List (String × String)) : List String :=
  let first := (rows.map fun r => r.1.length).foldl max 0 + 2
  rows.flatMap fun (name, explanation) =>
    match wrap (columns - first - 2) explanation with
    | [] => ["  " ++ name]
    | line :: more =>
      ("  " ++ name ++ spaces (first - name.length) ++ line) :: more.map (spaces (first + 2) ++ ·)

/-- As many words from the start as fit `limit` characters with the dots after them. -/
def fitting (limit : Nat) : List String → String → String
  | [], line => line
  | w :: ws, line =>
    let longer := if line.isEmpty then w else line ++ " " ++ w
    if longer.length + 3 ≤ limit then fitting limit ws longer else line

/-- An explanation of one sentence, cut short with dots if it is longer than `limit`. -/
def shorten (limit : Nat) (s : String) : String :=
  if s.length ≤ limit then s else fitting limit (words s) "" ++ "..."

/-- The page, line by line. -/
def Page.lines (p : Page) : List String :=
  let options := definitions (p.switches.map fun s => (s.shown, s.explanation))
  let commands := match p with
    | program =>
      let longest := (Command.all.map (·.name.length)).foldl max 0
      let short := Command.all.map fun c => (c.name, shorten (columns - 6 - longest) c.explanation)
      ["", "Commands:"] ++ definitions short
    | command _ => []
  [p.usage, "", "  " ++ p.explanation, "", "Options:"] ++ options ++ commands

def Page.text (p : Page) : String := String.join (p.lines.map (· ++ "\n"))

end Exemplar.CommandLine
