import Exemplar.CommandLine.Help
import Exemplar.CommandLine.Suggestion
import Exemplar.Text.Quoted

/-! Reading the command line.

Options may stand before, between and after the operands of a command; the program itself has
none after the name of the command. Two dashes end the options. The first thing that is wrong
is reported with the usage of what was being read, and a call for help comes before a wrong
number of operands. -/
namespace Exemplar.CommandLine

inductive UsageError
  | noSuchOption (name : String) (close : List String)
  | takesNoValue (option : String)
  | needsValue (option : String)
  | noSuchCommand (name : String) (close : List String)
  | missingCommand
  | missingTarget
  | extraOperands (operands : List String)
  | notTarget (target : String)
  | notImportable (target reason : String)
  | notSpecification (target : String)
deriving DecidableEq, Repr

namespace UsageError

/-- A question after the names that may have been meant. -/
def question : List String → String
  | [] => ""
  | [name] => " Did you mean " ++ Text.quote name ++ "?"
  | names => " (Did you mean one of: " ++ String.intercalate ", " (names.map Text.quote) ++ "?)"

def message : UsageError → String
  | noSuchOption name close => "No such option " ++ Text.quote name ++ "." ++ question close
  | takesNoValue option => "Option " ++ Text.quote option ++ " does not take a value."
  | needsValue option => "Option " ++ Text.quote option ++ " requires an argument."
  | noSuchCommand name close => "No such command " ++ Text.quote name ++ "." ++ question close
  | missingCommand => "Missing command."
  | missingTarget => "Missing argument 'TARGET'."
  | extraOperands operands =>
    let s := if operands.length = 1 then "" else "s"
    "Got unexpected extra argument" ++ s ++ " (" ++ String.intercalate " " operands ++ ")"
  | notTarget target => "Invalid value: " ++ Text.quote target ++ " is not in the form module:attribute"
  | notImportable target reason =>
    "Invalid value: Can not import " ++ Text.quote target ++ ": " ++ reason
  | notSpecification target =>
    "Invalid value: " ++ Text.quote target ++ " is neither a specification nor a builder"

end UsageError

/-- The report of a usage error. -/
def UsageError.report (p : Page) (e : UsageError) : String :=
  p.usage ++ "\n" ++ "Try '" ++ p.path ++ " --help' for help.\n\nError: " ++ e.message ++ "\n"

/-- What the arguments say. -/
structure Parsed where
  globalMode : Bool := false
  help : Bool := false
  locations : List String := []
  operands : List String := []
deriving DecidableEq

namespace Parsed

/-- Switches an option on; a value goes to the one that takes it. -/
def switch (p : Parsed) (s : Switch) (value : String) : Parsed :=
  match s with
  | .globalMode => { p with globalMode := true }
  | .help => { p with help := true }
  | .location => { p with locations := p.locations ++ [value] }

end Parsed

/-- An option that was read, and whether the next argument was its value. -/
abbrev Reading := Except UsageError (Parsed × Bool)

/-- Gives an option its value, or the next argument. -/
def giveValue (p : Parsed) (s : Switch) (name : String) (value next? : Option String) : Reading :=
  match value, next? with
  | some v, _ => .ok (p.switch s v, false)
  | none, some v => .ok (p.switch s v, true)
  | none, none => .error (.needsValue name)

/-- Reads options of one character each. What follows one that takes a value is the value. -/
def readShort (known : List Switch) (next? : Option String) : Parsed → List Char → Reading
  | p, [] => .ok (p, false)
  | p, c :: cs =>
    let name := "-" ++ c.toString
    match known.find? (·.short? = some c) with
    | none => .error (.noSuchOption name [])
    | some s =>
      if s.takesValue then
        giveValue p s name (if cs.isEmpty then none else some (String.ofList cs)) next?
      else readShort known next? (p.switch s "") cs

/-- Reads one argument that is an option. -/
def readOption (known : List Switch) (next? : Option String) (p : Parsed) (arg : String) : Reading :=
  let name := String.ofList (arg.toList.takeWhile (· ≠ '='))
  let value := if arg.contains '=' then some (String.ofList (arg.toList.drop (name.length + 1))) else none
  match known.find? (·.long = name) with
  | some s =>
    if s.takesValue then giveValue p s name value next?
    else if value.isSome then .error (.takesNoValue name)
    else .ok (p.switch s "", false)
  | none =>
    if arg.startsWith "--" then .error (.noSuchOption name (closeNames name (known.map (·.long))))
    else readShort known next? p (arg.toList.drop 1)

def isOption (arg : String) : Bool := arg.startsWith "-" && arg.length > 1

/-- Reads arguments. Without `between`, the first operand ends the options. -/
def parse (known : List Switch) (between : Bool) : Parsed → List String → Except UsageError Parsed
  | p, [] => .ok p
  | p, arg :: rest =>
    if arg = "--" then .ok { p with operands := p.operands ++ rest }
    else if isOption arg then
      match readOption known rest.head? p arg with
      | .error e => .error e
      | .ok (p, usedNext) =>
        match rest, usedNext with
        | _ :: rest, true => parse known between p rest
        | rest, _ => parse known between p rest
    else if between then parse known between { p with operands := p.operands ++ [arg] } rest
    else .ok { p with operands := p.operands ++ arg :: rest }
termination_by _ args => args.length

/-- What the program is asked to do. -/
inductive Invocation
  | help (page : Page)
  /-- Nothing at all, which is answered with the page of the program. -/
  | nothing
  | assertions
  | outline (target : String) (locations : List String)
  | run (target : String) (locations : List String) (globalMode : Bool)
deriving DecidableEq

namespace Invocation

abbrev Result := Except (Page × UsageError) Invocation

/-- Reads the arguments of a command. -/
def ofCommand (c : Command) (args : List String) : Result :=
  let page := Page.command c
  match parse page.switches true {} args with
  | .error e => .error (page, e)
  | .ok p =>
    if p.help then .ok (.help page)
    else match c, p.operands with
      | .assertions, [] => .ok .assertions
      | .assertions, extra => .error (page, .extraOperands extra)
      | _, [] => .error (page, .missingTarget)
      | .outline, [target] => .ok (.outline target p.locations)
      | .run, [target] => .ok (.run target p.locations p.globalMode)
      | _, _ :: extra => .error (page, .extraOperands extra)

/-- A name that is no command. Behind two dashes it may still be an option of the program. -/
def unknownCommand (name : String) (args : List String) : Result :=
  let close := closeNames name (Command.all.map (·.name))
  let unknown : Result := .error (.program, .noSuchCommand name close)
  if isOption name then
    match parse Page.program.switches false {} args with
    | .error e => .error (.program, e)
    | .ok p => if p.help then .ok (.help .program) else unknown
  else unknown

def ofArguments (args : List String) : Result :=
  if args.isEmpty then .ok .nothing
  else match parse Page.program.switches false {} args with
    | .error e => .error (.program, e)
    | .ok p =>
      if p.help then .ok (.help .program)
      else match p.operands with
        | [] => .error (.program, .missingCommand)
        | name :: rest =>
          match Command.ofName? name with
          | some c => ofCommand c rest
          | none => unknownCommand name (name :: rest)

end Invocation

end Exemplar.CommandLine
