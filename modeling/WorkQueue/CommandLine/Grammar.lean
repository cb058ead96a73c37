/-! # Commands

A command takes options, at most one argument, or subcommands; one with subcommands also has
one that prints help. The grammar of a command line is a value, and usage lines and help texts
are written from it.
-/
namespace WorkQueue.CommandLine

inductive ValueKind
  | anyText
  | count
  deriving DecidableEq, Repr

/-- The value of an option: what it is called, what it may be, and what it is otherwise. -/
structure ValueShape where
  name : String
  kind : ValueKind
  fallback : String
  deriving DecidableEq, Repr

/-- An option. One without a value is a flag. -/
structure Switch where
  name : String
  about : String
  value : Option ValueShape := none
  deriving DecidableEq, Repr

/-- An argument that is told by its place. One that may be left out may also be repeated. -/
structure Argument where
  name : String
  about : String
  required : Bool := true
  deriving DecidableEq, Repr

structure Command where
  name : String
  about : String
  switches : List Switch := []
  argument : Option Argument := none
  offersHelp : Bool := true
  subcommands : List Command := []

def Switch.text (s : Switch) : String :=
  match s.value with
  | none => s!"--{s.name}"
  | some v => s!"--{s.name} <{v.name}>"

def Argument.text (a : Argument) : String :=
  if a.required then s!"<{a.name}>" else s!"[{a.name}]..."

/-- What has been given of a command. -/
inductive Piece
  | switch (s : Switch)
  | argument
  | help
  deriving DecidableEq, Repr

namespace Command

/-- The subcommand that prints help. -/
def helper : Command :=
  { name := "help"
    about := "Print this message or the help of the given subcommand(s)"
    argument := some
      { name := "COMMAND", about := "Print help for the subcommand(s)", required := false }
    offersHelp := false }

def children (c : Command) : List Command :=
  if c.subcommands.isEmpty then [] else c.subcommands ++ [helper]

def child? (c : Command) (name : String) : Option Command :=
  c.children.find? fun d => d.name == name

def switch? (c : Command) (name : String) : Option Switch :=
  c.switches.find? fun s => s.name == name

/-- The names of all options, with the one that asks for help. -/
def longNames (c : Command) : List String :=
  c.switches.map Switch.name ++ (if c.offersHelp then ["help"] else [])

/-- The parts of a usage line, after the names of the command. -/
def usageLine (path : String) (parts : List String) (c : Command) : String :=
  let subcommand := if c.subcommands.isEmpty then [] else ["<COMMAND>"]
  " ".intercalate (path :: parts ++ subcommand)

def usage (path : String) (c : Command) : String :=
  let options := if c.switches.isEmpty then [] else ["[OPTIONS]"]
  c.usageLine path (options ++ (c.argument.map Argument.text).toList)

def alternatives (c : Command) : String :=
  "<" ++ "|".intercalate ((c.argument.map Argument.name).toList ++ c.switches.map Switch.text) ++
    ">"

def pieceText : Piece → Option String
  | .switch s => some s.text
  | .argument => none
  | .help => some "--help"

/-- How a command is used of which something has been given. What was started stands for all
that the command takes; what was only named stands for itself. -/
def usageGiven (path : String) (c : Command) (started named : List Piece) : String :=
  if started = [] ∧ named = [] then c.usage path
  else
    let begun := started.any (· != .help)
    let shown := if begun then (started ++ named).filter (· == .help) else started ++ named
    let rest := if begun then [c.alternatives] else (c.argument.map Argument.text).toList
    c.usageLine path (shown.eraseDups.filterMap pieceText ++ rest)

/-- Lines in two columns. -/
def columns (rows : List (String × String)) : String :=
  let width := (rows.map fun r => r.1.length).foldl max 0
  let line (r : String × String) : String :=
    r.1 ++ "".pushn ' ' (width - r.1.length) ++ "  " ++ r.2 ++ "\n"
  String.join (rows.map line)

def helpPart (title : String) (rows : List (String × String)) : String :=
  if rows.isEmpty then "" else "\n" ++ title ++ ":\n" ++ columns rows

def switchRow (s : Switch) : String × String :=
  let fallback := match s.value with
    | none => ""
    | some v => s!" [default: {v.fallback}]"
  ("      " ++ s.text, s.about ++ fallback)

def helpText (path : String) (c : Command) : String :=
  let help := if c.offersHelp then [("  -h, --help", "Print help")] else []
  c.about ++ "\n\nUsage: " ++ c.usage path ++ "\n" ++
    helpPart "Commands" (c.children.map fun d => ("  " ++ d.name, d.about)) ++
    helpPart "Arguments" (c.argument.map fun a => ("  " ++ a.text, a.about)).toList ++
    helpPart "Options" (c.switches.map switchRow ++ help)

end Command
end WorkQueue.CommandLine
