import WorkQueue.CommandLine.Grammar
import WorkQueue.CommandLine.Refusal
import WorkQueue.Text.Decimal
import WorkQueue.Text.Similarity

/-! # Reading a command line

Words are read from the left. A word that names a subcommand hands the rest of the line over
to it. What was given last is settled only when something follows it or the line ends, so a
word that cannot be read at all is reported before a value that does not fit. After two
hyphens alone every word is an argument.
-/
namespace WorkQueue.CommandLine

/-- What was given of one command. -/
structure Level where
  name : String
  values : List (String × String)
  deriving DecidableEq, Repr

/-- How the reading of a command line ends without a command to run. -/
inductive Ending
  /-- Help was asked for. -/
  | help (text : String)
  /-- Help is shown because nothing was given. -/
  | nothingGiven (text : String)
  | refused (refusal : Refusal)
  deriving DecidableEq, Repr

/-- What was given last and is not settled. -/
inductive Pending
  | switch (s : Switch) (shape : ValueShape) (value : Option String)
  | argument (a : Argument) (value : String)
  deriving DecidableEq, Repr

/-- What is known of the command that is read. -/
structure Scan where
  path : String
  command : Command
  started : List Piece := []
  values : List (String × String) := []
  pending : Option Pending := none
  argumentGiven : Bool := false
  trailing : Bool := false

namespace Scan

def refuse (s : Scan) (complaint : Complaint) (tips : List Tip) (usage : String) : Ending :=
  .refused { complaint := complaint, tips := tips, usage := some usage
             offersHelp := s.command.offersHelp }

/-- A refusal of a value, which does not show how the command is used. -/
def refuseValue (s : Scan) (complaint : Complaint) : Ending :=
  .refused { complaint := complaint, offersHelp := s.command.offersHelp }

def usage (s : Scan) : String := s.command.usage s.path

def help (s : Scan) : Ending := .help (s.command.helpText s.path)

def misfit (shape : ValueShape) (value : String) : Option String :=
  match shape.kind with
  | .anyText => none
  | .count =>
    match Text.natural Text.limit64 value with
    | .ok _ => none
    | .error fault => some fault.message

def take (s : Scan) (switch : Switch) (shape : ValueShape) (value : String) :
    Scan × Option Ending :=
  if s.started.contains (.switch switch) then
    (s, some (s.refuse (.repeated switch.text) [] s.usage))
  else
    let s := { s with started := s.started ++ [.switch switch] }
    match misfit shape value with
    | some reason => (s, some (s.refuseValue (.valueInvalid value switch.text reason)))
    | none => ({ s with values := s.values ++ [(switch.name, value)] }, none)

def settle (s : Scan) : Scan × Option Ending :=
  let rest := { s with pending := none }
  match s.pending with
  | none => (s, none)
  | some (.argument a value) =>
    ({ rest with started := s.started ++ [.argument], values := s.values ++ [(a.name, value)] },
      none)
  | some (.switch switch shape (some value)) => rest.take switch shape value
  | some (.switch switch _ none) => (rest, some (s.refuseValue (.valueMissing switch.text)))

/-- Settles what was given last, and goes on if it fits. -/
def settled (s : Scan) (next : Scan → Except Ending Scan) : Except Ending Scan :=
  match s.settle with
  | (_, some ending) => .error ending
  | (s, none) => next s

def takeFlag (s : Scan) (switch : Switch) : Except Ending Scan :=
  s.settled fun s =>
    if s.started.contains (.switch switch) then
      .error (s.refuse (.repeated switch.text) [] s.usage)
    else
      .ok { s with
        started := s.started ++ [.switch switch]
        values := s.values ++ [(switch.name, "true")] }

/-- An option of a subcommand that is named further on, closest to a name: where the
subcommand is named, and its own name with that of the option. -/
def optionBelow (s : Scan) (name : String) (rest : List String) :
    Option (Nat × String × String) :=
  let found := s.command.children.filterMap fun d =>
    match (Text.similarWords name d.longNames).getLast?, rest.idxOf? d.name with
    | some option, some index => some (index, d.name, option)
    | _, _ => none
  found.foldl (fun best f => match best with
    | none => some f
    | some b => if f.1 < b.1 then some f else some b) none

def pieceOf (s : Scan) (name : String) : Piece :=
  match s.command.switch? name with
  | some switch => .switch switch
  | none => .help

def refuseOption (s : Scan) (name : String) (rest : List String) : Ending :=
  let s := s.settle.1
  let word := "--" ++ name
  let usageAfter (started : List Piece) : String := s.command.usageGiven s.path started []
  match (Text.similarWords name s.command.longNames).getLast? with
  | some near =>
    s.refuse (.unexpected word) [.similarOption near] (usageAfter (s.started ++ [s.pieceOf near]))
  | none =>
    let tips : List Tip := match s.optionBelow name rest with
      | some (_, subcommand, option) => [.optionOf subcommand option]
      | none => if s.command.argument.isSome then [.afterDashes word] else []
    s.refuse (.unexpected word) tips (usageAfter s.started)

def refuseSurplus (s : Scan) (piece : Piece) (option value : String) : Ending :=
  s.refuse (.valueSurplus value option) [] (s.command.usageGiven s.path s.started [piece])

/-- Reads an option by its name, with the value that was attached to it. -/
def long (s : Scan) (name : String) (value : Option String) (rest : List String) :
    Except Ending Scan :=
  if name = "help" && s.command.offersHelp then
    match value with
    | some v => .error (s.refuseSurplus .help "--help" v)
    | none => s.settled fun s => .error s.help
  else
    match s.command.switch? name with
    | none => .error (s.refuseOption name rest)
    | some switch =>
      match switch.value, value with
      | none, none => s.takeFlag switch
      | none, some v => .error (s.refuseSurplus (.switch switch) switch.text v)
      | some shape, none =>
        s.settled fun s => .ok { s with pending := some (.switch switch shape none) }
      | some shape, some v =>
        s.settled fun s =>
          match s.take switch shape v with
          | (_, some ending) => .error ending
          | (s, none) => .ok s

/-- Reads letters after one hyphen. Only the letter that asks for help is known. -/
def short (s : Scan) (letter : Char) : Except Ending Scan :=
  if letter = 'h' && s.command.offersHelp then s.settled fun s => .error s.help
  else
    let s := s.settle.1
    let word := String.ofList ['-', letter]
    let tips : List Tip := if s.command.argument.isSome then [.afterDashes word] else []
    .error (s.refuse (.unexpected word) tips s.usage)

def refuseWord (s : Scan) (word : String) : Ending :=
  let near := Text.similarWords word (s.command.children.map Command.name)
  if s.trailing && (s.command.child? word).isSome then
    s.refuse (.unexpected word) [.withoutDashes word] s.usage
  else if s.command.subcommands.isEmpty then s.refuse (.unexpected word) [] s.usage
  else
    s.refuse (.unrecognized word) (if near.isEmpty then [] else [.similarSubcommands near]) s.usage

def word (s : Scan) (word : String) : Except Ending Scan :=
  match s.command.argument, s.argumentGiven with
  | some a, false =>
    s.settled fun s =>
      .ok { s with pending := some (.argument a word), argumentGiven := true }
  | _, _ => .error (s.refuseWord word)

/-- Whether an option waits for its value. -/
def isAwaiting (s : Scan) : Bool :=
  match s.pending with
  | some (.switch _ _ none) => true
  | _ => false

/-- Reads a word that names no subcommand. -/
def step (s : Scan) (w : String) (rest : List String) : Except Ending Scan :=
  if s.trailing then s.word w
  else
    match w.toList, s.pending with
    | ['-', '-'], _ => .ok { s with trailing := true }
    | '-' :: '-' :: cs, _ =>
      let name := cs.takeWhile (· != '=')
      let value := match cs.drop name.length with
        | [] => none
        | _ :: after => some (String.ofList after)
      s.long (String.ofList name) value rest
    | '-' :: letter :: _, _ => s.short letter
    | _, some (.switch switch shape none) =>
      .ok { s with pending := some (.switch switch shape (some w)) }
    | _, _ => s.word w

def subcommand? (s : Scan) (w : String) : Option Command :=
  if s.trailing || s.isAwaiting then none else s.command.child? w

def enter (s : Scan) (c : Command) : Scan := { path := s.path ++ " " ++ c.name, command := c }

def helpFor (s : Scan) : List String → Ending
  | [] => s.help
  | w :: rest =>
    match s.command.child? w with
    | some c => helpFor (s.enter c) rest
    | none => s.refuse (.unrecognized w) [] s.usage

def level (s : Scan) : Level := ⟨s.command.name, s.values⟩

def close (s : Scan) (below : List Level) : Except Ending (List Level) :=
  match s.settle with
  | (_, some ending) => .error ending
  | (s, none) => .ok (s.level :: below)

def finish (s : Scan) : Except Ending (List Level) :=
  match s.settle with
  | (_, some ending) => .error ending
  | (s, none) =>
    let c := s.command
    if !c.subcommands.isEmpty then
      if s.started.isEmpty then .error (.nothingGiven (c.helpText s.path))
      else
        .error (s.refuse (.subcommandMissing s.path (c.children.map Command.name)) [] s.usage)
    else
      match c.argument.filter fun a => a.required && !s.argumentGiven with
      | some a =>
        let given := s.started.filterMap Command.pieceText
        .error (s.refuse (.argumentMissing a.text) [] (c.usageLine s.path (given ++ [a.text])))
      | none => .ok [s.level]

def read (s : Scan) : List String → Except Ending (List Level)
  | [] => s.finish
  | w :: rest =>
    match s.subcommand? w with
    | some c =>
      if c.name == Command.helper.name then .error (s.helpFor rest)
      else
        match read (s.enter c) rest with
        | .error ending => .error ending
        | .ok below => s.close below
    | none =>
      match s.step w rest with
      | .error ending => .error ending
      | .ok s => read s rest

end Scan

def read (program : Command) (words : List String) : Except Ending (List Level) :=
  Scan.read { path := program.name, command := program } words

end WorkQueue.CommandLine
