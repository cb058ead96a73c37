/-! # Refused command lines

A command line that cannot be read is answered with a complaint, tips where something close to
it would have been right, and how the command is used.
-/
namespace WorkQueue.CommandLine

inductive Complaint
  | unrecognized (word : String)
  | unexpected (word : String)
  | valueMissing (option : String)
  | valueInvalid (value option reason : String)
  | valueSurplus (value option : String)
  | repeated (option : String)
  | subcommandMissing (path : String) (names : List String)
  | argumentMissing (argument : String)
  deriving DecidableEq, Repr

inductive Tip
  | similarSubcommands (names : List String)
  | similarOption (name : String)
  | optionOf (subcommand option : String)
  | afterDashes (word : String)
  | withoutDashes (subcommand : String)
  deriving DecidableEq, Repr

structure Refusal where
  complaint : Complaint
  tips : List Tip := []
  usage : Option String := none
  offersHelp : Bool := true
  deriving DecidableEq, Repr

def Complaint.message : Complaint → String
  | .unrecognized word => s!"unrecognized subcommand '{word}'"
  | .unexpected word => s!"unexpected argument '{word}' found"
  | .valueMissing option => s!"a value is required for '{option}' but none was supplied"
  | .valueInvalid value option reason => s!"invalid value '{value}' for '{option}': {reason}"
  | .valueSurplus value option =>
    s!"unexpected value '{value}' for '{option}' found; no more were accepted"
  | .repeated option => s!"the argument '{option}' cannot be used multiple times"
  | .subcommandMissing path names =>
    s!"'{path}' requires a subcommand but one was not provided\n  [subcommands: " ++
      ", ".intercalate names ++ "]"
  | .argumentMissing argument =>
    s!"the following required arguments were not provided:\n  {argument}"

def quote (word : String) : String := "'" ++ word ++ "'"

def Tip.message : Tip → String
  | .similarSubcommands [name] => "a similar subcommand exists: " ++ quote name
  | .similarSubcommands names =>
    "some similar subcommands exist: " ++ ", ".intercalate (names.map quote)
  | .similarOption name => s!"a similar argument exists: '--{name}'"
  | .optionOf subcommand option => s!"'{subcommand} --{option}' exists"
  | .afterDashes word => s!"to pass '{word}' as a value, use '-- {word}'"
  | .withoutDashes subcommand =>
    s!"subcommand '{subcommand}' exists; to use it, remove the '--' before it"

def Refusal.message (r : Refusal) : String :=
  let tips := match r.tips with
    | [] => ""
    | tips => "\n" ++ String.join (tips.map fun t => "\n  tip: " ++ t.message)
  let usage := match r.usage with
    | none => ""
    | some line => "\n\nUsage: " ++ line
  let help := if r.offersHelp then "\n\nFor more information, try '--help'." else ""
  "error: " ++ r.complaint.message ++ tips ++ usage ++ help ++ "\n"

end WorkQueue.CommandLine
