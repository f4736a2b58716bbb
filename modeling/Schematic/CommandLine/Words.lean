import Schematic.CommandLine.Argument

/-!
# Reading command lines

Words are read from left to right. An argument whose value may still come is held back; it is
accepted when the next argument is, or at the end of its level. So a fault in a value shows up
after faults in the words that directly follow it. The words after a command are read to their
end before what is held back in front of it is accepted.
-/

namespace Schematic

/-- An argument that was given, with its value if it takes one. -/
structure Given where
  argument : Argument
  value : Option String
deriving DecidableEq, Inhabited

/-- How far the reading of a level has come. -/
structure Progress where
  accepted : List Given := []
  held : Option Given := none
deriving DecidableEq, Inhabited

/-- The outcome of reading a part of a command line. -/
abbrev Usage (α : Type) := Except UsageFault α

namespace Progress

def has (p : Progress) (a : Argument) : Bool := p.accepted.any (·.argument == a)

/-- The last value of an argument. -/
def value? (p : Progress) (a : Argument) : Option String :=
  (p.accepted.filter (·.argument == a)).getLast?.bind Given.value

/-- All values of an argument. -/
def values (p : Progress) (a : Argument) : List String :=
  (p.accepted.filter (·.argument == a)).filterMap Given.value

/-- Accepts an argument when nothing is held back. -/
def add (p : Progress) (g : Given) : Usage Progress :=
  if g.argument.takesValue ∧ g.value = none then .error .badValue
  else if g.argument = .help then .error .help
  else if g.argument = .version then .error .version
  else if p.has g.argument ∧ g.argument.isRepeatable = false then .error .conflict
  else if g.value.any (!g.argument.accepts ·) then .error .badValue
  else .ok { p with accepted := p.accepted ++ [g] }

/-- Accepts what is held back. -/
def settle (p : Progress) : Usage Progress :=
  match p.held with
  | none => .ok p
  | some g => add { p with held := none } g

/-- Accepts an argument. -/
def accept (p : Progress) (g : Given) : Usage Progress :=
  p.settle.bind (·.add g)

/-- Holds an argument back. -/
def hold (p : Progress) (g : Given) : Usage Progress :=
  p.settle.map fun p => { p with held := some g }

/-- The next word is a value, unless it looks like an argument. -/
def awaitsValue (p : Progress) : Bool :=
  match p.held with
  | some g => g.value.isNone
  | none => false

/-- Gives a value to the argument that is held back. -/
def fill (p : Progress) (value : String) : Progress :=
  { p with held := p.held.map fun g => { g with value := some value } }

/-- A design has been given. -/
def hasDesign (p : Progress) : Bool :=
  p.has .design || p.held.any (·.argument == .design)

end Progress

/-- Commands by name. The help command stands for none. -/
def commandNamed? (word : String) : Option (Option CommandLevel) :=
  if word = "compile" then some (some .compile)
  else if word = "inspect" then some (some .inspect)
  else if word = "help" then some none
  else none

namespace CommandLevel

/-- A word with two dashes in front, taken off. -/
def takeLong (level : CommandLevel) (p : Progress) (word : List Char) : Usage Progress :=
  let name := String.ofList (word.takeWhile (· ≠ '='))
  let value := match word.dropWhile (· ≠ '=') with
    | _ :: rest => some (String.ofList rest)
    | [] => none
  match level.long? name with
  | none => .error .unknownArgument
  | some a =>
    match a.takesValue, value with
    | true, some value => p.accept ⟨a, some value⟩
    | true, none => p.hold ⟨a, none⟩
    | false, some _ => .error .surplusValue
    | false, none => p.accept ⟨a, none⟩

/-- The letters after one dash: flags, and at the end perhaps an option with its value. -/
def takeLetters (level : CommandLevel) (p : Progress) : List Char → Usage Progress
  | [] => .ok p
  | c :: rest =>
    match level.short? c with
    | none => .error .unknownArgument
    | some a =>
      if a.takesValue then
        match rest with
        | [] => p.hold ⟨a, none⟩
        | '=' :: value => p.accept ⟨a, some (String.ofList value)⟩
        | value => p.accept ⟨a, some (String.ofList value)⟩
      else
        match p.accept ⟨a, none⟩ with
        | .error e => .error e
        | .ok p => takeLetters level p rest

/-- A word that is no argument by its look. `plain` says that it follows two dashes. -/
def takePlain (level : CommandLevel) (plain : Bool) (p : Progress) (word : String) :
    Usage Progress :=
  match level with
  | .top =>
    if plain ∧ (commandNamed? word).isSome then .error .unknownArgument else .error .unknownCommand
  | _ => if p.hasDesign then .error .unknownArgument else p.hold ⟨.design, some word⟩

/-- One word that is neither a command nor two dashes. -/
def takeWord (level : CommandLevel) (p : Progress) (word : String) : Usage Progress :=
  match word.toList with
  | '-' :: '-' :: name => level.takeLong p name
  | '-' :: c :: letters => level.takeLetters p (c :: letters)
  | _ => if p.awaitsValue then .ok (p.fill word) else level.takePlain false p word

/-- The words after two dashes. -/
def takePlainWords (level : CommandLevel) (p : Progress) : List String → Usage Progress
  | [] => .ok p
  | word :: rest =>
    match level.takePlain true p word with
    | .error e => .error e
    | .ok p => takePlainWords level p rest

end CommandLevel

/-- What was read at a level: its arguments, and in front of a command that command and the
words after it. -/
structure Stop where
  progress : Progress
  command : Option (Option CommandLevel × List String) := none
deriving DecidableEq, Inhabited

/-- Reads the words of a level. -/
def CommandLevel.readWords (level : CommandLevel) (p : Progress) : List String → Usage Stop
  | [] => .ok { progress := p }
  | word :: rest =>
    match if level = .top ∧ p.awaitsValue = false then commandNamed? word else none with
    | some command => .ok { progress := p, command := some (command, rest) }
    | none =>
      if word = "--" then (level.takePlainWords p rest).map fun p => { progress := p }
      else
        match level.takeWord p word with
        | .error e => .error e
        | .ok p => readWords level p rest

/-- What the words after the help command lead to: they have to be the name of a command. -/
def helpFault (words : List String) : UsageFault :=
  match words with
  | [] => .help
  | [word] => if (commandNamed? word).isSome then .help else .unknownCommand
  | _ => .unknownCommand

/-- The arguments after a command, read to the end. -/
def CommandLevel.readCommand (level : CommandLevel) (words : List String) : Usage Progress := do
  let stop ← level.readWords {} words
  let p ← stop.progress.settle
  if p.has .boardRules && p.has .noBoardRules then .error .conflict else .ok p

/-- The command with its arguments. -/
def CommandLevel.command (level : CommandLevel) (p : Progress) : Command :=
  match level with
  | .inspect => .inspect { design := p.value? .design, board := p.value? .board }
  | _ => .compile
    { design := p.value? .design
      targets := p.values .target
      board := p.value? .board
      boardRules := p.has .boardRules
      noBoardRules := p.has .noBoardRules
      outDir := p.value? .outDir
      toStdout := p.has .stdout }

namespace CommandLine

/-- A command line from the arguments before and after the command. Of two values the one after the
command counts. -/
def ofProgress (level : CommandLevel) (before after : Progress) : CommandLine where
  quiet := before.has .quiet || after.has .quiet
  verbose := before.has .verbose || after.has .verbose
  logLevel := (((after.value? .logLevel).or (before.value? .logLevel)).bind
    Log.Threshold.ofName?).getD (.upTo .warn)
  config := (after.value? .config).or (before.value? .config)
  command := level.command after

/-- Reads a command line. -/
def ofWords (words : List String) : Usage CommandLine := do
  let stop ← CommandLevel.top.readWords {} words
  match stop.command with
  | none =>
    let p ← stop.progress.settle
    .error (if p.accepted.isEmpty then .nothingGiven else .missingCommand)
  | some (none, rest) => .error (helpFault rest)
  | some (some level, rest) =>
    let after ← level.readCommand rest
    let before ← stop.progress.settle
    return ofProgress level before after

end CommandLine

end Schematic
