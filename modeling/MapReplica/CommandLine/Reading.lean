import MapReplica.CommandLine.Grammar

/-!
# Reading command lines

Words are read from left to right. A word with two hyphens is a long name, perhaps with
a value behind an equals sign; a word with one hyphen is a row of letters, the last of
which may have its value right behind it. An argument without such a value takes the
words that follow, and its use ends at the next argument or at the end. Only there its
values are checked. Behind a word of two hyphens alone nothing counts as an argument.
-/

namespace MapReplica.CommandLine

/-- The arguments that were used, with their values. -/
abbrev Given := List (String × List String)

namespace Given

/-- Whether an argument was used. -/
def has (given : Given) (name : String) : Bool :=
  given.any (·.1 == name)

/-- The values of an argument. -/
def values (given : Given) (name : String) : List String :=
  (given.filter (·.1 == name)).flatMap (·.2)

/-- The value of an argument. -/
def value? (given : Given) (name : String) : Option String :=
  (given.values name).head?

/-- The value of an argument that takes numbers. -/
def number? (given : Given) (name : String) : Option Nat :=
  (given.value? name).bind fun value => (Number.read Number.max64 value.toList).toOption

end Given

/-- The values that a word holds. -/
def Argument.split (argument : Argument) (word : String) : List String :=
  match argument.separator with
  | none => [word]
  | some mark => (word.toList.splitOn mark).map String.ofList

/-- Takes down a use of an argument with the words of its values. -/
def Given.record (given : Given) (argument : Argument) (words : List String) : Except Problem Given :=
  let values := words.flatMap argument.split
  match argument.kind with
  | .help => .error .helpWanted
  | .version => .error .versionWanted
  | kind => do
      if !argument.isRepeatable && given.has argument.name then throw .usedTwice
      values.forM fun value => kind.check value
      return given ++ [(argument.name, values)]

/-- How far a command line was read. -/
structure Reading where
  given : Given := []
  /-- The argument whose use has not ended, and its words so far, the last one first. -/
  pending : Option (Argument × List String) := none
  deriving Repr

namespace Reading

variable (reading : Reading)

/-- Whether the next word is a value unless it looks like an argument. -/
def isAwaiting : Bool :=
  reading.pending.any fun (argument, words) => argument.isRepeatable || words.isEmpty

/-- Ends the use of the pending argument. -/
def settle : Except Problem Given :=
  match reading.pending with
  | none => .ok reading.given
  | some (argument, words) =>
      if words.length < argument.least then .error .valueInvalid
      else reading.given.record argument words.reverse

/-- Reads a use of an argument that is complete. -/
def use (argument : Argument) (words : List String) : Except Problem Reading := do
  let given ← reading.settle
  return { given := ← given.record argument words }

/-- Reads an argument whose values follow. -/
def await (argument : Argument) : Except Problem Reading := do
  return { given := ← reading.settle, pending := some (argument, []) }

/-- Reads a word as a value of the pending argument. -/
def push (word : String) : Reading :=
  { reading with pending := reading.pending.map fun (argument, words) => (argument, word :: words) }

end Reading

/-- Reads a long name, perhaps with a value. -/
def readName (arguments : List Argument) (reading : Reading) (text : List Char) : Except Problem Reading :=
  let name := text.takeWhile (· != '=')
  let value := text.drop name.length
  match arguments.find? fun argument => argument.name.toList = name with
  | none => .error .argumentUnknown
  | some argument =>
      match argument.kind.takesValues, value with
      | true, [] => reading.await argument
      | true, _ :: value => reading.use argument [String.ofList value]
      | false, [] => reading.use argument []
      | false, _ :: _ => .error .valueUnwanted

/-- Reads a row of letters, perhaps with a value behind the last one. -/
def readLetters (arguments : List Argument) (reading : Reading) : List Char → Except Problem Reading
  | [] => .ok reading
  | letter :: rest =>
      match arguments.find? fun argument => argument.letter = some letter with
      | none => .error .argumentUnknown
      | some argument =>
          if argument.kind.takesValues then
            match rest with
            | [] => reading.await argument
            | '=' :: value => reading.use argument [String.ofList value]
            | value => reading.use argument [String.ofList value]
          else do
            let reading ← reading.use argument []
            readLetters arguments reading rest

/-- Where reading words ended: at the end, or at a command with the words behind it. -/
inductive Stop where
  | atEnd
  | atCommand (name : String) (rest : List String)

/-- The problem of a word that is neither an argument nor a value. -/
def strayWord (commands : List String) : Problem :=
  if commands.isEmpty then .argumentUnknown else .commandUnknown

/-- The problem of the words behind two hyphens, if there are any. -/
def trailing (commands : List String) : List String → Option Problem
  | [] => none
  | word :: _ => some (if commands.contains word then .argumentUnknown else strayWord commands)

/-- Reads words up to a command. -/
def readWords (arguments : List Argument) (commands : List String) (reading : Reading) :
    List String → Except Problem (Given × Stop)
  | [] => do return (← reading.settle, .atEnd)
  | word :: rest =>
      if !reading.isAwaiting && commands.contains word then do
        return (← reading.settle, .atCommand word rest)
      else
        match word.toList with
        | ['-', '-'] =>
            match trailing commands rest with
            | some problem => .error problem
            | none => do return (← reading.settle, .atEnd)
        | '-' :: '-' :: name => do
            readWords arguments commands (← readName arguments reading name) rest
        | '-' :: letter :: letters => do
            readWords arguments commands (← readLetters arguments reading (letter :: letters)) rest
        | _ =>
            if reading.isAwaiting then readWords arguments commands (reading.push word) rest
            else .error (strayWord commands)

/-- The value of an argument that was not used, from the environment. -/
def fromEnvironment (environment : Environment) (given : Given) (argument : Argument) :
    Except Problem Given :=
  match argument.variableName.bind environment.value? with
  | some value => if given.has argument.name then .ok given else given.record argument [value]
  | none => .ok given

/-- The fallback of an argument that was not used. -/
def withFallback (given : Given) (argument : Argument) : Given :=
  match argument.fallback with
  | some value => if given.has argument.name then given else given ++ [(argument.name, [value])]
  | none => given

/-- The values of arguments that were not used; the required ones have to be there then. -/
def complete (environment : Environment) (arguments : List Argument) (given : Given) :
    Except Problem Given := do
  let given ← arguments.foldlM (fromEnvironment environment) given
  let given := arguments.foldl withFallback given
  if arguments.all fun argument => !argument.isRequired || given.has argument.name then
    return given
  else throw .argumentMissing

/-- A command with its arguments. -/
structure Invocation where
  command : Command
  given : Given
  deriving Repr

/-- The problem of a wish for help on commands. -/
def helpProblem (program : Program) : List String → Problem
  | [] => .helpWanted
  | [name] => if name = helpCommand ∨ (program.command? name).isSome then .helpWanted else .commandUnknown
  | _ => .commandUnknown

/-- Reads a command line. -/
def Program.read (program : Program) (environment : Environment) (words : List String) :
    Except Problem Invocation := do
  let commands := helpCommand :: program.commands.map Command.name
  match ← readWords program.outerArguments commands {} words with
  | (outer, .atEnd) => throw (if outer.isEmpty then .nothingGiven else .commandMissing)
  | (outer, .atCommand name rest) =>
      match program.command? name with
      | none => throw (helpProblem program rest)
      | some command =>
          let arguments := program.innerArguments command
          let (inner, _) ← readWords arguments [] {} rest
          return ⟨command, outer ++ (← complete environment arguments inner)⟩

end MapReplica.CommandLine
