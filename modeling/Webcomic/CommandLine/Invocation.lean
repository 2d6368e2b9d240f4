import Webcomic.Files.Path

/-!
# Invocations

How the arguments of the command line are read. They are read from left to right, and the first one
that does not fit is reported. The value of an option can be attached to it or be the next argument;
it is looked at only when something else follows that fits, so an argument that does not fit is
reported before an option without a value.
-/

namespace Webcomic.CommandLine

open Files

/-- What is asked for. -/
inductive Command where
  /-- Move the comics that are due and write every page. -/
  | publish
  /-- Write one page to the output. -/
  | render (template : Path) (date : Option String) (strict : Bool)
  /-- List the comic days. -/
  | dates
deriving DecidableEq, Repr

/-- The configuration file that is read if none is named. -/
def defaultConfig : Path := "autonifty.yaml"

/-- A command and what goes with every command. -/
structure Invocation where
  config : Path
  verbose : Bool
  command : Command
deriving DecidableEq, Repr

/-- Why arguments are no invocation. The last three ask for a text about the program. -/
inductive Usage where
  | invalidSubcommand
  | missingSubcommand
  | unknownArgument
  | missingRequiredArgument
  | invalidValue
  /-- A value after an option that takes none. -/
  | tooManyValues
  /-- An option given twice. -/
  | argumentConflict
  | displayHelp
  | displayVersion
  | displayHelpOnMissing
deriving DecidableEq, Repr

/-! ## Options -/

/-- The options of all commands. -/
inductive Flag where
  | config
  | verbose
  | help
  | version
  | date
  | strict
deriving DecidableEq, Repr

/-- Where an argument stands: before the command, or after one. -/
inductive Level where
  | top
  | publish
  | render
  | dates
deriving DecidableEq, Repr

/-- The options that are known at a level. -/
def Level.flags : Level → List Flag
  | .top => [.config, .verbose, .help, .version]
  | .render => [.config, .verbose, .help, .date, .strict]
  | _ => [.config, .verbose, .help]

/-- The long spelling of an option. -/
def Flag.long : Flag → String
  | .config => "config"
  | .verbose => "verbose"
  | .help => "help"
  | .version => "version"
  | .date => "date"
  | .strict => "strict"

/-- The short spelling of an option. -/
def Flag.short? : Flag → Option Char
  | .config => some 'c'
  | .verbose => some 'v'
  | .help => some 'h'
  | .version => some 'V'
  | .date => some 'd'
  | .strict => none

/-- Whether an option takes a value. -/
def Flag.takesValue : Flag → Bool
  | .config | .date => true
  | _ => false

/-- The commands by their names. -/
def commandNames : List (String × Level) :=
  [("publish", .publish), ("render", .render), ("dates", .dates)]

/-- The name of the command that describes the others. -/
def helpName : String := "help"

/-- Whether a command has this name. -/
def isCommandName (name : String) : Bool :=
  (commandNames.lookup name).isSome || name = helpName

/-! ## Reading -/

/-- What takes a value that has not been looked at yet. -/
inductive Taker where
  | flag (f : Flag)
  | template
deriving DecidableEq, Repr

/-- The arguments of one level that have been read. -/
structure Reading where
  level : Level
  config : Option Path := none
  verbose : Bool := false
  date : Option String := none
  strict : Bool := false
  template : Option Path := none
  /-- A value that has not been looked at, or is still to come. -/
  pending : Option (Taker × Option String) := none
  /-- Whether everything that follows is a value. -/
  trailing : Bool := false
deriving DecidableEq, Repr

namespace Reading

/-- A path as a value, which cannot be empty. -/
def path (value : String) : Except Usage Path :=
  if value.isEmpty then .error .invalidValue else .ok value

/-- The reading with a value in its place. -/
def give (r : Reading) (taker : Taker) (value : String) : Except Usage Reading :=
  match taker with
  | .template => (path value).map fun p => { r with template := some p }
  | .flag .config =>
    if r.config.isSome then .error .argumentConflict
    else (path value).map fun p => { r with config := some p }
  | .flag .date =>
    if r.date.isSome then .error .argumentConflict else .ok { r with date := some value }
  | .flag _ => .ok r

/-- The reading after a look at the pending value. -/
def settle (r : Reading) : Except Usage Reading :=
  match r.pending with
  | none => .ok r
  | some (_, none) => .error .invalidValue
  | some (taker, some value) => { r with pending := none }.give taker value

/-- Whether the next argument is the value of an option. -/
def awaitsValue (r : Reading) : Bool :=
  match r.pending with
  | some (_, none) => true
  | _ => false

/-- An option without a value. -/
def raise (r : Reading) (f : Flag) : Except Usage Reading := do
  let r ← r.settle
  match f with
  | .help => throw .displayHelp
  | .version => throw .displayVersion
  | .verbose => if r.verbose then throw .argumentConflict else return { r with verbose := true }
  | .strict => if r.strict then throw .argumentConflict else return { r with strict := true }
  | _ => return r

/-- An option with the value attached to it, or with the next argument as its value. -/
def option (r : Reading) (f : Flag) (attached : Option String) : Except Usage Reading := do
  let r ← r.settle
  match attached with
  | some value => r.give (.flag f) value
  | none => return { r with pending := some (.flag f, none) }

/-- An option in its long spelling, after the two hyphens. -/
def long (r : Reading) (text : List Char) : Except Usage Reading :=
  let name := text.takeWhile (· ≠ '=')
  let attached :=
    if name.length < text.length then some (String.ofList (text.drop (name.length + 1))) else none
  match r.level.flags.find? (·.long.toList = name) with
  | none => .error .unknownArgument
  | some f =>
    if f.takesValue then r.option f attached
    else if attached.isSome then .error .tooManyValues
    else r.raise f

/-- Options in their short spelling, after the hyphen. The first that takes a value takes what
follows it, without an equals sign in between. -/
def short (r : Reading) : List Char → Except Usage Reading
  | [] => .ok r
  | c :: rest =>
    match r.level.flags.find? (·.short? = some c) with
    | none => .error .unknownArgument
    | some f =>
      if f.takesValue then
        let value := if rest.head? = some '=' then rest.tail else rest
        r.option f (if rest.isEmpty then none else some (String.ofList value))
      else
        match r.raise f with
        | .ok r => r.short rest
        | .error e => .error e

/-- A value that belongs to no option. -/
def value (r : Reading) (arg : String) : Except Usage Reading :=
  match r.level with
  | .top =>
    if r.trailing && isCommandName arg then .error .unknownArgument
    else .error .invalidSubcommand
  | .render => do
    let isFirst := r.template.isNone && r.pending.all (·.1 ≠ .template)
    if isFirst then
      let r ← r.settle
      return { r with pending := some (.template, some arg) }
    else
      throw .unknownArgument
  | _ => .error .unknownArgument

/-- One more argument. -/
def next (r : Reading) (arg : String) : Except Usage Reading :=
  if r.trailing then
    r.value arg
  else
    match arg.toList with
    | ['-', '-'] => .ok { r with trailing := true }
    | '-' :: '-' :: text => r.long text
    | '-' :: c :: text => r.short (c :: text)
    | _ =>
      match r.pending with
      | some (taker, none) => .ok { r with pending := some (taker, some arg) }
      | _ => r.value arg

end Reading

/-! ## Whole invocations -/

/-- The help on a command, if the arguments after `help` name one at most. -/
def helpOn (args : List String) : Usage :=
  match args with
  | [] => .displayHelp
  | [name] =>
    if isCommandName name then .displayHelp
    else .invalidSubcommand
  | _ => .invalidSubcommand

/-- The command of a level, if all that it needs has been read. -/
def Reading.command (r : Reading) : Except Usage Command :=
  match r.level with
  | .publish => .ok .publish
  | .dates => .ok .dates
  | .render =>
    match r.template with
    | some template => .ok (.render template r.date r.strict)
    | none => .error .missingRequiredArgument
  | .top => .error .missingSubcommand

/-- The command with its arguments. What is given after the command wins over what is given before
it, and is looked at first. -/
def commandOf (before : Reading) (level : Level) (args : List String) : Except Usage Invocation := do
  let r ← args.foldlM Reading.next ({ level } : Reading)
  let r ← r.settle
  let command ← r.command
  let before ← before.settle
  return {
    config := (r.config.or before.config).getD defaultConfig
    verbose := r.verbose || before.verbose
    command }

/-- The arguments from here on, if a command can still come. -/
def topOf (r : Reading) : List String → Except Usage Invocation
  | [] => do
    let r ← r.settle
    if r.config.isNone && !r.verbose then throw .displayHelpOnMissing
    else throw .missingSubcommand
  | arg :: rest =>
    let named := if r.trailing || r.awaitsValue then none else commandNames.lookup arg
    match named with
    | some level => commandOf r level rest
    | none =>
      if arg = helpName && !r.trailing && !r.awaitsValue then
        .error (helpOn rest)
      else
        match r.next arg with
        | .ok r => topOf r rest
        | .error e => .error e

/-- The invocation that arguments are. -/
def Invocation.ofArguments (args : List String) : Except Usage Invocation :=
  topOf { level := .top } args

end Webcomic.CommandLine
