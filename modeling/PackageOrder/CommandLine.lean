/-
PackageOrder.CommandLine — the options of a run as arguments of a command.

A flag has a long name behind two hyphens and perhaps a letter behind one; its
value follows as the next argument, behind an equals sign, or right behind the
letter. A flag that takes several values goes on to take arguments until
another flag comes. All other flags may be given only once.

A value stays open until the next flag or the end, so an argument that belongs
nowhere is reported before a value that is missing.
-/
import PackageOrder.Options

namespace PackageOrder

open PackageOrder.Text

/-- The flags of the command. -/
inductive Flag where
  | source
  | properties
  | target
  | firstOnly
  | tsConfig
  | strict
  | ignoreManifest
  | noWorkers
  | logLevel
  | help
  | version
deriving Repr, DecidableEq

namespace Flag

/-- The flags. -/
def all : List Flag :=
  [source, properties, target, firstOnly, tsConfig, strict, ignoreManifest, noWorkers, logLevel,
    help, version]

/-- The long name of a flag. -/
def name : Flag → String
  | source => "source"
  | properties => "properties"
  | target => "target"
  | firstOnly => "first-only"
  | tsConfig => "tsconfig"
  | strict => "error-on-failed-entry-point"
  | ignoreManifest => "invalidate-entry-point-manifest"
  | noWorkers => "no-async"
  | logLevel => "loglevel"
  | help => "help"
  | version => "version"

/-- The letter of a flag. -/
def letter? : Flag → Option Char
  | source => some 's'
  | properties => some 'p'
  | target => some 't'
  | logLevel => some 'l'
  | help => some 'h'
  | version => some 'V'
  | _ => none

/-- Whether a flag has a value. -/
def takesValue : Flag → Bool
  | source | properties | target | tsConfig | logLevel => true
  | _ => false

/-- Whether a flag may have several values and be given several times. -/
def takesMany : Flag → Bool
  | properties => true
  | _ => false

end Flag

/-- Why arguments are not taken. -/
inductive UsageError where
  | unknownArgument
  | missingValue
  | unwantedValue
  | repeatedFlag
  | helpWanted
  | versionWanted
deriving Repr, DecidableEq

/-- The flags that were given, with their values. -/
abbrev Given := List (Flag × List String)

namespace Given

/-- The flags with one more. -/
def record (given : Given) (flag : Flag) (values : List String) : Except UsageError Given :=
  if flag = .help then .error .helpWanted
  else if flag = .version then .error .versionWanted
  else if flag.takesValue && values.isEmpty then .error .missingValue
  else if !flag.takesMany && (given.lookup flag).isSome then .error .repeatedFlag
  else .ok (given ++ [(flag, values)])

/-- The flags with the one that is still open. -/
def close (given : Given) : Option (Flag × List String) → Except UsageError Given
  | none => .ok given
  | some (flag, values) => given.record flag values

/-- Whether a flag was given. -/
def has (given : Given) (flag : Flag) : Bool :=
  (given.lookup flag).isSome

/-- The value of a flag. -/
def value? (given : Given) (flag : Flag) : Option String :=
  (given.lookup flag).bind List.head?

/-- All values of a flag, if it was given. -/
def values? (given : Given) (flag : Flag) : Option (List String) :=
  if given.has flag then some ((given.filter (·.1 = flag)).flatMap (·.2)) else none

end Given

/-- An argument by its form. -/
inductive ArgumentForm where
  /-- What ends the flags. -/
  | separator
  | flag (flag : Flag) (attached : Option String)
  | unknownFlag
  | plain

/-- The form of an argument. -/
def argumentForm (argument : String) : ArgumentForm :=
  match argument.toList with
  | ['-', '-'] => .separator
  | '-' :: '-' :: rest =>
    let (name, attached) :=
      match cutAt? '=' rest with
      | some (name, value) => (name, some (String.ofList value))
      | none => (rest, none)
    match Flag.all.find? (·.name == .ofList name) with
    | some flag => .flag flag attached
    | none => .unknownFlag
  | '-' :: letter :: rest =>
    match Flag.all.find? (·.letter? == some letter) with
    | none => .unknownFlag
    | some flag =>
      if !flag.takesValue then .flag flag none
      else
        match rest with
        | [] => .flag flag none
        | '=' :: value => .flag flag (some (.ofList value))
        | value => .flag flag (some (.ofList value))
  | _ => .plain

/-- The flags in arguments, after those found so far and the one still open. -/
def readArguments (given : Given) (stillOpen : Option (Flag × List String)) :
    List String → Except UsageError Given
  | [] => given.close stillOpen
  | argument :: rest =>
    match argumentForm argument with
    | .separator => if rest.isEmpty then given.close stillOpen else .error .unknownArgument
    | .unknownFlag => .error .unknownArgument
    | .plain =>
      match stillOpen with
      | some (flag, values) =>
        if flag.takesMany || values.isEmpty then
          readArguments given (some (flag, values ++ [argument])) rest
        else .error .unknownArgument
      | none => .error .unknownArgument
    | .flag flag attached =>
      if !flag.takesValue && attached.isSome then .error .unwantedValue
      else do
        let given ← given.close stillOpen
        match attached with
        | some value => readArguments (← given.record flag [value]) none rest
        | none =>
          if flag.takesValue then readArguments given (some (flag, [])) rest
          else readArguments (← given.record flag []) none rest

/-- The setting of the project file. -/
def Given.tsConfig (given : Given) : TsConfigSetting :=
  match given.value? .tsConfig with
  | none => .inferred
  | some "none" => .disabled
  | some path => .path path

/-- The options that flags stand for, or which property there is not. -/
def Given.options (given : Given) : Except String Options := do
  let properties ← ((given.values? .properties).mapM (·.mapM FormatProperty.ofName))
  return {
    basePath := (given.value? .source).getD "./node_modules"
    target := given.value? .target
    properties := properties.getD FormatProperty.all
    allFormats := !given.has .firstOnly
    tsConfig := given.tsConfig
    strict := given.has .strict
    ignoreManifest := given.has .ignoreManifest
    mayUseWorkers := !given.has .noWorkers }

/-- The level of messages that flags ask for, or which level there is not. -/
def Given.logLevel (given : Given) : Except String LogLevel :=
  LogLevel.ofName ((given.value? .logLevel).getD "info")

end PackageOrder
