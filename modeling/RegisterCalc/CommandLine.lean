import RegisterCalc.Session.Config
import RegisterCalc.Session.Log

/-!
# The command line

Arguments are read from left to right into options. An option with a value takes it attached
(`--prompt=x`) or from the next argument (`--prompt x`); a value that stands apart is looked at only
once the next option is taken up, or at the end, so that an unknown argument after a bad value is
what is refused. No option may be given twice, but for the one that is counted.
-/

namespace RegisterCalc

/-- When colours are used. -/
inductive ColourChoice where
  | auto | always | never
  deriving DecidableEq, Repr

namespace ColourChoice

/-- The choice that is named so. -/
def ofName? : String → Option ColourChoice
  | "auto" => some auto
  | "always" => some always
  | "never" => some never
  | _ => none

/-- Whether colours are used, given whether the output is a terminal. -/
def isOn (choice : ColourChoice) (terminal : Bool) : Bool :=
  match choice with
  | auto => terminal
  | always => true
  | never => false

end ColourChoice

/-- Why arguments are refused. -/
inductive Refusal where
  /-- What is no option, or an argument that is none. -/
  | unknownArgument
  /-- An option that was given before. -/
  | argumentConflict
  /-- A value for an option that takes none. -/
  | tooManyValues
  /-- A value that is missing or is none of those allowed. -/
  | invalidValue
  deriving DecidableEq, Repr

/-- What ends the reading of arguments early. -/
inductive Interruption where
  | help
  | version
  | refused (refusal : Refusal)
  deriving DecidableEq, Repr

/-- An option without a value. -/
inductive Switch where
  | noTree | fold | plain | verbose | help | version
  deriving DecidableEq, Repr

/-- An option with a value. -/
inductive Setting where
  | colour | history | prompt
  deriving DecidableEq, Repr

/-- The switch with a long name. -/
def Switch.ofName? : String → Option Switch
  | "no-ast" => some noTree
  | "fold" => some fold
  | "plain" => some plain
  | "verbose" => some verbose
  | "help" => some help
  | "version" => some version
  | _ => none

/-- The switch with a letter. -/
def Switch.ofLetter? : Char → Option Switch
  | 'v' => some verbose
  | 'h' => some help
  | 'V' => some version
  | _ => none

/-- The setting with a long name. -/
def Setting.ofName? : String → Option Setting
  | "color" => some colour
  | "history" => some history
  | "prompt" => some prompt
  | _ => none

/-- The options that were given. -/
structure Options where
  noTree : Bool
  fold : Bool
  plain : Bool
  colour : Option ColourChoice
  history : Option String
  prompt : Option String
  /-- How often more detail was asked for, counted up to 255. -/
  verbose : Nat
  deriving DecidableEq, Repr

namespace Options

/-- No option was given. -/
def initial : Options := ⟨false, false, false, none, none, none, 0⟩

/-- When colours are used; by default, on a terminal. -/
def colourChoice (options : Options) : ColourChoice := options.colour.getD .auto

/-- The settings of a session, given whether the output is a terminal. -/
def config (options : Options) (terminal : Bool) : Config :=
  { showTree := !options.noTree
    showFolded := options.fold
    coloured := options.colourChoice.isOn terminal
    prompt := options.prompt.getD Config.standard.prompt }

/-- How much detail the log has. -/
def logLevel (options : Options) : LogLevel :=
  match options.verbose with
  | 0 => .warn
  | 1 => .info
  | 2 => .debug
  | _ => .trace

/-- Takes up a switch. -/
def turnOn (options : Options) : Switch → Except Interruption Options
  | .noTree => if options.noTree then again else .ok { options with noTree := true }
  | .fold => if options.fold then again else .ok { options with fold := true }
  | .plain => if options.plain then again else .ok { options with plain := true }
  | .verbose => .ok { options with verbose := min (options.verbose + 1) 255 }
  | .help => .error .help
  | .version => .error .version
where
  /-- The switch was given before. -/
  again : Except Interruption Options := .error (.refused .argumentConflict)

/-- Takes up a setting with its value. -/
def assign (options : Options) (setting : Setting) (value : String) :
    Except Interruption Options :=
  let again := .error (.refused .argumentConflict)
  let invalid := .error (.refused .invalidValue)
  match setting with
  | .colour =>
    if options.colour.isSome then again
    else match ColourChoice.ofName? value with
      | some choice => .ok { options with colour := some choice }
      | none => invalid
  | .history =>
    if options.history.isSome then again
    else if value.isEmpty then invalid
    else .ok { options with history := some value }
  | .prompt =>
    if options.prompt.isSome then again else .ok { options with prompt := some value }

end Options

/-- Options in the course of reading, with the setting that was named last, if it is still to be
taken up, and its value, if that was already met. -/
structure OptionReading where
  options : Options
  pending : Option (Setting × Option String)

namespace OptionReading

/-- Takes up the setting that was named last. -/
def settle (reading : OptionReading) : Except Interruption OptionReading :=
  match reading.pending with
  | none => .ok reading
  | some (_, none) => .error (.refused .invalidValue)
  | some (setting, some value) =>
    (reading.options.assign setting value).map fun options => ⟨options, none⟩

/-- Takes up a switch, after what was named before it. -/
def turnOn (reading : OptionReading) (switch : Switch) : Except Interruption OptionReading :=
  match reading.settle with
  | .error stop => .error stop
  | .ok settled => (settled.options.turnOn switch).map fun options => ⟨options, none⟩

/-- Reads a long option, with its attached value if it has one. -/
def long (reading : OptionReading) (name : String) (value : Option String) :
    Except Interruption OptionReading :=
  match Switch.ofName? name, Setting.ofName? name with
  | some switch, _ =>
    if value.isSome then .error (.refused .tooManyValues) else reading.turnOn switch
  | none, some setting =>
    match reading.settle with
    | .error stop => .error stop
    | .ok settled =>
      match value with
      | none => .ok ⟨settled.options, some (setting, none)⟩
      | some value => (settled.options.assign setting value).map fun options => ⟨options, none⟩
  | none, none => .error (.refused .unknownArgument)

/-- Reads the letters of short options. -/
def short (reading : OptionReading) : List Char → Except Interruption OptionReading
  | [] => .ok reading
  | letter :: letters =>
    match Switch.ofLetter? letter with
    | none => .error (.refused .unknownArgument)
    | some switch =>
      match reading.turnOn switch with
      | .error stop => .error stop
      | .ok next => next.short letters

/-- Reads an argument that is no option: the value of the setting that waits for one. -/
def value (reading : OptionReading) (argument : String) : Except Interruption OptionReading :=
  match reading.pending with
  | some (setting, none) => .ok ⟨reading.options, some (setting, some argument)⟩
  | _ => .error (.refused .unknownArgument)

/-- Reads an argument. -/
def argument (reading : OptionReading) (argument : String) :
    Except Interruption OptionReading :=
  match argument.toList with
  | '-' :: '-' :: body =>
    let name := String.ofList (body.takeWhile (· ≠ '='))
    match body.dropWhile (· ≠ '=') with
    | [] => reading.long name none
    | _ :: attached => reading.long name (some (String.ofList attached))
  | '-' :: letter :: letters => reading.short (letter :: letters)
  | _ => reading.value argument

/-- Reads the arguments that are left; after two dashes alone nothing may follow. -/
def arguments (reading : OptionReading) : List String → Except Interruption OptionReading
  | [] => reading.settle
  | argument :: rest =>
    if argument = "--" then
      if rest.isEmpty then reading.settle else .error (.refused .unknownArgument)
    else
      match reading.argument argument with
      | .error stop => .error stop
      | .ok next => next.arguments rest

end OptionReading

/-- The options that the arguments of a command line give. -/
def Options.ofArguments (arguments : List String) : Except Interruption Options :=
  (OptionReading.arguments ⟨.initial, none⟩ arguments).map (·.options)

end RegisterCalc
