import DocumentSql.Number.Numeral
import DocumentSql.Value.Basic
/- Reading the arguments of the command line. -/

namespace DocumentSql.CommandLine

inductive OutputFormat
  | table
  | json
deriving DecidableEq, Repr

structure Options where
  statements : List String := []
  dryRun : Bool := false
  bindings : List String := []
  format : Option OutputFormat := none
  databaseUrl : Option String := none
  fixture : Option String := none
  strict : Bool := false
  config : Option String := none
  verbose : Bool := false
deriving DecidableEq, Repr

inductive Command
  | run (options : Options)
  | explain (statement : String) (bindings : List String)
deriving DecidableEq, Repr

/-- Why there is nothing to do: wrong arguments, or a question about the program itself. -/
inductive Stop
  | usage
  | version
  | help
deriving DecidableEq, Repr

inductive Flag
  | dryRun
  | strict
  | verbose
deriving DecidableEq, Repr

inductive Setting
  | bind
  | format
  | databaseUrl
  | fixture
  | config
deriving DecidableEq, Repr

inductive Switch
  | flag (f : Flag)
  | setting (s : Setting)
  | stop (s : Stop)
deriving DecidableEq, Repr

namespace Switch

def ofLong? : String → Option Switch
  | "dry-run" => some (flag .dryRun)
  | "strict" => some (flag .strict)
  | "verbose" => some (flag .verbose)
  | "bind" => some (setting .bind)
  | "format" => some (setting .format)
  | "database-url" => some (setting .databaseUrl)
  | "fixture" => some (setting .fixture)
  | "config" => some (setting .config)
  | "help" => some (stop .help)
  | "version" => some (stop .version)
  | _ => none

def ofShort? : Char → Option Switch
  | 'd' => some (flag .dryRun)
  | 'v' => some (flag .verbose)
  | 'b' => some (setting .bind)
  | 'f' => some (setting .format)
  | 'h' => some (stop .help)
  | 'V' => some (stop .version)
  | _ => none

end Switch

namespace Options

/-- A flag is given at most once. -/
def setFlag (o : Options) : Flag → Except Stop Options
  | .dryRun => if o.dryRun then .error .usage else .ok { o with dryRun := true }
  | .strict => if o.strict then .error .usage else .ok { o with strict := true }
  | .verbose => if o.verbose then .error .usage else .ok { o with verbose := true }

/-- Only bindings may be given more than once; paths may not be empty. -/
def setValue (o : Options) (setting : Setting) (value : String) : Except Stop Options :=
  match setting with
  | .bind =>
    let pieces := (Text.split (· == ',') value.toList).map String.ofList
    .ok { o with bindings := o.bindings ++ pieces }
  | .format =>
    match o.format, value with
    | none, "table" => .ok { o with format := some .table }
    | none, "json" => .ok { o with format := some .json }
    | _, _ => .error .usage
  | .databaseUrl =>
    if o.databaseUrl.isSome then .error .usage else .ok { o with databaseUrl := some value }
  | .fixture =>
    if o.fixture.isSome || value.isEmpty then .error .usage
    else .ok { o with fixture := some value }
  | .config =>
    if o.config.isSome || value.isEmpty then .error .usage
    else .ok { o with config := some value }

end Options

inductive Shape
  | word (text : String)
  | long (name : String) (value : Option String)
  | short (letters : List Char)
  | dashes
deriving DecidableEq, Repr

/-- A lone dash is a word. -/
def Shape.ofArgument (argument : String) : Shape :=
  match argument.toList with
  | '-' :: '-' :: [] => dashes
  | '-' :: '-' :: body =>
    match body.dropWhile (· != '=') with
    | [] => long (String.ofList body) none
    | _ :: value => long (String.ofList (body.takeWhile (· != '='))) (some (String.ofList value))
  | '-' :: c :: letters => short (c :: letters)
  | _ => word argument

/-- The options after a group of one-letter switches, and the setting that still lacks its value.
A setting takes the rest of its group as its value, after an equals sign if there is one. -/
def readLetters (allowed : Switch → Bool) :
    Options → List Char → Except Stop (Options × Option Setting)
  | o, [] => .ok (o, none)
  | o, c :: rest =>
    match (Switch.ofShort? c).filter allowed with
    | none => .error .usage
    | some (.stop s) => .error s
    | some (.flag f) => do readLetters allowed (← o.setFlag f) rest
    | some (.setting s) =>
      match rest with
      | [] => .ok (o, some s)
      | '=' :: value => do return (← o.setValue s (String.ofList value), none)
      | value => do return (← o.setValue s (String.ofList value), none)

def readLong (allowed : Switch → Bool) (o : Options) (name : String) (value : Option String) :
    Except Stop (Options × Option Setting) :=
  match (Switch.ofLong? name).filter allowed, value with
  | some (.stop s), none => .error s
  | some (.flag f), none => do return (← o.setFlag f, none)
  | some (.setting s), none => .ok (o, some s)
  | some (.setting s), some value => do return (← o.setValue s value, none)
  | _, _ => .error .usage

/-- Reads arguments from left to right; `pending` is the setting whose value comes next, which then
may not look like a switch. After two dashes all are words. -/
def readArguments (allowed : Switch → Bool) :
    Option Setting → Options → List String → Except Stop Options
  | none, o, [] => .ok o
  | some _, _, [] => .error .usage
  | some s, o, argument :: rest =>
    match Shape.ofArgument argument with
    | .word value => do readArguments allowed none (← o.setValue s value) rest
    | _ => .error .usage
  | none, o, argument :: rest =>
    match Shape.ofArgument argument with
    | .dashes => .ok { o with statements := o.statements ++ rest }
    | .word text => readArguments allowed none { o with statements := o.statements ++ [text] } rest
    | .long name value => do
      let (o, pending) ← readLong allowed o name value
      readArguments allowed pending o rest
    | .short letters => do
      let (o, pending) ← readLetters allowed o letters
      readArguments allowed pending o rest

/-- `explain` knows only bindings and takes exactly one statement. -/
def readExplain (arguments : List String) : Except Stop Command := do
  let allowed (s : Switch) : Bool := s == .setting .bind || s == .stop .help
  let o ← readArguments allowed none {} arguments
  match o.statements with
  | [statement] => return .explain statement o.bindings
  | _ => throw .usage

/-- A command counts as one only as the first argument; there is help on either of them. -/
def Command.ofArguments : List String → Except Stop Command
  | "explain" :: rest => readExplain rest
  | "help" :: topic => if topic ∈ [[], ["explain"], ["help"]] then .error .help else .error .usage
  | arguments => do return .run (← readArguments (fun _ => true) none {} arguments)

/-- The value that a binding denotes: a number if it reads as one, a truth value or null by its
word, and else a text. -/
def bindingValue (binding : String) : Value :=
  match int64OfText? binding.toList with
  | some i => .number (Binary64.ofInt i)
  | none =>
    match Numeral.ofText? binding.toList with
    | some n => .number n.toBinary64
    | none =>
      match binding with
      | "true" => .bool true
      | "false" => .bool false
      | "null" | "NULL" => .null
      | text => .text text

def bindingValues (bindings : List String) : List Value := bindings.map bindingValue

end DocumentSql.CommandLine
