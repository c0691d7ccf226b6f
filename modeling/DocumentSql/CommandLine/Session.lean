import DocumentSql.CommandLine.Report
import DocumentSql.Config
import DocumentSql.Json.Reader
import DocumentSql.Log.Directive
import DocumentSql.Relational.Address
import DocumentSql.Relational.Backend
import DocumentSql.Store.Fixture
/-
A run of the command line: its arguments, environment and files decide what is printed. Everything
outside of it, the relational server included, is a value of `Surroundings`.
-/

namespace DocumentSql.CommandLine

inductive FileError
  | notFound
  | notDirectory
  | longName
  | nulInName
  | isDirectory
  | unreadable (message : String)
deriving DecidableEq, Repr

namespace FileError

def message : FileError → String
  | notFound => "No such file or directory (os error 2)"
  | notDirectory => "Not a directory (os error 20)"
  | longName => "File name too long (os error 36)"
  | nulInName => "file name contained an unexpected NUL byte"
  | isDirectory => "Is a directory (os error 21)"
  | unreadable message => message

/-- Whether something is there, even if it is no readable file. -/
def isPresent : FileError → Bool
  | isDirectory | unreadable _ => true
  | _ => false

end FileError

/-- What a run sees of the world; `moments` gives each statement its own. -/
structure Surroundings (σ : Type) where
  environment : String → Option String
  content : String → Except FileError String
  connect : String → Except String (RelationalServer σ)
  moments : Nat → Moment

inductive Backend (σ : Type)
  | documents (policy : Policy) (store : Store)
  | relational (server : RelationalServer σ) (state : σ)

structure Failure where
  chain : List String
deriving DecidableEq, Repr

namespace Failure

def text (f : Failure) : String := "Error: " ++ String.intercalate ": " f.chain

def ofQuery (statement : String) (e : QueryError) : Failure :=
  ⟨("while running '" ++ statement ++ "'") :: e.chain⟩

def io (e : FileError) : Failure := ⟨["IO error: " ++ e.message, e.message]⟩

def store (e : StoreError) : Failure := ⟨[e.message]⟩

end Failure

structure Report (σ : Type) where
  outputs : List Output
  code : Nat
  server : σ

section Loading

variable {σ : Type} (world : Surroundings σ)

def localConfigPath : String := "sqlshim.toml"

def userConfigDirectory : Option String :=
  match (world.environment "XDG_CONFIG_HOME").filter (·.toList.head? == some '/') with
  | some directory => some directory
  | none => ((world.environment "HOME").filter (!·.isEmpty)).map (· ++ "/.config")

def fileExists (path : String) : Bool :=
  match world.content path with
  | .ok _ => true
  | .error e => e.isPresent

def readConfig (path : String) : Except Failure Config := do
  let content ← (world.content path).mapError Failure.io
  match Config.ofText? content with
  | some config => return config
  | none => throw ⟨["Configuration error: " ++ path]⟩

/-- The named file, else the local one, else the user's, else the defaults. -/
def loadConfig (named : Option String) : Except Failure Config :=
  match named with
  | some path => readConfig world path
  | none =>
    if fileExists world localConfigPath then readConfig world localConfigPath
    else
      match (userConfigDirectory world).map (· ++ "/sqlshim/config.toml") with
      | some path => if fileExists world path then readConfig world path else .ok {}
      | none => .ok {}

/-- The directives of the environment if they are sound, else those of the configuration; remarks
on the latter come along. -/
def logDirectives (config : Config) (verbose : Bool) : Log.Directives × List String :=
  let fallback := config.logFilter.getD (if verbose then "sqlshim=debug" else "warn")
  match (world.environment "RUST_LOG").bind fun text => Log.Directives.ofText? text.toList with
  | some directives => (directives, [])
  | none => Log.Directives.ofTextLossy fallback.toList

def loadFixture (path : String) : Except Failure Store := do
  let content ← (world.content path).mapError fun e => ⟨["reading fixture " ++ path, e.message]⟩
  match Json.ofText? content with
  | some json => (Store.ofFixture json).mapError Failure.store
  | none => throw ⟨["parsing fixture " ++ path]⟩

/-- Connects to the server at a sound address. No server here listens on a local socket. -/
def connect (url : String) : Except Failure (RelationalServer σ) :=
  let connected : Except String (RelationalServer σ) :=
    match Address.ofText url with
    | .error fault => .error fault.message
    | .ok { socket := some _ } =>
      .error ("error communicating with database: " ++ FileError.notFound.message)
    | .ok { socket := none } => world.connect url
  connected.mapError fun message => ⟨(QueryError.store (.backend message)).chain⟩

/-- The server's address: an option, else the environment, else the configuration if it names the
relational backend. -/
def serverUrl (options : Options) (config : Config) : Option String :=
  (options.databaseUrl.or (world.environment "SQLSHIM_DATABASE_URL")).or
    (if config.backend.kind = .postgres then config.backend.databaseUrl else none)

def openStore (options : Options) (config : Config) : Except Failure (Backend σ) := do
  if config.backend.kind = .postgres then
    throw ⟨["backend kind is postgres but no database_url is set. " ++
      "Use --database-url or set SQLSHIM_DATABASE_URL"]⟩
  let store ← match options.fixture.or config.backend.fixture with
    | some path => loadFixture world path
    | none => pure Store.empty
  return .documents ⟨config.strict || options.strict⟩ store

def openBackend (options : Options) (config : Config) (server : σ) :
    List Output × Except Failure (Backend σ) :=
  match serverUrl world options config with
  | some url =>
    (if options.verbose then [.out ("Connecting to: " ++ url)] else [],
      (connect world url).map fun s => .relational s server)
  | none => ([], openStore world options config)

end Loading

namespace Backend

variable {σ : Type}

def query (backend : Backend σ) (moment : Moment) (text : String) (params : List Value) :
    Execution (Backend σ) :=
  match backend with
  | documents policy store =>
    let e := Engine.query Store.memory policy moment text params store
    { e with state := documents policy e.state }
  | relational server state =>
    let e := Relational.query server text params state
    { e with state := relational server e.state }

/-- The state of the server, or `unused` if there was none. -/
def serverState (unused : σ) : Backend σ → σ
  | documents _ _ => unused
  | relational _ state => state

end Backend

section Running

variable {σ : Type}

/-- Runs statements until one fails; `index` counts those before. -/
def runStatements (moments : Nat → Moment) (options : Options) (params : List Value) :
    Nat → List String → Backend σ → List Output × Option Failure × Backend σ
  | _, [], backend => ([], none, backend)
  | index, text :: rest, backend =>
    let announced := if options.verbose then [Output.out ("Statement: " ++ text)] else []
    let e := backend.query (moments index) text params
    let logged := announced ++ e.events.map .log
    match e.outcome with
    | .error cause => (logged, some (.ofQuery text cause), e.state)
    | .ok r =>
      let printed := (formatResult (options.format.getD .table) r).map Output.out
      let (more, failure, backend) := runStatements moments options params (index + 1) rest e.state
      (logged ++ printed ++ more, failure, backend)

def usageLines : List String :=
  ["sqlshim: SQL on a document store", "", "Usage: sqlshim <STATEMENT>... [OPTIONS]", "",
    "Try: sqlshim --help"]

def explainAll (moments : Nat → Moment) (params : List Value) (texts : List String) : List Output :=
  (texts.zipIdx.map fun (text, index) => explain (moments index) params text).flatten

def shown (directives : Log.Directives) (outputs : List Output) : List Output :=
  outputs.filter fun
    | .log event => directives.shows event
    | _ => true

def execute (world : Surroundings σ) (config : Config) (options : Options) (server : σ) :
    Report σ :=
  let params := bindingValues options.bindings
  if options.statements.isEmpty then ⟨usageLines.map .out, 0, server⟩
  else if options.dryRun then ⟨explainAll world.moments params options.statements, 0, server⟩
  else
    match openBackend world options config server with
    | (announced, .error failure) => ⟨announced ++ [.err failure.text], 1, server⟩
    | (announced, .ok backend) =>
      let (outputs, failure, backend) :=
        runStatements world.moments options params 0 options.statements backend
      let faults := failure.toList.map fun f => Output.err f.text
      ⟨announced ++ outputs ++ faults, if failure.isSome then 1 else 0,
        backend.serverState server⟩

def runCommand (world : Surroundings σ) (command : Command) (server : σ) : Report σ :=
  let options := match command with
    | .run options => options
    | .explain _ _ => {}
  match loadConfig world options.config with
  | .error failure => ⟨[.err failure.text], 1, server⟩
  | .ok config =>
    let (directives, remarks) := logDirectives world config options.verbose
    let report := match command with
      | .run options => execute world config options server
      | .explain statement bindings =>
        ⟨explain (world.moments 0) (bindingValues bindings) statement, 0, server⟩
    { report with outputs := remarks.map .err ++ shown directives report.outputs }

def versionLine : String := "sqlshim 0.1.0"

/-- A whole run. Wrong arguments have an exit code of their own. -/
def run (world : Surroundings σ) (arguments : List String) (server : σ) : Report σ :=
  match Command.ofArguments arguments with
  | .ok command => runCommand world command server
  | .error .version => ⟨[.out versionLine], 0, server⟩
  | .error .help => ⟨usageLines.map .out, 0, server⟩
  | .error .usage => ⟨[.err "error: wrong arguments"], 2, server⟩

end Running

end DocumentSql.CommandLine
