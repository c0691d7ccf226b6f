import DocumentSql.CommandLine.Session
import Std.Time.DateTime.Timestamp
/- The program: connects a run of the command line with the system. -/

namespace DocumentSql.CommandLine

abbrev Files := List (String × Except FileError String)

def readPath (path : String) : IO (String × Except FileError String) := do
  try
    return (path, .ok (← IO.FS.readFile path))
  catch
    | .noFileOrDirectory .. => return (path, .error .notFound)
    | .inappropriateType _ code _ =>
      return (path, .error (if code = 20 then .notDirectory else .isDirectory))
    | e => return (path, .error (.unreadable (toString e)))

def lookUp (files : Files) (path : String) : Except FileError String :=
  match files.find? (·.1 == path) with
  | some (_, content) => content
  | none => .error .notFound

def variableNames : List String := ["XDG_CONFIG_HOME", "HOME", "RUST_LOG", "SQLSHIM_DATABASE_URL"]

/-- There is no connection to a server here, so every address fails like one that nobody answers. -/
def surroundings (given : List (String × String)) (files : Files) (now : Instant)
    (seed : Nat) : Surroundings Unit where
  environment name := (given.find? (·.1 == name)).map (·.2)
  content := lookUp files
  connect _ := .error "pool timed out while waiting for an open connection"
  moments := Moment.series now seed

def configPaths (world : Surroundings Unit) (arguments : List String) : List String :=
  let named := match Command.ofArguments arguments with
    | .ok (.run options) => options.config.toList
    | _ => []
  let user := (userConfigDirectory world).map (· ++ "/sqlshim/config.toml")
  named ++ localConfigPath :: user.toList

/-- The files that it may read as its fixture, once those before are known. -/
def fixturePaths (files : Files) (arguments : List String) : List String :=
  let named := match Command.ofArguments arguments with
    | .ok (.run options) => options.fixture.toList
    | _ => []
  named ++ files.filterMap fun (_, content) =>
    match content with
    | .ok text => (Config.ofText? text).bind fun config => config.backend.fixture
    | .error _ => none

def write (now : Instant) : Output → IO Unit
  | .out line => IO.println line
  | .err line => IO.eprintln line
  | .log event =>
    IO.eprintln (now.microsecondText ++ " " ++ event.level.text ++ " " ++ event.source ++ ": " ++
      event.message)

/-- Reads what a run may ask for beforehand, so that the run itself is a function. -/
def start (arguments : List String) : IO UInt32 := do
  let given ← variableNames.filterMapM fun name => do
    return (← IO.getEnv name).map fun value => (name, value)
  let now : Instant := ⟨(← Std.Time.Timestamp.now).toNanosecondsSinceUnixEpoch.val⟩
  let bytes ← IO.getRandomBytes 16
  let seed := bytes.toList.foldl (fun n b => 256 * n + b.toNat) 0
  let configs ← (configPaths (surroundings given [] now seed) arguments).mapM readPath
  let fixtures ← (fixturePaths configs arguments).mapM readPath
  let report := run (surroundings given (configs ++ fixtures) now seed) arguments ()
  report.outputs.forM (write now)
  return report.code.toUInt32

end DocumentSql.CommandLine

def main (arguments : List String) : IO UInt32 := DocumentSql.CommandLine.start arguments
