import MultiCluster.CommandLine.Run
import MultiCluster.Kubeconfig.Reading
import Std.Time.DateTime.Timestamp

/-! The command line program. It reads the environment and the files that an invocation names,
runs it, and writes what the run has shown and saved. It brings no transport: every request to a
cluster ends with a connection that fails. -/
namespace MultiCluster.CommandLine

def variableNames : List String := ["SUBCTL_REPOSITORY", "SUBCTL_VERSION", "SUBCTL_KUBECONFIG",
  "KUBECONFIG", "OS_REGION_NAME", "OS_CLIENT_CONFIG_FILE"]

def readVariable (t : Text.Table) (name : String) : IO Text.Table := do
  match ← IO.getEnv name with
  | some value => pure (t.insert name value)
  | none => pure t

def splitPath (path : String) : String × String :=
  let pieces := Text.splitOn '/' path
  let directory := Text.join "/" pieces.dropLast
  (if Files.isAbsolute path then "/" ++ directory else directory, pieces.getLast?.getD "")

/-- Put a file that exists into the tree. -/
def readInput (t : Files.Tree) (path : String) : IO Files.Tree := do
  try
    let bytes ← IO.FS.readBinFile path
    let (directory, name) := splitPath path
    match t.makeDirectories directory with
    | (.ok l, t) => pure (t.plant (l ++ [name]) (.file (String.fromUTF8? bytes)))
    | (.error _, t) => pure t
  catch _ => pure t

/-- Save what a run has put into the tree. -/
def writeEntry (before : Files.Tree) (e : Files.Location × Files.Entry) : IO Unit := do
  let path := "/" ++ Text.join "/" e.1
  if before.entry? e.1 == some e.2 then return
  match e.2 with
  | .directory => IO.FS.createDirAll path
  | .file text => IO.FS.writeFile path (text.getD "")

/-- No connection is made. -/
def disconnected : Answering Unit
  | _, .send _, s => (.arrived (some ⟨1⟩) false (.broken "client error (Connect)"), s)
  | _, .pause wait, s => (.arrived (some wait) false (), s)

def readEnvironment : IO Environment := do
  let vars ← variableNames.foldlM readVariable []
  let directory := toString (← IO.currentDir)
  let location := (Text.splitOn '/' directory).filter (· != "")
  let now ← Std.Time.Timestamp.now
  pure {
    vars := vars
    home := (← IO.getEnv "HOME").filter (· != "")
    directory := directory
    files := Files.Tree.plant location .directory ⟨[], location⟩
    now := Calendar.Instant.ofUnix now.toSecondsSinceUnixEpoch.val 0
    yaml := Yaml.documents?
    kubeconfigs := Kubeconfig.plain }

/-- The files that may be read. -/
def Invocation.inputs (i : Invocation) (env : Environment) : List String :=
  Kubeconfig.paths env.vars env.home (i.clusters.location? env) ++
    match i.command with
    | .cloud (.openstack c) _ => c.metadataFile.toList ++ env.searchPath
    | _ => []

def perform (env : Environment) (i : Invocation) : IO UInt32 := do
  let env := { env with files := ← (i.inputs env).foldlM readInput env.files }
  let (result, s) := i.run disconnected env false ()
  s.lines.forM IO.println
  s.files.entries.forM (writeEntry env.files)
  match result with
  | some (.error f) =>
    IO.eprintln ("Error: " ++ f.message)
    pure (UInt32.ofNat f.exitCode)
  | _ => pure 0

end MultiCluster.CommandLine

open MultiCluster.CommandLine in
def main (args : List String) : IO UInt32 := do
  let env ← readEnvironment
  match Invocation.ofWords env.vars args with
  | .ok i => perform env i
  | .error r =>
    if r.exitCode = 0 then IO.println r.message else IO.eprintln ("error: " ++ r.message)
    pure (UInt32.ofNat r.exitCode)
