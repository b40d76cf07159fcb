import ProxyCensus.Command.Run

/-!
# The files of a command

Which places on the disk a command may read or write, and what has to be done there once its run is
over.
-/

namespace ProxyCensus

namespace Command

def namedPlaces (s : Settings) (args : List String) : List String :=
  let given := match Start.read none args with
    | .ok (.command _ args) =>
      match Given.ofArguments (scanNames ++ resolveNames) args with
      | .ok g => g.values.map (·.2)
      | .error _ => []
    | _ => []
  [candidatesOf s.pipeline.scanFolder, s.nodes.file, s.pipeline.scanFolder,
    s.pipeline.resolutionFolder] ++ s.general.logFile.toList ++ given

def artifactNames : List String :=
  ((ScanTally.documents {} none) ++ (ResolutionTally.artifacts {})).map (·.1)

/-- A place and the folders above it, from the root down. -/
def wayTo (p : Path) : List Path :=
  (List.range p.length).map fun n => p.take (n + 1)

/-- The places that a command line works with: the named ones, all folders above them, and inside
them the files of a job with their next versions. -/
def places (d : Disk) (s : Settings) (args : List String) : List Path :=
  ((namedPlaces s args).flatMap fun text =>
    let place := (d.place text).collapse
    wayTo place ++
      (artifactNames.flatMap fun name => [place ++ [name], Snapshot.staging (place ++ [name])])).eraseDups

end Command

inductive Disk.Change where
  | makeFolder (p : Path)
  | store (p : Path) (text : String)
  | remove (p : Path)

def Disk.changes (before after : Disk) : List Disk.Change :=
  (after.nodes.filterMap fun e =>
    if before.get? e.1 == some e.2 then none
    else match e.2 with
      | .folder => some (.makeFolder e.1)
      | .file text => some (.store e.1 text)) ++
  (before.nodes.filterMap fun e => if (after.get? e.1).isNone then some (.remove e.1) else none)

/-- The environment in the form in which the system keeps it: names and values with an equals sign
between them, and a null character after each. -/
def environmentOfText (s : String) : List (String × String) :=
  ((s.toList.splitOn '\x00').filterMap fun e =>
    match Command.Given.splitValue e with
    | (name, some value) => some (String.ofList name, String.ofList value)
    | _ => none)

end ProxyCensus
