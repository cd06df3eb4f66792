import DebugSymbols.CommandLine.Run

/-!
# The program

The outer layer: it fetches the files that a command reads, lets the command run on them, and makes
what the run did to its files happen on the file system. Everything that is decided is decided by
`CommandLine.parse` and `CommandLine.run`.
-/

namespace DebugSymbols.CommandLine

/-- The number of the system's error for a step through a file. -/
def notDirectoryCode : UInt32 := 20

/-- The kind of a failure of the file system; any other failure is raised again. -/
def fileError : IO.Error → IO FileError
  | .noFileOrDirectory _ _ _ => return .notFound
  | .inappropriateType _ code _ =>
    return if code = notDirectoryCode then .notDirectory else .isDirectory
  | error => throw error

/-- Adds what there is at a path, unless a file is known there already. -/
def fetch (system : FileSystem) (path : String) : IO FileSystem := do
  let location := Location.ofPath path
  if (system.files.get? location).isSome then return system
  match ← (IO.FS.readBinFile path).toBaseIO with
  | .ok bytes => return system.write location bytes
  | .error error =>
    match ← fileError error with
    | .isDirectory => return { system with directories := location :: system.directories }
    | _ => return system

/-- The paths that a path leads through, the shortest first; the path itself without a slash at its
end is the last of them. -/
def leadingPaths (path : String) : List String :=
  let first := if path.startsWith "/" then "/" else ""
  let steps := Location.steps path
  (List.range steps.length).map fun count => first ++ "/".intercalate (steps.take (count + 1))

/-- The file system as far as a command can see it. Whether there is a directory in place of its
output is seen when the output is stored. -/
def surroundings (command : Command) : IO FileSystem := do
  let read := command.inputs.flatMap leadingPaths
  let through := command.output?.toList.flatMap fun path => (leadingPaths path).dropLast
  (read ++ through).foldlM fetch (.ofFiles [])

/-- Stores the output of a run, or removes what is there if the run failed on the way. A run whose
output cannot be stored has done nothing. -/
def store (path : String) (report : Report) : IO Report := do
  let content := (report.system.read path).toOption.getD ByteArray.empty
  let write (afterwards : IO Unit) : IO Report := do
    match ← (IO.FS.writeBinFile path content).toBaseIO with
    | .error error => return .failed report.system (.createOutput path (← fileError error))
    | .ok _ =>
      afterwards
      return report
  match report.result with
  | .ok _ => write (pure ())
  | .error (.removedOutput _ _) | .error (.library _) => write (IO.FS.removeFile path)
  | .error _ => return report

/-- What the arguments have to look like. -/
def usage : String :=
  "usage: " ++ relocateName ++ " FILE --map MAP [--output OUT] [--trusted] [--no-entry-point]\n" ++
    "       " ++ documentsName ++ " FILE [--map MAP]\n" ++
    "options: --json, --verbose, --help, --version\n"

/-- Shows how the program is used; gives the exit code. -/
def showUsage : UsageError → IO UInt32
  | .displayHelp => do
    IO.print usage
    return 0
  | .displayVersion => do
    IO.println "0.1.0"
    return 0
  | _ => do
    IO.eprint usage
    return 2

/-- Runs a command; gives the exit code. -/
def execute (invocation : Invocation) : IO UInt32 := do
  let report := run (← surroundings invocation.command) invocation
  let report ← match invocation.command.output? with
    | some path => store path report
    | none => pure report
  for notice in shownNotices invocation.options report.notices do
    IO.eprintln s!"[{notice.level.name}] {notice.text}"
  IO.print report.output
  match report.result with
  | .ok _ => return 0
  | .error failure =>
    IO.eprintln failure.text
    return 1

end DebugSymbols.CommandLine

/-- Runs the program with its arguments. -/
def main (arguments : List String) : IO UInt32 :=
  match DebugSymbols.CommandLine.parse arguments with
  | .error error => DebugSymbols.CommandLine.showUsage error
  | .ok invocation => DebugSymbols.CommandLine.execute invocation
