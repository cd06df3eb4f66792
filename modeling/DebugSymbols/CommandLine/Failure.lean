import DebugSymbols.CommandLine.FileSystem
import DebugSymbols.MapFile

/-!
# Failures of the program

A failure of the program is told as a chain: what it was about to do, what went wrong there, and so
on down to the cause.
-/

namespace DebugSymbols.CommandLine

/-- Why the program failed. -/
inductive Failure
  | readTree (path : String) (error : FileError)
  | parseTree (path : String) (fault : TreeFile.FileFault)
  | readMap (path : String) (error : FileError)
  | parseMap (path : String) (fault : Json.Fault)
  | createOutput (path : String) (error : FileError)
  /-- The symbols could not be written to standard output, or the store could not be started. -/
  | library (error : SymbolError)
  /-- The symbols could not be written to a file, which was removed. -/
  | removedOutput (path : String) (error : SymbolError)

/-- A link of the chain that tells a failure. -/
inductive Link
  | context (text : String)
  | file (error : FileError)
  | json (fault : Json.Fault)
  | library (error : SymbolError)

/-- The chain of a fault in a tree file. -/
def treeChain : TreeFile.FileFault → List Link
  | .json fault => [.json fault]
  | .constant method name fault =>
    [.context s!"function {method.text}", .context s!"constant '{name}'", .context fault.message]
  | .nameToken text => [.context (Json.ContentFault.badToken text).message]

namespace Failure

/-- The chain that tells a failure, the outermost link first. -/
def chain : Failure → List Link
  | readTree path error => [.context s!"failed to read tree: {path}", .file error]
  | parseTree path fault => .context s!"failed to parse tree: {path}" :: treeChain fault
  | readMap path error => [.context s!"failed to read map: {path}", .file error]
  | parseMap path fault => [.context s!"failed to parse map: {path}", .json fault]
  | createOutput path error => [.context s!"failed to create output: {path}", .file error]
  | library error => [.library error]
  | removedOutput path error => [.context s!"rewrite failed, removed {path}", .library error]

end Failure

/-- The wording of a file error. -/
def FileError.message : FileError → String
  | notFound => "No such file or directory"
  | isDirectory => "Is a directory"
  | notDirectory => "Not a directory"
  | nameTooLong => "File name too long"
  | nulInPath => "file name contained an unexpected NUL byte"
  | invalidText => "stream did not contain valid UTF-8"

/-- The wording of a fault in JSON text. -/
def faultMessage : Json.Fault → String
  | .illFormed => "the text is not JSON"
  | .endOfText => "the text ends too early"
  | .content fault => fault.message

/-- The wording of a link. -/
def Link.message : Link → String
  | context text => text
  | file error => error.message
  | json fault => faultMessage fault
  | library error => error.message

/-- What is shown of a failure: the outermost link, and the others as its causes. -/
def Failure.text (failure : Failure) : String :=
  match failure.chain.map Link.message with
  | [] => "Error"
  | [only] => s!"Error: {only}"
  | first :: causes =>
    "\n    ".intercalate ((s!"Error: {first}\n\nCaused by:") :: causes)

end DebugSymbols.CommandLine
