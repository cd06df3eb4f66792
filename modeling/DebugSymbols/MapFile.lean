import DebugSymbols.PathMap
import DebugSymbols.TreeFile.Convert

/-!
# Map files

A map file is a JSON object of old paths and new ones. Of two entries for one path the later one
wins.
-/

namespace DebugSymbols.MapFile

/-- Reads the text of a map file. -/
def parse (text : String) : Except Json.Fault PathMap :=
  (TreeFile.decodeText (Json.Decoder.entries Json.Decoder.string) text).map PathMap.ofList

end DebugSymbols.MapFile
