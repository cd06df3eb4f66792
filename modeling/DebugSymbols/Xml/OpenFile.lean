import DebugSymbols.Xml.Writer

/-!
# Files and standard output

A file that is being written takes its bytes through a buffer, which passes them on when they do not
fit any more and when it is flushed. Bytes that would fill a whole buffer are not kept in it. Any
write to the file itself may fail, with a part of its bytes written. Standard output never fails.
-/

namespace DebugSymbols.Xml

/-- What becomes of a write that fails: so many bytes are written, and the failure has its words. -/
structure WriteFault where
  written : Nat
  text : String

/-- A file that is being written. -/
structure OpenFile where
  content : ByteArray
  /-- The bytes that the buffer holds back. -/
  buffer : ByteArray
  /-- How often bytes were written to the file itself. -/
  writes : Nat
  /-- Which of these writes fail. -/
  faults : Nat → Option WriteFault

namespace OpenFile

/-- A file that was just created. -/
def created (faults : Nat → Option WriteFault) : OpenFile :=
  ⟨ByteArray.empty, ByteArray.empty, 0, faults⟩

/-- The size of the buffer, in bytes. -/
def bufferSize : Nat := 8192

/-- Writes bytes to the file itself. -/
def append (bytes : ByteArray) (file : OpenFile) : Except String Unit × OpenFile :=
  let reached (written : ByteArray) : OpenFile :=
    { file with content := file.content ++ written, writes := file.writes + 1 }
  match file.faults file.writes with
  | none => (.ok (), reached bytes)
  | some fault => (.error fault.text, reached (bytes.extract 0 fault.written))

/-- Passes on what the buffer holds back. What could not be written stays there. -/
def drain (file : OpenFile) : Except String Unit × OpenFile :=
  if file.buffer.isEmpty then (.ok (), file)
  else
    let (result, reached) := file.append file.buffer
    let written := reached.content.size - file.content.size
    (result, { reached with buffer := file.buffer.extract written file.buffer.size })

/-- Takes a text. -/
def write (text : String) (file : OpenFile) : Except String Unit × OpenFile :=
  let bytes := text.toUTF8
  let fits := bytes.size ≤ bufferSize - file.buffer.size
  match if fits then (.ok (), file) else file.drain with
  | (.error text, file) => (.error text, file)
  | (.ok _, file) =>
    if bytes.size < bufferSize then (.ok (), { file with buffer := file.buffer ++ bytes })
    else file.append bytes

/-- Closes the file, with a last attempt to write what the buffer holds back; gives its content. -/
def close (file : OpenFile) : ByteArray := file.drain.2.content

end OpenFile

/-- A buffered file as a device. -/
def fileDevice : Device OpenFile := ⟨OpenFile.write, OpenFile.drain⟩

/-- Standard output as a device. -/
def outputDevice : Device String := ⟨fun text output => (.ok (), output ++ text), (.ok (), ·)⟩

end DebugSymbols.Xml
