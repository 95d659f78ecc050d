/-
Reading scripts: from a text, and from the bytes of a file. Bytes are decoded line by line, so
what stands before a line that is no text has been carried out when that line is refused.
-/
import SceneScript.Script.Session
import SceneScript.Text.Line
namespace SceneScript.Script

open Space

variable {α : Type} [Scalar α] [Number.FromWord α]

/-- Reads the script that a text is. -/
def readText (policy : Policy) (text : String) : Report α :=
  (Session.start policy).run ((Text.lines text).map .ok)

/-- Why bytes that are not UTF-8 are refused. -/
def notText : String := "stream did not contain valid UTF-8"

/-- The line that decoding gave, or the fault of the file at a path. -/
def decoded (path : String) : Option String → Except Fault String
  | some line => .ok line
  | none => .error (.unreadable path notText)

/-- Reads the script that the bytes of the file at a path are. -/
def readBytes (policy : Policy) (path : String) (bytes : List UInt8) : Report α :=
  (Session.start policy).run ((Text.linesOfBytes bytes).map (decoded path))

/-- Reads the script at a path, given what the file holds or why it cannot be read. -/
def readScript (policy : Policy) (path : String) (contents : Except String (List UInt8)) :
    Report α :=
  match contents with
  | .ok bytes => readBytes policy path bytes
  | .error reason => ⟨.error (.unreadable path reason), []⟩

end SceneScript.Script
