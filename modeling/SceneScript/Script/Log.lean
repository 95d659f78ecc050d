/-
The messages that reading a script leaves behind, as data; their texts are made only here.
-/
namespace SceneScript.Script

/-- How much a message matters. -/
inductive Level where
  | debug
  | info
  | warn
deriving Repr, DecidableEq

/-- The name of a level. -/
def Level.name : Level → String
  | debug => "DEBUG"
  | info => "INFO"
  | warn => "WARN"

/-- What there is to say while a script is read. -/
inductive Message where
  /-- A line with a command is about to be carried out. -/
  | reading (line : Nat) (text : String)
  /-- A line's first word names no command; the line is passed over. -/
  | unknownCommand (line : Nat) (name : String)
  /-- The script ends with groups open, and that is tolerated. -/
  | groupsLeftOpen (count : Nat)
  /-- The script was read to its end. -/
  | finished (size : Int32) (lights objects : Nat)
deriving Repr, DecidableEq

namespace Message

/-- The level of a message. -/
def level : Message → Level
  | reading _ _ => .debug
  | unknownCommand _ _ | groupsLeftOpen _ => .warn
  | finished _ _ _ => .info

/-- The text of a message. -/
def text : Message → String
  | reading line text => s!"Parsing line {line}: '{text}'"
  | unknownCommand line name => s!"Undefined scene file item on line {line}: {name}"
  | groupsLeftOpen count => s!"{count} group(s) left open at end of scene file"
  | finished size lights objects =>
    let width := toString size.toInt
    s!"Parsed scene: {width}x{width}, {lights} light(s), {objects} object(s)"

end Message

end SceneScript.Script
