/-
The command line as a function: from the arguments, and from what the files hold, to what is
printed and the exit code. A scene is reported whole or not at all.
-/
import SceneScript.Console.Request
import SceneScript.Scene.Dump
import SceneScript.Script.Reading
namespace SceneScript.Console

open Script

/-- What a run of the program leaves behind. -/
structure Outcome where
  exitCode : UInt8
  stdout : String
  stderr : String
deriving Repr, DecidableEq

/-- The text that is printed on request. -/
def helpText : String :=
  "Parses a scene description file and reports the resulting scene\n\n" ++
  "Usage: scene-interpreter [OPTIONS] <SCENE>\n\n" ++
  "Arguments:\n" ++
  "  <SCENE>  Scene description file\n\n" ++
  "Options:\n" ++
  "      --strict-groups  Fail when a group is still open at end of file\n" ++
  "      --dump           Print the parsed scene\n" ++
  "  -h, --help           Print help\n"

/-- The text that is printed when the arguments are not understood. -/
def misuseText : String :=
  "error: the arguments are not understood\n\n" ++
  "Usage: scene-interpreter [OPTIONS] <SCENE>\n\n" ++
  "For more information, try '--help'.\n"

/-- Messages of little weight are not shown; the others are, one on a line. -/
def logText (log : List Message) : String :=
  String.join (log.map fun message =>
    match message.level with
    | .debug => ""
    | .info => "[INFO  scene_interpreter::interpreter] " ++ message.text ++ "\n"
    | .warn => "[WARN  scene_interpreter::interpreter] " ++ message.text ++ "\n")

/-- The text that ends a run without a scene. -/
def faultText (fault : Fault) : String :=
  "[ERROR scene_interpreter] " ++ fault.message ++ "\nBad scene file, exiting!\n"

/-- Numbers of the summary never have an exponent, and a whole number has no point. -/
def summaryStyle : Number.Style := ⟨fun _ => true, []⟩

/-- The line that sums up a scene. -/
def summary (scene : Scene Float) : String :=
  let width := toString scene.imageSize.toInt
  let distance := String.ofList (summaryStyle.number scene.cornerDistance)
  let lights := scene.lights.size
  let objects := scene.objects.size
  s!"scene: {width}x{width}, corner distance {distance}, {lights} light(s), {objects} object(s)\n"

/-- What is printed of what came of a script. -/
def Outcome.ofReport (dump : Bool) (report : Report Float) : Outcome :=
  match report.result with
  | .error fault => ⟨1, "", logText report.log ++ faultText fault⟩
  | .ok scene =>
    ⟨0, summary scene ++ (if dump then scene.spreadDump ++ "\n" else ""), logText report.log⟩

/-- The outcome of a command line, given what each path holds or why it cannot be read. -/
def outcome (contents : String → Except String (List UInt8)) (arguments : List String) :
    Outcome :=
  match Request.ofArguments arguments with
  | none => ⟨2, "", misuseText⟩
  | some .help => ⟨0, helpText, ""⟩
  | some (.read path strictGroups dump) =>
    .ofReport dump (readScript { strictGroups } path (contents path))

end SceneScript.Console
