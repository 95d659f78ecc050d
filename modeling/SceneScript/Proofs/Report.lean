/-
What the command line reports. A script is reported whole, with exit code zero, or not at all, with
exit code one: a part of a scene never comes to standard output, wherever reading fails
(`report_whole`). The two flags act by themselves. One adds the dump behind the summary, which is one
line since no number is written with a line feed, and the dump shows the scene and no other (`Shows`); the
other is about the end of a script alone, so it makes a difference only to files whose lines all succeed and
leave groups open (`LeavesOpen`).
-/
import SceneScript.Console.Outcome
import SceneScript.Proofs.Strictness
import SceneScript.Proofs.Tokens
namespace SceneScript.Number

/-! ## Numbers are written on one line -/

theorem feed_not_mem_numeral {cs : List Char} (h : ∀ c ∈ cs, IsNumeralChar c) : '\n' ∉ cs := fun hmem =>
  absurd (h _ hmem).isBlank (by decide)

end SceneScript.Number

namespace SceneScript.Console

open Script

/-! ## Summaries -/

/-- A line says of a scene how large its images are, where the corner is, and how many lights and
objects there are. -/
structure SumsUp (scene : Scene Float) (line : String) : Prop where
  text : line = "scene: " ++ toString scene.imageSize.toInt ++ "x" ++ toString scene.imageSize.toInt ++
    ", corner distance " ++ String.ofList (summaryStyle.number scene.cornerDistance) ++ ", " ++
    toString scene.lights.size ++ " light(s), " ++ toString scene.objects.size ++ " object(s)"
  single : '\n' ∉ line.toList

theorem exists_sumsUp (scene : Scene Float) : ∃ line, SumsUp scene line ∧ summary scene = line ++ "\n" := by
  refine ⟨_, ⟨rfl, ?_⟩, ?_⟩
  · have hnumber : '\n' ∉ summaryStyle.number scene.cornerDistance :=
      Number.feed_not_mem_numeral (Number.number_chars (.inl rfl) scene.cornerDistance).2
    have hsize : '\n' ∉ Number.integerText scene.imageSize.toInt :=
      Number.feed_not_mem_numeral (Number.spellsInteger_integerText _).chars
    have hcount : ∀ n : Nat, '\n' ∉ (toString n).toList := by
      intro n
      rw [Nat.toString_eq_repr, Nat.toList_repr]
      exact Number.feed_not_mem_numeral (Number.spellsDigits_toDigits n).chars
    simp only [String.toList_append, List.mem_append, String.toList_ofList, Number.toList_toString_int,
      hsize, hnumber, hcount, or_false]
    decide
  · have hend : " object(s)\n" = " object(s)" ++ "\n" := by decide
    unfold summary
    simp only [hend, String.append_assoc]
    rfl

/-! ## Dumps -/

/-- A text shows a scene: its tokens are those of the scene, field by field, its lines stand as far in as brackets
are open before them, and it is the dump of no other scene. -/
structure Shows (scene : Scene Float) (text : String) : Prop where
  tokens : Text.tokens text = scene.tokens
  indented : Text.WellIndented text.toList
  single : ∀ other : Scene Float, other.spreadDump = text → other = scene

theorem shows_spreadDump (scene : Scene Float) : Shows scene scene.spreadDump :=
  ⟨tokens_spreadDump scene, scene.wellIndented_spreadDump, fun _ h => Scene.spreadDump_injective h⟩

/-! ## One report -/

section
variable {report : Report Float}

theorem ofReport_of_error {fault : Fault} (h : report.result = .error fault) (dump : Bool) :
    Outcome.ofReport dump report = ⟨1, "", logText report.log ++ faultText fault⟩ := by
  rw [Outcome.ofReport, h]

theorem ofReport_of_ok {scene : Scene Float} (h : report.result = .ok scene) (dump : Bool) :
    Outcome.ofReport dump report =
      ⟨0, summary scene ++ (if dump then scene.spreadDump ++ "\n" else ""), logText report.log⟩ := by
  rw [Outcome.ofReport, h]

theorem exitCode_ofReport_iff (dump : Bool) :
    (Outcome.ofReport dump report).exitCode = 1 ∧ (Outcome.ofReport dump report).stdout = "" ↔
      ∃ fault, report.result = .error fault := by
  cases hresult : report.result with
  | error fault =>
    rw [ofReport_of_error hresult]
    exact ⟨fun _ => ⟨fault, rfl⟩, fun _ => ⟨rfl, rfl⟩⟩
  | ok scene =>
    rw [ofReport_of_ok hresult]
    exact ⟨fun h => absurd (show (0 : UInt8) = 1 from h.1) (by decide), nofun⟩

theorem stderr_of_error {fault : Fault} (h : report.result = .error fault) (dump : Bool) :
    ∃ earlier, (Outcome.ofReport dump report).stderr =
      earlier ++ fault.message ++ "\nBad scene file, exiting!\n" := by
  refine ⟨logText report.log ++ "[ERROR scene_interpreter] ", ?_⟩
  rw [ofReport_of_error h]
  unfold faultText
  simp only [String.append_assoc]

theorem stdout_of_ok {scene : Scene Float} (h : report.result = .ok scene) (dump : Bool) :
    (Outcome.ofReport dump report).exitCode = 0 ∧ ∃ line, SumsUp scene line ∧
      Shows scene scene.spreadDump ∧ (Outcome.ofReport dump report).stdout =
        line ++ "\n" ++ if dump then scene.spreadDump ++ "\n" else "" := by
  obtain ⟨line, hline, hsummary⟩ := exists_sumsUp scene
  rw [ofReport_of_ok h, hsummary]
  exact ⟨rfl, line, hline, shows_spreadDump scene, rfl⟩

/-- A dump comes behind everything else, and nothing but a dump comes with it. -/
theorem ofReport_dump (report : Report Float) : ∃ dumped, Outcome.ofReport true report =
    { Outcome.ofReport false report with stdout := (Outcome.ofReport false report).stdout ++ dumped } := by
  cases hresult : report.result with
  | error fault =>
    rw [ofReport_of_error hresult, ofReport_of_error hresult]
    exact ⟨"", rfl⟩
  | ok scene =>
    rw [ofReport_of_ok hresult, ofReport_of_ok hresult]
    refine ⟨scene.spreadDump ++ "\n", ?_⟩
    simp only [if_true, Bool.false_eq_true, if_false, String.append_empty]

end

/-! ## One file, read in both ways -/

theorem map_decoded_eq_iff {path : String} {decodings : List (Option String)} {lines : List String} :
    decodings.map (decoded path) = lines.map .ok ↔ decodings = lines.map some := by
  have hinjective : Function.Injective (decoded path) := by
    intro a b h
    cases a <;> cases b <;> cases h <;> rfl
  have hlines : lines.map .ok = (lines.map some).map (decoded path) := by
    rw [List.map_map]
    rfl
  rw [hlines]
  exact (List.map_injective_iff.2 hinjective).eq_iff

/-- What a file holds is a text whose lines all succeed, and `count` groups are open behind them. -/
def LeavesOpen (file : Except String (List UInt8)) (count : Nat) (scene : Scene Float) : Prop :=
  0 < count ∧ ∃ bytes lines, file = .ok bytes ∧ Text.linesOfBytes bytes = lines.map some ∧
    (Session.start {} : Session Float).SucceedsFrom 1 lines ∧
    let last := (Session.start {} : Session Float).after (numberedFrom 1 lines)
    last.workspace.frames.openGroups = count ∧ last.workspace.scene = scene

/-- The lenient way of reading gives the scene, and the strict way fails. -/
theorem LeavesOpen.results {file : Except String (List UInt8)} {count : Nat} {scene : Scene Float}
    (h : LeavesOpen file count scene) (path : String) :
    (readScript ⟨false⟩ path file : Report Float).result = .ok scene ∧
      (readScript ⟨true⟩ path file : Report Float).result = .error (.openGroups count) := by
  obtain ⟨hpositive, bytes, lines, rfl, hlines, hsucceeds, hcount, hscene⟩ := h
  have hitems : (Text.linesOfBytes bytes).map (decoded path) = lines.map .ok := map_decoded_eq_iff.2 hlines
  have hrun : ∀ policy, (readScript policy path (.ok bytes) : Report Float).result =
      (((Session.start {} : Session Float).after (numberedFrom 1 lines)).withPolicy policy).close.result := by
    intro policy
    have hend := Session.run_of_succeeds ((Session.succeedsFrom_withPolicy policy).2 hsucceeds)
    rw [(Session.after_withPolicy policy _ _).2] at hend
    show (((Session.start {}).withPolicy policy).run _).result = _
    rw [hitems, hend]
  obtain ⟨hstrict, hlenient⟩ := Session.close_of_open hcount (Nat.pos_iff_ne_zero.1 hpositive)
  rw [hrun, hrun, hstrict, hlenient, hscene]
  exact ⟨rfl, rfl⟩

/-- Without groups left open the two ways of reading are one. -/
theorem readScript_strict_or_leavesOpen (path : String) (file : Except String (List UInt8)) :
    (readScript ⟨true⟩ path file : Report Float) = readScript ⟨false⟩ path file ∨
      ∃ count scene, LeavesOpen file count scene := by
  cases file with
  | error reason => exact .inl rfl
  | ok bytes =>
    have hv : (Session.start {} : Session Float).vocabulary.OfCommands := Vocabulary.ofCommands_standard
    rcases Session.run_items_policies hv ((Text.linesOfBytes bytes).map (decoded path)) with
      ⟨fault, log, -, hrun⟩ | ⟨lines, hitems, hsucceeds, hrun⟩
    · exact .inl ((hrun ⟨true⟩).trans (hrun ⟨false⟩).symm)
    let last := (Session.start {} : Session Float).after (numberedFrom 1 lines)
    by_cases hzero : last.workspace.frames.openGroups = 0
    · have hclose := Session.close_of_closed hzero
      refine .inl ((hrun ⟨true⟩).trans (Eq.trans ?_ (hrun ⟨false⟩).symm))
      simp only [last, hclose]
    · have hlines := map_decoded_eq_iff.1 hitems
      exact .inr ⟨_, _, Nat.pos_of_ne_zero hzero, bytes, lines, rfl, hlines, hsucceeds, rfl, rfl⟩

/-! ## Command lines -/

/-- The arguments that ask for the file at a path, with some of the flags. -/
def commandLine (path : String) (strictGroups dump : Bool) : List String :=
  (if strictGroups then ["--strict-groups"] else []) ++ (if dump then ["--dump"] else []) ++ ["--", path]

theorem ofArguments_commandLine {path : String} (h : path ≠ "") (strictGroups dump : Bool) :
    Request.ofArguments (commandLine path strictGroups dump) = some (.read path strictGroups dump) := by
  -- the flags and the dashes are taken off, and the path is left
  have hpath : Request.ofArguments (commandLine path strictGroups dump) =
      (({ strictGroups, dump, pathsOnly := true } : Seen).takePath path).bind Seen.finish := by
    cases strictGroups <;> cases dump <;> rfl
  rw [hpath, Seen.takePath, if_neg (by simp [h])]
  rfl

theorem outcome_of_request {contents : String → Except String (List UInt8)} {arguments : List String}
    {path : String} {strictGroups dump : Bool}
    (h : Request.ofArguments arguments = some (.read path strictGroups dump)) :
    outcome contents arguments = .ofReport dump (readScript ⟨strictGroups⟩ path (contents path)) := by
  rw [outcome, h]

/-- Every command line that asks for a file gets a whole report or none, whatever the path leads to, and
the four ways to ask for one file differ as the flags say. Exit code one without any output means that
reading the file fails, wherever it does; then the diagnostics end with the text of the fault and the
closing message. Otherwise the exit code is zero, and the output is the line that sums up the scene, with
the dump that shows the scene behind it if that is asked for. So the dump changes neither the exit code nor
the diagnostics nor that line. Strictness about groups makes a difference exactly where the lines all succeed
and leave groups open: exit code zero becomes one, and there is no output. -/
theorem report_whole (contents : String → Except String (List UInt8)) (path : String) :
    (path ≠ "" → ∀ strict dump, Request.ofArguments (commandLine path strict dump) =
      some (.read path strict dump)) ∧
    ∀ arguments : Bool → Bool → List String,
      (∀ strict dump, Request.ofArguments (arguments strict dump) = some (.read path strict dump)) →
      let report strict : Report Float := readScript ⟨strict⟩ path (contents path)
      let out strict dump := outcome contents (arguments strict dump)
      (∀ strict dump,
        ((out strict dump).exitCode = 1 ∧ (out strict dump).stdout = "" ↔
          ∃ fault, (report strict).result = .error fault) ∧
        (∀ fault, (report strict).result = .error fault → ∃ earlier,
          (out strict dump).stderr = earlier ++ fault.message ++ "\nBad scene file, exiting!\n") ∧
        ∀ scene, (report strict).result = .ok scene → (out strict dump).exitCode = 0 ∧
          ∃ line, SumsUp scene line ∧ Shows scene scene.spreadDump ∧ (out strict dump).stdout =
            line ++ "\n" ++ if dump then scene.spreadDump ++ "\n" else "") ∧
      (∀ strict, ∃ dumped,
        out strict true = { out strict false with stdout := (out strict false).stdout ++ dumped }) ∧
      ∀ dump, (out true dump ≠ out false dump ↔ ∃ count scene, LeavesOpen (contents path) count scene) ∧
        (out true dump ≠ out false dump → (out false dump).exitCode = 0 ∧ (out true dump).exitCode = 1 ∧
          (out true dump).stdout = "") := by
  refine ⟨ofArguments_commandLine, ?_⟩
  intro arguments harguments report out
  have hout : ∀ strict dump, out strict dump = .ofReport dump (report strict) :=
    fun strict dump => outcome_of_request (harguments strict dump)
  have hopen : ∀ dump count scene, LeavesOpen (contents path) count scene →
      (out false dump).exitCode = 0 ∧ (out true dump).exitCode = 1 ∧ (out true dump).stdout = "" := by
    intro dump count scene h
    obtain ⟨hlenient, hstrict⟩ := h.results path
    rw [hout, hout, ofReport_of_ok hlenient, ofReport_of_error hstrict]
    exact ⟨rfl, rfl, rfl⟩
  have hdiffers : ∀ dump, out true dump ≠ out false dump →
      ∃ count scene, LeavesOpen (contents path) count scene := by
    intro dump hne
    refine (readScript_strict_or_leavesOpen path (contents path)).resolve_left fun hsame => hne ?_
    rw [hout, hout]
    exact congrArg (Outcome.ofReport dump) hsame
  refine ⟨fun strict dump => ?_, fun strict => ?_, fun dump => ⟨⟨hdiffers dump, ?_⟩, fun hne => ?_⟩⟩
  · rw [hout]
    exact ⟨exitCode_ofReport_iff dump, fun fault h => stderr_of_error h dump,
      fun scene h => stdout_of_ok h dump⟩
  · rw [hout, hout]
    exact ofReport_dump (report strict)
  · rintro ⟨count, scene, hleaves⟩ hsame
    obtain ⟨hzero, hone, -⟩ := hopen dump count scene hleaves
    rw [hsame, hzero] at hone
    cases hone
  · obtain ⟨count, scene, hleaves⟩ := hdiffers dump hne
    exact hopen dump count scene hleaves

/-- A file that leaves a group open, under a name that looks like a flag. -/
theorem report_whole_openGroup :
    let bytes := "frob\ngroup\nview 2 1.5".toUTF8.toList
    let out strict dump := outcome (fun _ => .ok bytes) (commandLine "--dump" strict dump)
    "--dump" ≠ "" ∧
      (∀ strict dump, Request.ofArguments (commandLine "--dump" strict dump) =
        some (.read "--dump" strict dump)) ∧
      (∃ scene, LeavesOpen (.ok bytes) 1 scene ∧ ∃ line, SumsUp scene line ∧ Shows scene scene.spreadDump ∧
        (out false true).stdout = line ++ "\n" ++ (scene.spreadDump ++ "\n")) ∧
      (out false true).stdout =
        "scene: 2x2, corner distance 1.5, 0 light(s), 0 object(s)\n" ++
        "Scene \x7b\n    image_size: 2,\n    corner_dist: 1.5,\n" ++
        "    bg_color: [\n        [\n            0.0,\n            0.0,\n            0.0,\n        ],\n    ],\n" ++
        "    ambient_light: [\n        [\n            0.0,\n            0.0,\n            0.0,\n        ],\n    ],\n" ++
        "    lights: [],\n    objects: [],\n\x7d\n" ∧
      (∀ dump, (out false dump).exitCode = 0 ∧ (out true dump).exitCode = 1 ∧ (out true dump).stdout = "") ∧
      (∃ earlier, (out true false).stderr =
        earlier ++ "1 group(s) still open at end of file" ++ "\nBad scene file, exiting!\n") ∧
      ∃ dumped, out false true = { out false false with stdout := (out false false).stdout ++ dumped } := by
  intro bytes out
  have hsucceeds : (Session.start {} : Session Float).SucceedsFrom 1 ["frob", "group", "view 2 1.5"] := by
    unfold Session.SucceedsFrom
    decide +kernel
  have hlines : Text.linesOfBytes bytes = ["frob", "group", "view 2 1.5"].map some := by
    decide +kernel
  obtain ⟨scene, hleaves⟩ : ∃ scene, LeavesOpen (.ok bytes) 1 scene :=
    ⟨_, by decide, bytes, _, rfl, hlines, hsucceeds, by decide +kernel, rfl⟩
  obtain ⟨hlenient, hstrict⟩ := hleaves.results "--dump"
  obtain ⟨harguments, hreports⟩ := report_whole (fun _ => .ok bytes) "--dump"
  have hname : "--dump" ≠ "" := by decide
  obtain ⟨hall, hdump, hpolicy⟩ := hreports _ (harguments hname)
  have hshown := ((hall false true).2.2 scene hlenient).2
  refine ⟨hname, harguments hname, ⟨scene, hleaves, hshown⟩, by decide +kernel, fun dump => ?_,
    (hall true false).2.1 _ hstrict, hdump false⟩
  exact (hpolicy dump).2 ((hpolicy dump).1.2 ⟨1, scene, hleaves⟩)

end SceneScript.Console
