import DiagramReadability.CommandLine.Arguments
import DiagramReadability.Config.EnvFile
import DiagramReadability.Render.Console
import DiagramReadability.Render.Json

/-!
# Runs

A run reads its command line, builds the configuration, analyses the diagrams and prints the
reports.  All that it sees of the outside are the arguments, the environment and the files; all that
it does is in its outcome.
-/

namespace DiagramReadability.CommandLine

inductive Crash where
  | fault (cause : Fault)
  | envFile (cause : EnvFileError)
deriving Repr, DecidableEq

def Crash.message : Crash → String
  | .fault cause => cause.message
  | .envFile cause => cause.message

structure Outcome where
  exit : Except Crash Nat
  stdout : String := ""
  stderr : String := ""
  warnings : List Skipped := []

/-- The exit code of a run that has nothing to report on. -/
def nothingDone : Nat := 2

def helpText : String :=
  "usage: diagram-readability [options] paths...\n\n" ++
  "Predict Mermaid diagram size and layout problems without rendering\n\n" ++
  "options:\n" ++
  String.join (options.map fun o => "  " ++ ", ".intercalate o.spellings ++ "\n") ++
  "\nExit codes:\n" ++
  "  0  No errors (and no warnings with --strict)\n" ++
  "  1  Errors found (or warnings with --strict)\n" ++
  "  2  No diagrams found\n"

def Arguments.configure (a : Arguments) (c : Config) : Config :=
  (settableFields.filterMap a.settingOf?).foldl Config.override c

/-- The configuration of a run: preset, then environment, then command line. -/
def configOf (env : Environment) (a : Arguments) : Except ConfigError Config := do
  let c ← Config.ofEnvironment env standardKeyStart Preset.standard.name a.preset
  return a.configure c

/-- Reports on the diagrams of some files, with what is passed over until a fault. -/
def reportAll (fs : FileSystem) (config : Config) :
    List Path → List Skipped × Except Fault (List Report)
  | [] => ([], .ok [])
  | p :: rest =>
      match Source.load fs p with
      | .error skipped =>
          let (warnings, reports) := reportAll fs config rest
          (skipped :: warnings, reports)
      | .ok diagrams =>
          match diagrams.mapM fun d => analyze d config with
          | .error cause => ([], .error cause)
          | .ok reports =>
              let (warnings, later) := reportAll fs config rest
              (warnings, later.map (reports ++ ·))

def showSteps (s : Steps) : String :=
  s!"{s.info}/{s.warning}/{s.error}"

def opening (config : Config) : String × Except Fault Unit :=
  match config.widthSteps, config.heightSteps with
  | .error cause, _ => ("", .error cause)
  | .ok _, .error cause => (s!"\n🔧 Using preset: {config.presetName}\n", .error cause)
  | .ok width, .ok height =>
      (s!"\n🔧 Using preset: {config.presetName}\n" ++
        s!"   Width: {showSteps width}px, Height: {showSteps height}px\n", .ok ())

def fullText (config : Config) (suggestions : Bool) (reports : List Report) :
    String × Except Fault Unit :=
  let (start, result) := opening config
  match result with
  | .error cause => (start, .error cause)
  | .ok () =>
      match reports.mapM (Console.report suggestions) with
      | .error cause => (start, .error cause)
      | .ok texts =>
          (start ++ String.join (texts.map (· ++ "\n")) ++ Console.summary reports ++ "\n", .ok ())

def outputText (a : Arguments) (config : Config) (reports : List Report) :
    String × Except Fault Unit :=
  if a.has .json then (jsonReport reports ++ "\n", .ok ())
  else if a.has .summaryOnly || a.has .quiet then (Console.summary reports ++ "\n", .ok ())
  else fullText config (a.has .suggestions) reports

def Arguments.logsWarnings (a : Arguments) : Bool :=
  a.has .verbose || !a.has .quiet

def runWith (a : Arguments) (config : Config) (fs : FileSystem) : Outcome :=
  let missing := Source.missing fs a.paths
  let (unread, result) := reportAll fs config (Source.collect fs a.paths)
  let warnings := if a.logsWarnings then missing ++ unread else []
  match result with
  | .error cause => { exit := .error (.fault cause), warnings := warnings }
  | .ok [] =>
      { exit := .ok nothingDone, stderr := "❌ No Mermaid diagrams found\n", warnings := warnings }
  | .ok reports =>
      let (text, done) := outputText a config reports
      { exit :=
          match done with
          | .ok () => .ok (exitCode reports (a.has .strict))
          | .error cause => .error (.fault cause)
        stdout := text
        warnings := warnings }

def refused (error : UsageError) : Outcome where
  exit := .ok nothingDone
  stderr := "error: " ++ error.message ++ "\n"

def run (texts : List String) (env : Environment) (fs : FileSystem) : Outcome :=
  match Arguments.read texts with
  | .error .help => { exit := .ok 0, stdout := helpText }
  | .error (.refused error) => refused error
  | .ok a =>
      match env.load standardKeyStart fs none with
      | .error cause => { exit := .error (.envFile cause) }
      | .ok (env, _) =>
          match configOf env a with
          | .error error => refused (.configuration error)
          | .ok config => runWith a config fs

end DiagramReadability.CommandLine
