import DiagramReadability.Config.Environment

/-!
# Options

The options of the command line with their spellings and what they do.
-/

namespace DiagramReadability.CommandLine

open DiagramReadability.Text

inductive Switch where
  | json
  | summaryOnly
  | suggestions
  | strict
  | verbose
  | quiet
deriving Repr, DecidableEq

inductive Action where
  | help
  | turnOn (switch : Switch)
  | choosePreset
  | override (field : Field)
deriving Repr, DecidableEq

structure Opt where
  spellings : List String
  action : Action
deriving Repr, DecidableEq

def Opt.takesValue (o : Opt) : Bool :=
  match o.action with
  | .help | .turnOn _ => false
  | .choosePreset | .override _ => true

def Opt.title (o : Opt) : String :=
  "/".intercalate o.spellings

def fieldSpelling (field : Field) : String :=
  "--" ++ field.name.map fun c => if c = '_' then '-' else c

/-- The fields that have an option, in the order in which their settings are put on top of the
configuration. -/
def settableFields : List Field := [
  .maxWidth, .maxHeight, .charWidth, .nodeSpacing, .nodeHeight, .verticalSpacing,
  .chainLimitHorizontal, .chainLimitVertical]

def options : List Opt := [
  ⟨["-h", "--help"], .help⟩,
  ⟨["--json"], .turnOn .json⟩,
  ⟨["--summary-only"], .turnOn .summaryOnly⟩,
  ⟨["--suggestions", "-s"], .turnOn .suggestions⟩,
  ⟨["--strict"], .turnOn .strict⟩,
  ⟨["-v", "--verbose"], .turnOn .verbose⟩,
  ⟨["-q", "--quiet"], .turnOn .quiet⟩,
  ⟨["--preset", "-p"], .choosePreset⟩] ++
  settableFields.map fun field => ⟨[fieldSpelling field], .override field⟩

def spellings : List (String × Opt) :=
  options.flatMap fun o => o.spellings.map (·, o)

def ofSpelling? (spelling : String) : Option Opt :=
  spellings.lookup spelling

inductive UsageError where
  | ambiguous (text : String) (candidates : List String)
  | valueIgnored (option : Opt) (value : String)
  | valueMissing (option : Opt)
  | notWhole (option : Opt) (raw : String)
  | notReal (option : Opt) (raw : String)
  | notChoice (option : Opt) (raw : String)
  | noPaths
  | unrecognized (texts : List String)
  | configuration (error : ConfigError)
deriving Repr, DecidableEq

def aboutOption (o : Opt) (what : String) : String :=
  "argument " ++ o.title ++ ": " ++ what

def UsageError.message : UsageError → String
  | .ambiguous text candidates =>
      "ambiguous option: " ++ text ++ " could match " ++ ", ".intercalate candidates
  | .valueIgnored o value => aboutOption o ("ignored explicit argument " ++ quoted value)
  | .valueMissing o => aboutOption o "expected one argument"
  | .notWhole o raw => aboutOption o ("invalid int value: " ++ quoted raw)
  | .notReal o raw => aboutOption o ("invalid float value: " ++ quoted raw)
  | .notChoice o raw =>
      aboutOption o ("invalid choice: " ++ quoted raw ++ " (choose from " ++ Preset.quotedNames
        ++ ")")
  | .noPaths => "the following arguments are required: paths"
  | .unrecognized texts => "unrecognized arguments: " ++ " ".intercalate texts
  | .configuration error => error.message

end DiagramReadability.CommandLine
