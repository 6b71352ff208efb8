import DiagramReadability.CommandLine.Option

/-!
# Arguments

A command line is a list of paths among options.  A long option may be cut short as long as only
one fits; its value follows it or is joined to it by an equals sign.  Short options may be joined
to each other and to a value.  The paths stand together: of several groups only the first is taken.
-/

namespace DiagramReadability.CommandLine

open DiagramReadability.Text

/-! ## Tokens -/

inductive Token where
  | plain (text : String)
  | separator
  | unknown (text : String)
  /-- An option, and the text that is joined to it after an equals sign or, when it is a short one,
  directly; a long one is spelled with two hyphens. -/
  | option (opt : Opt) (long : Bool) (joined : Option (List Char))
deriving Repr, DecidableEq

def splitEquals (s : List Char) : List Char × Option (List Char) :=
  (s.takeWhile (· ≠ '='), (s.dropWhile (· ≠ '=')).tail?)

def isNegativeNumber (s : List Char) : Bool :=
  match s with
  | '-' :: rest =>
      let body := if rest.getLast? = some '\n' then rest.dropLast else rest
      let isDigit := fun c => (digitValue? c).isSome
      match body.dropWhile isDigit with
      | [] => !body.isEmpty
      | '.' :: fraction => !fraction.isEmpty && fraction.all isDigit
      | _ => false
  | _ => false

def isLong (s : List Char) : Bool :=
  match s with
  | '-' :: '-' :: _ => true
  | _ => false

/-- What a text that begins with a hyphen and is no option as it stands may be short for, with the
spelling that fits. -/
def candidates (s : List Char) : List (String × Token) :=
  if isLong s then
    let (start, value) := splitEquals s
    (spellings.filter fun (spelling, _) => start.isPrefixOf spelling.toList).map
      fun (spelling, opt) => (spelling, .option opt true value)
  else
    (spellings.filter fun (spelling, _) => spelling.toList = s.take 2).map
      fun (spelling, opt) => (spelling, .option opt false (some (s.drop 2)))

def hyphenated (text : String) : Except UsageError Token :=
  let s := text.toList
  match ofSpelling? text with
  | some opt => .ok (.option opt (isLong s) none)
  | none =>
      let (start, value) := splitEquals s
      match s, value, ofSpelling? (String.ofList start) with
      | [_], _, _ => .ok (.plain text)
      | _, some value, some opt => .ok (.option opt (isLong s) (some value))
      | _, _, _ =>
          match candidates s with
          | [(_, token)] => .ok token
          | [] =>
              if isNegativeNumber s || s.contains ' ' then .ok (.plain text)
              else .ok (.unknown text)
          | several => .error (.ambiguous text (several.map Prod.fst))

def tokens : List String → Except UsageError (List Token)
  | [] => .ok []
  | text :: rest =>
      if text = "--" then .ok (.separator :: rest.map .plain)
      else do
        let token ← if text.startsWith "-" then hyphenated text else .ok (.plain text)
        return token :: (← tokens rest)

/-! ## Options joined together -/

inductive Ending where
  | complete
  | valued (opt : Opt) (text : String)
  | wanting (opt : Opt)
deriving Repr, DecidableEq

def alone (opt : Opt) : List Opt × Ending :=
  if opt.takesValue then ([], .wanting opt) else ([opt], .complete)

/-- Resolves an option and the text joined to it into the switches in front and the ending.  What is
joined to a short switch names a further short option, which may have a text of its own. -/
def unjoin (opt : Opt) (long : Bool) (text : List Char) : Except UsageError (List Opt × Ending) :=
  if opt.takesValue then .ok ([], .valued opt (String.ofList text))
  else
    match text with
    | [] => .error (.valueIgnored opt "")
    | c :: rest =>
        match if long then none else ofSpelling? (String.ofList ['-', c]) with
        | none => .error (.valueIgnored opt (String.ofList (c :: rest)))
        | some next =>
            let inner := if rest.isEmpty then .ok (alone next) else unjoin next false rest
            inner.map fun (opts, ending) => (opt :: opts, ending)

/-! ## The arguments of a run -/

structure Arguments where
  paths : List String := []
  switches : List Switch := []
  preset : Option String := none
  settings : List Setting := []

def Arguments.has (a : Arguments) (switch : Switch) : Bool :=
  a.switches.contains switch

inductive Stop where
  | help
  | refused (error : UsageError)
deriving Repr, DecidableEq

/-- The value that is none: joined to an option, it takes away what the option would set. -/
def noValue : String := "--"

def readNumber (opt : Opt) (field : Field) (raw : String) :
    Except UsageError field.kind.Value :=
  match field.kind with
  | .whole =>
      match Number.readWhole? raw with
      | some n => .ok n
      | none => .error (.notWhole opt raw)
  | .real =>
      match Number.readReal? raw with
      | some x => .ok x
      | none => .error (.notReal opt raw)

def readSetting (opt : Opt) (field : Field) (raw : String) : Except UsageError Setting :=
  match if raw = noValue then field.absent? else none with
  | some value => .ok ⟨field, value⟩
  | none => (readNumber opt field raw).map fun n => ⟨field, field.given n⟩

def Arguments.turnOn (a : Arguments) (opt : Opt) : Except Stop Arguments :=
  match opt.action with
  | .help => .error .help
  | .turnOn switch => .ok { a with switches := switch :: a.switches }
  | .choosePreset | .override _ => .ok a

/-- Carries out an option with a value; the last value of an option counts. -/
def Arguments.give (a : Arguments) (opt : Opt) (raw : String) : Except Stop Arguments :=
  match opt.action with
  | .help | .turnOn _ => .ok a
  | .choosePreset =>
      if raw = noValue then .ok { a with preset := none }
      else if (Preset.ofName? raw).isSome then .ok { a with preset := some raw }
      else .error (.refused (.notChoice opt raw))
  | .override field =>
      match readSetting opt field raw with
      | .ok setting => .ok { a with settings := setting :: a.settings }
      | .error error => .error (.refused error)

/-- A command line that has been read so far: the arguments, whether the paths have been taken, and
the texts that belong to nothing. -/
structure Progress where
  arguments : Arguments := {}
  pathsTaken : Bool := false
  extras : List String := []

def Token.isBare : Token → Bool
  | .plain _ | .separator => true
  | .unknown _ | .option .. => false

def Token.isPlain : Token → Bool
  | .plain _ => true
  | _ => false

def Token.text : Token → String
  | .plain text | .unknown text => text
  | .separator | .option .. => "--"

/-- Takes a run of tokens between options: as the paths, if there is a path among them and none have
been taken.  The first separator is none of them. -/
def Progress.takeRun (p : Progress) (run : List Token) : Progress :=
  if !p.pathsTaken && run.any Token.isPlain then
    let paths := (run.map Token.text).erase "--"
    { p with arguments := { p.arguments with paths := paths }, pathsTaken := true }
  else { p with extras := p.extras ++ run.map Token.text }

/-- Carries out an option with what is joined to it.  The text after it, if there is one that can be
a value, is `next`, and the flag says that it was taken.  A value that is missing is noticed before
any of the joined options is carried out. -/
def Progress.takeOption (p : Progress) (opt : Opt) (long : Bool) (joined : Option (List Char))
    (next : Option String) : Except Stop (Progress × Bool) := do
  let (opts, ending) ←
    match joined.elim (.ok (alone opt)) (unjoin opt long) with
    | .ok result => .ok result
    | .error error => .error (Stop.refused error)
  match ending, next with
  | .wanting opt, none => .error (.refused (.valueMissing opt))
  | .wanting opt, some text =>
      let arguments ← opts.foldlM Arguments.turnOn p.arguments
      return ({ p with arguments := ← arguments.give opt text }, true)
  | .complete, _ =>
      return ({ p with arguments := ← opts.foldlM Arguments.turnOn p.arguments }, false)
  | .valued opt text, _ =>
      let arguments ← opts.foldlM Arguments.turnOn p.arguments
      return ({ p with arguments := ← arguments.give opt text }, false)

def leadingText? : List Token → Option String
  | .plain text :: _ => some text
  | _ => none

def Progress.read (p : Progress) (ts : List Token) : Except Stop Progress :=
  match ts with
  | [] => .ok p
  | .unknown text :: rest => { p with extras := p.extras ++ [text] }.read rest
  | .option opt long joined :: rest =>
      match p.takeOption opt long joined (leadingText? rest) with
      | .error stop => .error stop
      | .ok (p, taken) => p.read (if taken then rest.tail else rest)
  | token :: rest =>
      (p.takeRun (token :: rest.takeWhile Token.isBare)).read (rest.dropWhile Token.isBare)
termination_by ts.length
decreasing_by
  · simp
  · cases taken
    · exact Nat.lt_succ_self _
    · exact Nat.lt_succ_of_le (List.tail_sublist rest).length_le
  · exact Nat.lt_succ_of_le (List.dropWhile_sublist _).length_le

def Arguments.read (texts : List String) : Except Stop Arguments := do
  let ts ←
    match tokens texts with
    | .ok ts => .ok ts
    | .error error => .error (Stop.refused error)
  let p ← ({} : Progress).read ts
  if !p.pathsTaken then .error (.refused .noPaths)
  else if !p.extras.isEmpty then .error (.refused (.unrecognized p.extras))
  else return p.arguments

def Arguments.settingOf? (a : Arguments) (field : Field) : Option Setting :=
  a.settings.find? (·.field = field)

end DiagramReadability.CommandLine
