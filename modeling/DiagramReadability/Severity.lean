import DiagramReadability.Config.Basic

/-!
# Severity

How bad a size is, from the three steps that it may reach.
-/

namespace DiagramReadability

inductive Severity where
  | info
  | warning
  | error
deriving Repr, DecidableEq

namespace Severity

def name : Severity → String
  | info => "info"
  | warning => "warning"
  | error => "error"

def worstFirst : List Severity :=
  [error, warning, info]

end Severity

/-- The sizes from which on a diagram is worth a remark, a warning or an error. -/
structure Steps where
  info : Int
  warning : Int
  error : Int
deriving Repr, DecidableEq

/-- The severity of a size, from the sizes at which it becomes one; the worst that it reaches
decides. -/
def Severity.ofSize (info warning error size : Pixels) : Except Fault (Option Severity) := do
  if ← size.reaches error then return some .error
  else if ← size.reaches warning then return some .warning
  else if ← size.reaches info then return some .info
  else return none

def Steps.rate (steps : Steps) (size : Pixels) : Except Fault (Option Severity) :=
  Severity.ofSize (.whole steps.info) (.whole steps.warning) (.whole steps.error) size

namespace Config

/-- A share of the greatest size as a whole number, a half rounded up; what is cut off goes toward
zero. -/
def stepOf (limit : Int) (share : Float) : Except Fault Int := do
  let x ← toReal limit
  return (Number.truncate? (x * share + 0.5)).getD 0

/-- A step as it is set, or the share of the greatest size when it is zero. -/
def stepOr (step limit : Int) (share : Float) : Except Fault Int :=
  if step = 0 then stepOf limit share else .ok step

/-- The steps of one direction.  There are none without a greatest size. -/
def stepsOf (info warning : Int) (limit : Option Int) : Except Fault Steps :=
  match limit with
  | none => .error .absentScaled
  | some limit => do
      let info ← stepOr info limit 0.6
      let warning ← stepOr warning limit 0.8
      return ⟨info, warning, limit⟩

def widthSteps (c : Config) : Except Fault Steps :=
  stepsOf c.widthInfo c.widthWarning c.maxWidth

def heightSteps (c : Config) : Except Fault Steps :=
  stepsOf c.heightInfo c.heightWarning c.maxHeight

end Config

end DiagramReadability
