import DiagramReadability.Pattern

/-!
# Layout recommendations

The direction in which a graph reads best, from its patterns.  Top-down is the default at low
confidence; a sequential graph goes from left to right, unless a hierarchy is seen even more
clearly.
-/

namespace DiagramReadability

structure LayoutAdvice where
  current : Option String
  recommended : String
  reason : String
  confidence : Float
  patterns : List Pattern := []

namespace LayoutAdvice

def standard (current : Option String) : LayoutAdvice where
  current := current
  recommended := Direction.topDown.name
  reason := "Default top-down layout for general diagrams"
  confidence := 0.3

def decideBy (advice : LayoutAdvice) (pattern? : Option Pattern) (direction : Direction)
    (reason : String) : LayoutAdvice :=
  match pattern? with
  | some pattern =>
      if advice.confidence < pattern.confidence then
        { advice with
          recommended := direction.name
          reason := reason
          confidence := pattern.confidence
          patterns := [pattern] }
      else advice
  | none => advice

def lastOf? (kind : PatternKind) (patterns : List Pattern) : Option Pattern :=
  patterns.reverse.find? (·.kind = kind)

/-- The advice that follows from patterns.  Wide branching decides nothing and is added as further
evidence. -/
def ofPatterns (patterns : List Pattern) (current : Option String) : LayoutAdvice :=
  let advice := standard current
    |>.decideBy (lastOf? .sequential patterns) .leftRight
      "Sequential flow pattern detected - left-right layout improves readability"
    |>.decideBy (lastOf? .hierarchical patterns) .topDown
      "Hierarchical structure detected - top-down layout shows hierarchy better"
  { advice with patterns := advice.patterns ++ (lastOf? .wideBranching patterns).toList }

end LayoutAdvice

end DiagramReadability
