import DiagramReadability.Config.Basic

/-!
# Runs of settings

A setting changes its own field and, if that is a greatest size, takes away the steps below it; it
leaves every other field alone.  After any number of settings, a field holds what the last one that
touched it has left there.
-/

namespace DiagramReadability

namespace Field

/-- The greatest size that a field is a step below. -/
def greatest? : Field → Option Field
  | widthInfo | widthWarning => some maxWidth
  | heightInfo | heightWarning => some maxHeight
  | maxWidth | maxHeight | charWidth | nodeSpacing | nodeHeight | verticalSpacing
  | chainLimitHorizontal | chainLimitVertical | layoutMinConfidence | componentThreshold
  | sequentialRatio | hierarchicalAverage | hierarchicalDepth | wideChildren
  | reconvergenceRatio => none

/-- What a step holds when it is to follow from the greatest size. -/
def derived? : (field : Field) → Option field.Value
  | widthInfo | widthWarning | heightInfo | heightWarning => some (0 : Int)
  | maxWidth | maxHeight | charWidth | nodeSpacing | nodeHeight | verticalSpacing
  | chainLimitHorizontal | chainLimitVertical | layoutMinConfidence | componentThreshold
  | sequentialRatio | hierarchicalAverage | hierarchicalDepth | wideChildren
  | reconvergenceRatio => none

/-- What is left of a field when `changed` gets another value, if that takes the old one away. -/
def dropped? (changed field : Field) : Option field.Value :=
  if field.greatest? = some changed then field.derived? else none

theorem greatest?_ne_self (field : Field) : field.greatest? ≠ some field := by
  cases field <;> decide

theorem exists_derived {field greatest : Field} (h : field.greatest? = some greatest) :
    ∃ v, field.derived? = some v := by
  cases field <;> first | exact ⟨_, rfl⟩ | cases h

theorem dropped?_of_ne {changed field : Field} (h : field.greatest? ≠ some changed) :
    dropped? changed field = none :=
  if_neg h

end Field

namespace Setting

/-- The value of a setting as one of `field`, if it belongs to that field. -/
def valueOf? (s : Setting) (field : Field) : Option field.Value :=
  if h : s.field = field then some (h ▸ s.value) else none

/-- What a setting leaves in a field, if it touches the field. -/
def effect? (s : Setting) (field : Field) : Option field.Value :=
  (s.valueOf? field).or (Field.dropped? s.field field)

theorem effect?_self (field : Field) (v : field.Value) :
    (Setting.mk field v).effect? field = some v := by
  rw [effect?, valueOf?, dif_pos rfl]
  rfl

theorem effect?_of_ne {changed field : Field} (h : changed ≠ field) (v : changed.Value) :
    (Setting.mk changed v).effect? field = Field.dropped? changed field := by
  rw [effect?, valueOf?, dif_neg h]
  rfl

/-- What the last of several settings that touches a field leaves there. -/
def lastEffect? (settings : List Setting) (field : Field) : Option field.Value :=
  settings.reverse.findSome? fun s => s.effect? field

theorem lastEffect?_append (earlier later : List Setting) (field : Field) :
    lastEffect? (earlier ++ later) field =
      (lastEffect? later field).or (lastEffect? earlier field) := by
  rw [lastEffect?, List.reverse_append, List.findSome?_append]
  rfl

theorem lastEffect?_singleton (s : Setting) (field : Field) :
    lastEffect? [s] field = s.effect? field := by
  unfold lastEffect?
  rw [List.reverse_singleton, List.findSome?_cons]
  cases s.effect? field <;> rfl

end Setting

namespace Config

/-- A configuration is what its fields hold and the name of its preset. -/
theorem ext_get {c d : Config} (hget : ∀ field, c.get field = d.get field)
    (hname : c.presetName = d.presetName) : c = d := by
  obtain ⟨⟩ := c
  obtain ⟨⟩ := d
  rw [Config.mk.injEq]
  exact ⟨hget .maxWidth, hget .maxHeight, hget .widthInfo, hget .widthWarning, hget .heightInfo,
    hget .heightWarning, hget .charWidth, hget .nodeSpacing, hget .nodeHeight,
    hget .verticalSpacing, hget .chainLimitHorizontal, hget .chainLimitVertical,
    hget .layoutMinConfidence, hget .componentThreshold, hget .sequentialRatio,
    hget .hierarchicalAverage, hget .hierarchicalDepth, hget .wideChildren,
    hget .reconvergenceRatio, hname⟩

theorem get_dropSteps (c : Config) (changed field : Field) :
    (c.dropSteps changed).get field = (Field.dropped? changed field).getD (c.get field) := by
  cases changed <;> cases field <;> rfl

/-- The name of the preset is no field. -/
theorem get_withPresetName (c : Config) (name : String) (field : Field) :
    ({ c with presetName := name } : Config).get field = c.get field := by
  cases field <;> rfl

/-- One setting on top of a configuration. -/
theorem get_override (c : Config) (s : Setting) (field : Field) :
    (c.override s).get field = (s.effect? field).getD (c.get field) := by
  obtain ⟨changed, v⟩ := s
  unfold override
  rw [get_withPresetName, get_dropSteps]
  by_cases h : changed = field
  · subst h
    rw [Setting.effect?_self, Field.dropped?_of_ne changed.greatest?_ne_self, get_set_self]
    rfl
  · rw [Setting.effect?_of_ne h, get_set_of_ne c v (Ne.symm h)]

/-- Any number of settings on top of a configuration. -/
theorem get_foldl_override (c : Config) (settings : List Setting) (field : Field) :
    (settings.foldl override c).get field =
      (Setting.lastEffect? settings field).getD (c.get field) := by
  induction settings generalizing c with
  | nil => rfl
  | cons s settings ih =>
    rw [List.foldl_cons, ih, get_override, ← List.singleton_append, Setting.lastEffect?_append,
      Setting.lastEffect?_singleton]
    cases Setting.lastEffect? settings field <;> rfl

end Config

end DiagramReadability
