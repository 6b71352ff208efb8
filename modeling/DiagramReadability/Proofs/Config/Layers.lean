import DiagramReadability.CommandLine.Run
import DiagramReadability.Proofs.Config.Override
import Mathlib

/-!
# Layers of a configuration

The environment lies over the preset and the command line lies over both.  What is set on the
command line holds, and else what is set in the environment, with one exception: a greatest size on
the command line takes away the steps below it wherever they come from, also those that the
environment has set.
-/

namespace DiagramReadability

/-- Values for some of the fields. -/
abbrev Layer := (field : Field) → Option field.Value

namespace Layer

/-- The part of a layer that is about some fields. -/
def on (layer : Layer) (fields : List Field) : Layer := fun field =>
  if field ∈ fields then layer field else none

/-- The settings of a layer for some fields, in their order. -/
def settings (layer : Layer) (fields : List Field) : List Setting :=
  fields.filterMap fun field => (layer field).map fun v => ⟨field, v⟩

/-- What a step holds when the layer sets the greatest size that it is below. -/
def dropped? (layer : Layer) (field : Field) : Option field.Value :=
  field.greatest?.bind fun greatest => if (layer greatest).isSome then field.derived? else none

/-- What a layer leaves in a field, if it touches the field. -/
def effect? (layer : Layer) (field : Field) : Option field.Value :=
  (layer field).or (layer.dropped? field)

theorem on_of_mem {layer : Layer} {fields : List Field} {field : Field} (h : field ∈ fields) :
    layer.on fields field = layer field :=
  if_pos h

theorem on_of_not_mem {layer : Layer} {fields : List Field} {field : Field} (h : field ∉ fields) :
    layer.on fields field = none :=
  if_neg h

theorem on_cons_of_ne {layer : Layer} {fields : List Field} {first field : Field}
    (h : field ≠ first) : layer.on (first :: fields) field = layer.on fields field := by
  unfold on
  simp only [List.mem_cons, h, false_or]

theorem dropped?_eq_none {layer : Layer} {field : Field}
    (h : ∀ greatest, field.greatest? = some greatest → layer greatest = none) :
    layer.dropped? field = none := by
  unfold dropped?
  cases hg : field.greatest? with
  | none => rfl
  | some greatest =>
    rw [Option.bind_some, h greatest hg]
    rfl

theorem dropped?_of_greatest {layer : Layer} {field greatest : Field}
    (h : field.greatest? = some greatest) :
    layer.dropped? field = if (layer greatest).isSome then field.derived? else none := by
  rw [dropped?, h, Option.bind_some]

theorem settings_cons (layer : Layer) (first : Field) (fields : List Field) :
    layer.settings (first :: fields) =
      ((layer first).map (Setting.mk first)).toList ++ layer.settings fields := by
  unfold settings
  rw [List.filterMap_cons]
  cases layer first <;> rfl

theorem lastEffect?_toList (layer : Layer) (first field : Field) :
    Setting.lastEffect? ((layer first).map (Setting.mk first)).toList field =
      (layer first).bind fun v => (Setting.mk first v).effect? field := by
  cases layer first with
  | none => rfl
  | some v => exact Setting.lastEffect?_singleton _ field

section Order

variable {layer : Layer} {fields : List Field} {first field : Field}

/-- Fields that are neither the field itself nor its greatest size do not touch it. -/
theorem effect?_on_eq_none
    (h : ∀ later ∈ fields, field ≠ later ∧ field.greatest? ≠ some later) :
    (layer.on fields).effect? field = none := by
  have hself : field ∉ fields := fun hmem => (h field hmem).1 rfl
  have hdropped : (layer.on fields).dropped? field = none := by
    apply dropped?_eq_none
    intro greatest hg
    exact on_of_not_mem fun hmem => (h greatest hmem).2 hg
  rw [effect?, on_of_not_mem hself, hdropped]
  rfl

theorem effect?_on_cons_self
    (h : ∀ later ∈ fields, field ≠ later ∧ field.greatest? ≠ some later) :
    (layer.on (field :: fields)).effect? field = layer field := by
  have hdropped : (layer.on (field :: fields)).dropped? field = none := by
    apply dropped?_eq_none
    intro greatest hg
    apply on_of_not_mem
    rw [List.mem_cons]
    rintro (rfl | hmem)
    · exact greatest.greatest?_ne_self hg
    · exact (h greatest hmem).2 hg
  rw [effect?, on_of_mem List.mem_cons_self, hdropped, Option.or_none]

/-- A greatest size in front takes a step away unless that is set behind it. -/
theorem effect?_on_cons_greatest (hne : field ≠ first) (hg : field.greatest? = some first)
    (hfirst : first ∉ fields) :
    (layer.on (first :: fields)).effect? field =
      ((layer.on fields).effect? field).or ((layer first).bind fun _ => field.derived?) := by
  rw [effect?, effect?, dropped?_of_greatest hg, dropped?_of_greatest hg, on_cons_of_ne hne,
    on_of_not_mem hfirst, on_of_mem List.mem_cons_self]
  cases layer first <;> simp

theorem effect?_on_cons_of_ne (hne : field ≠ first) (hg : field.greatest? ≠ some first) :
    (layer.on (first :: fields)).effect? field = (layer.on fields).effect? field := by
  have hdropped : (layer.on (first :: fields)).dropped? field =
      (layer.on fields).dropped? field := by
    unfold dropped?
    cases hgreatest : field.greatest? with
    | none => rfl
    | some greatest =>
      have hother : greatest ≠ first := by
        rintro rfl
        exact hg hgreatest
      rw [Option.bind_some, Option.bind_some, on_cons_of_ne hother]
  rw [effect?, effect?, on_cons_of_ne hne, hdropped]

end Order

/-- If every greatest size is set before the steps below it, the settings of a layer do not take
away what the layer itself has set. -/
theorem lastEffect?_settings (layer : Layer) {fields : List Field}
    (horder : fields.Pairwise fun first later => first ≠ later ∧ first.greatest? ≠ some later)
    (field : Field) :
    Setting.lastEffect? (layer.settings fields) field = (layer.on fields).effect? field := by
  induction fields with
  | nil => exact (effect?_on_eq_none fun _ h => absurd h List.not_mem_nil).symm
  | cons first fields ih =>
    rw [List.pairwise_cons] at horder
    rw [settings_cons, Setting.lastEffect?_append, ih horder.2, lastEffect?_toList]
    by_cases hself : field = first
    · subst hself
      rw [effect?_on_eq_none horder.1, effect?_on_cons_self horder.1]
      cases layer field with
      | none => rfl
      | some v => exact Setting.effect?_self field v
    · have heffect : ∀ v : first.Value,
          (Setting.mk first v).effect? field = Field.dropped? first field :=
        Setting.effect?_of_ne (Ne.symm hself)
      simp only [heffect]
      by_cases hg : field.greatest? = some first
      · have hfirst : first ∉ fields := fun h => (horder.1 first h).1 rfl
        rw [effect?_on_cons_greatest hself hg hfirst, Field.dropped?, if_pos hg]
      · rw [effect?_on_cons_of_ne hself hg, Field.dropped?_of_ne hg]
        cases layer first <;> simp

end Layer

theorem Field.all_order :
    Field.all.Pairwise fun first later => first ≠ later ∧ first.greatest? ≠ some later := by
  decide

theorem Field.mem_all (field : Field) : field ∈ Field.all := by
  cases field <;> decide

theorem Layer.on_all (layer : Layer) : layer.on Field.all = layer := by
  funext field
  exact Layer.on_of_mem field.mem_all

/-! ## The environment -/

namespace Environment

/-- The values that an environment gives to fields. -/
def layer (env : Environment) (keyStart : String) : Layer := fun field =>
  (env.get? (field.key keyStart)).bind fun raw =>
    (Config.readValue field (field.key keyStart) raw).toOption.map field.given

/-- The variable of every field, if it is set, can be read. -/
def IsValid (env : Environment) (keyStart : String) : Prop :=
  ∀ (field : Field) (raw : String), env.get? (field.key keyStart) = some raw →
    ∃ v, Config.readValue field (field.key keyStart) raw = .ok v

variable {env : Environment} {keyStart : String}

/-- Whole numbers can be values of every field. -/
theorem isValid_of_whole
    (h : ∀ entry ∈ env, ((Number.readReal? entry.2).bind Number.toWhole?).isSome) :
    env.IsValid keyStart := by
  intro field raw hraw
  have hentry : (field.key keyStart, raw) ∈ env := by
    obtain ⟨before, after, henv, -⟩ := List.lookup_eq_some_iff.mp hraw
    rw [henv]
    simp
  obtain ⟨n, hn⟩ := Option.isSome_iff_exists.mp (h _ hentry)
  obtain ⟨x, hx, hwhole⟩ := Option.bind_eq_some_iff.mp hn
  unfold Config.readValue
  rw [hx]
  cases field.kind with
  | whole => exact ⟨n, by simp only [hwhole]⟩
  | real => exact ⟨x, rfl⟩

/-- The variable of a field, if it is set, can be read. -/
def IsValidFor (env : Environment) (keyStart : String) (field : Field) : Prop :=
  ∀ raw, env.get? (field.key keyStart) = some raw →
    ∃ v, Config.readValue field (field.key keyStart) raw = .ok v

theorem IsValidFor.overrideFrom {field : Field} (h : env.IsValidFor keyStart field) (c : Config) :
    Config.overrideFrom env keyStart c field =
      .ok ((env.layer keyStart).settings [field] |>.foldl Config.override c) := by
  rw [Layer.settings_cons]
  unfold Config.overrideFrom layer
  dsimp only
  cases hraw : env.get? (field.key keyStart) with
  | none => rfl
  | some raw =>
    obtain ⟨v, hv⟩ := h raw hraw
    dsimp only [Option.bind_some]
    rw [hv]
    rfl

theorem foldlM_overrideFrom {fields : List Field}
    (h : ∀ field ∈ fields, env.IsValidFor keyStart field) (c : Config) :
    fields.foldlM (Config.overrideFrom env keyStart) c =
      .ok ((env.layer keyStart).settings fields |>.foldl Config.override c) := by
  induction fields generalizing c with
  | nil => rfl
  | cons field fields ih =>
    rw [List.forall_mem_cons] at h
    rw [List.foldlM_cons, h.1.overrideFrom]
    show List.foldlM (Config.overrideFrom env keyStart) _ fields = _
    rw [ih h.2, ← List.foldl_append]
    congr 2
    rw [Layer.settings_cons, Layer.settings_cons, List.append_assoc]
    rfl

theorem IsValid.foldlM (h : env.IsValid keyStart) (c : Config) (fields : List Field) :
    fields.foldlM (Config.overrideFrom env keyStart) c =
      .ok ((env.layer keyStart).settings fields |>.foldl Config.override c) :=
  foldlM_overrideFrom (fun field _ => h field) c

end Environment

/-! ## The command line -/

namespace CommandLine

/-- The values that a command line gives to the fields that have an option. -/
def Arguments.layer (a : Arguments) : Layer :=
  Layer.on (fun field => (a.settingOf? field).bind fun s => s.valueOf? field) settableFields

theorem Arguments.settings_layer (a : Arguments) :
    settableFields.filterMap a.settingOf? = a.layer.settings settableFields := by
  unfold Layer.settings
  apply List.filterMap_congr
  intro field hfield
  rw [layer, Layer.on_of_mem hfield]
  cases hs : a.settingOf? field with
  | none => rfl
  | some s =>
    obtain ⟨changed, v⟩ := s
    have hchanged : changed = field := by
      simpa using List.find?_some hs
    subst hchanged
    rw [Option.bind_some, Setting.valueOf?, dif_pos rfl]
    rfl

theorem Arguments.layer_on (a : Arguments) : a.layer.on settableFields = a.layer := by
  funext field
  by_cases h : field ∈ settableFields
  · exact Layer.on_of_mem h
  · rw [Layer.on_of_not_mem h, layer, Layer.on_of_not_mem h]

theorem settableFields_order :
    settableFields.Pairwise fun first later => first ≠ later ∧ first.greatest? ≠ some later := by
  decide

end CommandLine

/-! ## All layers -/

open CommandLine (Arguments configOf settableFields)

/-- What a field holds if every layer gives way to what the layers above it set: the command line,
the environment, what follows from a greatest size that either of them sets, the preset. -/
def Config.layered (preset : Config) (env cli : Layer) (field : Field) : field.Value :=
  ((cli field).or ((env field).or ((cli.dropped? field).or (env.dropped? field)))).getD
    (preset.get field)

/-- The configuration of a run is that of its preset under the effects of both layers. -/
theorem configOf_effects {env : Environment} {a : Arguments} {preset : Preset}
    (hpreset : Preset.ofName? (Text.lowerText (Config.presetNameIn env standardKeyStart
      Preset.standard.name a.preset)) = some preset)
    (hvalid : env.IsValid standardKeyStart) :
    ∃ c, configOf env a = .ok c ∧ ∀ field, c.get field =
      ((a.layer.effect? field).or ((env.layer standardKeyStart).effect? field)).getD
        (preset.config.get field) := by
  have hstart : Config.ofPreset (Config.presetNameIn env standardKeyStart Preset.standard.name
      a.preset) = .ok preset.config := by
    unfold Config.ofPreset
    dsimp only
    rw [hpreset]
  have henv : Config.ofEnvironment env standardKeyStart Preset.standard.name a.preset =
      .ok (((env.layer standardKeyStart).settings Field.all).foldl Config.override
        preset.config) := by
    unfold Config.ofEnvironment
    rw [hstart, ← hvalid.foldlM]
    rfl
  refine ⟨a.configure (((env.layer standardKeyStart).settings Field.all).foldl Config.override
    preset.config), ?_, fun field => ?_⟩
  · unfold configOf
    rw [henv]
    rfl
  · -- both layers together are one run of settings, the command line's behind the environment's
    unfold Arguments.configure
    rw [a.settings_layer, ← List.foldl_append, Config.get_foldl_override,
      Setting.lastEffect?_append, Layer.lastEffect?_settings _ CommandLine.settableFields_order,
      Layer.lastEffect?_settings _ Field.all_order, a.layer_on, Layer.on_all]

theorem CommandLine.Arguments.layer_of_greatest (a : Arguments) {field greatest : Field}
    (h : field.greatest? = some greatest) : a.layer field = none := by
  -- no step has an option of its own
  have hoption : field ∉ settableFields := by
    revert h
    cases field <;> decide +revert
  exact Layer.on_of_not_mem hoption

/-- Every layer of a run gives way to the layers above it, and what is set nowhere comes from the
preset or, if it is a step and its greatest size is set, from that size.  But a greatest size on the
command line takes away its steps in all layers. -/
theorem configOf_layers {env : Environment} {a : Arguments} {preset : Preset}
    (hpreset : Preset.ofName? (Text.lowerText (Config.presetNameIn env standardKeyStart
      Preset.standard.name a.preset)) = some preset)
    (hvalid : env.IsValid standardKeyStart) :
    ∃ c, configOf env a = .ok c ∧ ∀ field,
      ((∀ greatest, field.greatest? = some greatest → a.layer greatest = none) ∨
          env.layer standardKeyStart field = none →
        c.get field = preset.config.layered (env.layer standardKeyStart) a.layer field) ∧
      ∀ greatest, field.greatest? = some greatest → (a.layer greatest).isSome →
        some (c.get field) = field.derived? := by
  obtain ⟨c, hc, hget⟩ := configOf_effects hpreset hvalid
  refine ⟨c, hc, fun field => ⟨fun hkept => ?_, fun greatest hg hcli => ?_⟩⟩
  · rw [hget, Config.layered, Layer.effect?, Layer.effect?]
    rcases hkept with hcli | henv
    · -- the command line takes nothing away
      rw [Layer.dropped?_eq_none hcli, Option.or_none, Option.none_or]
    · -- there is nothing in the environment that it could take away
      rw [henv, Option.none_or, Option.none_or, Option.or_assoc]
  · have hdropped : a.layer.dropped? field = field.derived? := by
      rw [Layer.dropped?_of_greatest hg, if_pos hcli]
    obtain ⟨v, hv⟩ : ∃ v, field.derived? = some v := by
      cases field <;> first | exact ⟨_, rfl⟩ | cases hg
    rw [hget, Layer.effect?, a.layer_of_greatest hg, Option.none_or, hdropped, hv]
    rfl

theorem configOf_layers_of_three :
    let env : Environment :=
      [("MERMAID_READABILITY_MAX_WIDTH", "1000"), ("MERMAID_READABILITY_WIDTH_INFO", "500")]
    let a : Arguments := { paths := ["d.mmd"], settings := [⟨.maxHeight, some 900⟩] }
    ∃ c, configOf env a = .ok c ∧ c.maxWidth = some 1000 ∧ c.widthInfo = 500 ∧
      c.widthWarning = 0 ∧ c.maxHeight = some 900 ∧ c.heightInfo = 0 ∧
      c.chainLimitVertical = some 12 := by
  intro env a
  have hpreset : Preset.ofName? (Text.lowerText (Config.presetNameIn env standardKeyStart
      Preset.standard.name a.preset)) = some .standard := by
    decide
  have hvalid : env.IsValid standardKeyStart :=
    Environment.isValid_of_whole (by decide)
  obtain ⟨c, hc, hget⟩ := configOf_layers hpreset hvalid
  have hmaxHeight : ∀ greatest, greatest ≠ .maxHeight → a.layer greatest = none := by
    intro greatest
    cases greatest <;> decide
  have hlayered : ∀ field, field.greatest? ≠ some .maxHeight ∨
      env.layer standardKeyStart field = none → c.get field =
        Preset.standard.config.layered (env.layer standardKeyStart) a.layer field := by
    rintro field (hg | henv)
    · refine (hget field).1 (.inl fun greatest h => hmaxHeight greatest ?_)
      rintro rfl
      exact hg h
    · exact (hget field).1 (.inr henv)
  exact ⟨c, hc, (hlayered .maxWidth (by decide)).trans (by decide),
    (hlayered .widthInfo (by decide)).trans (by decide),
    (hlayered .widthWarning (by decide)).trans (by decide),
    (hlayered .maxHeight (by decide)).trans (by decide),
    (hlayered .heightInfo (by decide)).trans (by decide),
    (hlayered .chainLimitVertical (by decide)).trans (by decide)⟩

/-- A greatest size on the command line takes away a step that was set in the environment. -/
theorem step_of_environment_dropped :
    let env : Environment := [("MERMAID_READABILITY_WIDTH_INFO", "500")]
    env.IsValid standardKeyStart ∧ env.layer standardKeyStart .widthInfo = some (500 : Int) ∧
      ∃ a c, Arguments.read ["--max-width", "1600", "d.mmd"] = .ok a ∧ a.layer .widthInfo = none ∧
        configOf env a = .ok c ∧ c.widthInfo = 0 ∧ Preset.standard.config.layered
          (env.layer standardKeyStart) a.layer .widthInfo = (500 : Int) := by
  intro env
  have hvalid : env.IsValid standardKeyStart :=
    Environment.isValid_of_whole (by decide)
  let a : Arguments := { paths := ["d.mmd"], settings := [⟨.maxWidth, some 1600⟩] }
  have hpreset : Preset.ofName? (Text.lowerText (Config.presetNameIn env standardKeyStart
      Preset.standard.name a.preset)) = some .standard := by
    decide
  obtain ⟨c, hc, hget⟩ := configOf_effects hpreset hvalid
  refine ⟨hvalid, by decide, a, c, by cbv, by decide, hc, ?_, by decide⟩
  have hzero := hget .widthInfo
  rw [show a.layer.effect? .widthInfo = some (0 : Int) by decide] at hzero
  exact hzero

end DiagramReadability
