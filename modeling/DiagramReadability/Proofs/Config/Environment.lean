import DiagramReadability.Proofs.Config.Layers
import DiagramReadability.Proofs.Config.Order
import DiagramReadability.Proofs.Number.Whole

/-!
# Configurations from the environment

The variables of the fields are read in the order of the fields, and the first one whose text is no
value for its field ends the reading.  Main statement: which of its outcomes the reading has, for
every environment (`ofEnvironment_eq_iff`).
-/

namespace DiagramReadability

/-- The text is written for a number of a kind: for a real number, or for one that is whole. -/
def NumberKind.Reads : (kind : NumberKind) → String → kind.Value → Prop
  | .real, raw, x => Number.readReal? raw = some x
  | .whole, raw, n => ∃ x, Number.readReal? raw = some x ∧ Number.toRational? x = some (n : ℚ)

theorem NumberKind.Reads.unique {kind : NumberKind} {raw : String} {v w : kind.Value}
    (hv : kind.Reads raw v) (hw : kind.Reads raw w) : v = w := by
  cases kind with
  | real => exact Option.some.inj (hv.symm.trans hw)
  | whole =>
    obtain ⟨x, hx, hn⟩ := hv
    obtain ⟨y, hy, hm⟩ := hw
    obtain rfl : x = y := Option.some.inj (hx.symm.trans hy)
    exact_mod_cast Option.some.inj (hn.symm.trans hm)

/-- What is wrong with the text of a variable as a value of a field. -/
inductive Field.Refuses (field : Field) (key raw : String) : ConfigError → Prop where
  | notANumber : Number.readReal? raw = none → field.Refuses key raw (.notANumber key raw)
  | notWhole {x : Float} : field.kind = .whole → Number.readReal? raw = some x →
      (∀ n : Int, Number.toRational? x ≠ some (n : ℚ)) → field.Refuses key raw (.notWhole key raw)

/-- An error about a variable begins with its name. -/
theorem Field.Refuses.names_key {field : Field} {key raw : String} {e : ConfigError}
    (h : field.Refuses key raw e) : key.toList <+: e.message.toList := by
  have hstart : ∀ verdict text : String, key.toList <+: (key ++ verdict ++ text).toList := by
    intro verdict text
    rw [String.toList_append, String.toList_append, List.append_assoc]
    exact List.prefix_append _ _
  cases h with
  | notANumber => exact hstart " must be a number, got " (Text.quoted raw)
  | notWhole => exact hstart " must be a whole number, got " (Text.quoted raw)

theorem Config.readValue_eq_ok_iff {field : Field} {key raw : String} {v : field.kind.Value} :
    Config.readValue field key raw = .ok v ↔ field.kind.Reads raw v := by
  unfold Config.readValue
  generalize field.kind = kind at v
  cases hx : Number.readReal? raw with
  | none => cases kind <;> simp [NumberKind.Reads, hx]
  | some x =>
    cases kind with
    | real => simp [NumberKind.Reads, hx]
    | whole =>
      simp only [NumberKind.Reads, hx, Option.some_inj, exists_eq_left',
        ← Number.toWhole?_eq_some_iff]
      cases Number.toWhole? x <;> simp

theorem Config.readValue_eq_error_iff {field : Field} {key raw : String} {e : ConfigError} :
    Config.readValue field key raw = .error e ↔ field.Refuses key raw e := by
  constructor
  · intro h
    unfold Config.readValue at h
    generalize hkind : field.kind = kind at h
    cases hx : Number.readReal? raw with
    | none =>
      rw [hx] at h
      cases h
      exact .notANumber hx
    | some x =>
      rw [hx] at h
      cases kind with
      | real => cases h
      | whole =>
        dsimp only at h
        cases hn : Number.toWhole? x with
        | some n =>
          rw [hn] at h
          cases h
        | none =>
          rw [hn] at h
          cases h
          refine .notWhole hkind hx fun n hrational => ?_
          rw [← Number.toWhole?_eq_some_iff, hn] at hrational
          cases hrational
  · intro h
    unfold Config.readValue
    cases h with
    | notANumber hx => rw [hx]
    | @notWhole x hkind hx hnone =>
      have hn : Number.toWhole? x = none := by
        rw [Option.eq_none_iff_forall_ne_some]
        intro n hn
        exact hnone n (Number.toWhole?_eq_some_iff.mp hn)
      rw [hx]
      generalize field.kind = kind at hkind
      subst hkind
      dsimp only
      rw [hn]

/-! ## The preset -/

namespace Environment

variable {env : Environment} {keyStart base : String} {preset : Option String}

/-- Where the name of the preset comes from: it is the one that is asked for, unless that is empty,
or the value of its variable, if that is set, or the base. -/
inductive NamesPreset (env : Environment) (keyStart base : String) :
    Option String → String → Prop where
  | asked {name : String} : name ≠ "" → env.NamesPreset keyStart base (some name) name
  | set {preset : Option String} {name : String} : preset = none ∨ preset = some "" →
      env.get? (keyStart ++ "PRESET") = some name → env.NamesPreset keyStart base preset name
  | base {preset : Option String} : preset = none ∨ preset = some "" →
      env.get? (keyStart ++ "PRESET") = none → env.NamesPreset keyStart base preset base

theorem presetNameIn_of_not_asked (h : preset = none ∨ preset = some "") :
    Config.presetNameIn env keyStart base preset = (env.get? (keyStart ++ "PRESET")).getD base := by
  rcases h with rfl | rfl <;> rfl

theorem presetNameIn_of_asked {name : String} (h : name ≠ "") :
    Config.presetNameIn env keyStart base (some name) = name := by
  have hkept : (some name).filter (fun name => !name.isEmpty) = some name := by
    simp [Option.filter, h]
  rw [Config.presetNameIn, hkept]
  rfl

theorem namesPreset_iff {name : String} :
    env.NamesPreset keyStart base preset name ↔
      Config.presetNameIn env keyStart base preset = name := by
  constructor
  · intro h
    cases h with
    | asked hne => exact presetNameIn_of_asked hne
    | set hpreset hset => rw [presetNameIn_of_not_asked hpreset, hset]; rfl
    | base hpreset hunset => rw [presetNameIn_of_not_asked hpreset, hunset]; rfl
  · rintro rfl
    by_cases hpreset : preset = none ∨ preset = some ""
    · rw [presetNameIn_of_not_asked hpreset]
      cases hset : env.get? (keyStart ++ "PRESET") with
      | none => exact .base hpreset hset
      | some name => exact .set hpreset hset
    · rw [not_or] at hpreset
      obtain ⟨name, rfl⟩ := Option.ne_none_iff_exists'.mp hpreset.1
      have hne : name ≠ "" := fun h => hpreset.2 (h ▸ rfl)
      rw [presetNameIn_of_asked hne]
      exact .asked hne

end Environment

theorem Preset.ofName?_eq_some_iff {name : String} {p : Preset} :
    Preset.ofName? name = some p ↔ p.name = name := by
  constructor
  · intro h
    simpa using List.find?_some h
  · rintro rfl
    cases p <;> rfl

theorem Preset.presetName_ne_custom (p : Preset) : p.config.presetName ≠ "custom" := by
  cases p <;> decide

theorem Config.ofPreset_eq {name : String} {p : Preset} (h : p.name = Text.lowerText name) :
    Config.ofPreset name = .ok p.config := by
  unfold Config.ofPreset
  dsimp only
  rw [Preset.ofName?_eq_some_iff.mpr h]

theorem Config.ofPreset_eq_error {name : String} (h : ∀ p : Preset, p.name ≠ Text.lowerText name) :
    Config.ofPreset name = .error (.unknownPreset (Text.lowerText name)) := by
  have hnone : Preset.ofName? (Text.lowerText name) = none := by
    rw [Option.eq_none_iff_forall_ne_some]
    exact fun p hp => h p (Preset.ofName?_eq_some_iff.mp hp)
  unfold Config.ofPreset
  dsimp only
  rw [hnone]

/-! ## The variables of the fields -/

namespace Environment

variable {env : Environment} {keyStart : String} {field : Field}

/-- The variable of a field is set to a text that is no value for the field. -/
def Refused (env : Environment) (keyStart : String) (field : Field) (e : ConfigError) : Prop :=
  ∃ raw, env.get? (field.key keyStart) = some raw ∧ field.Refuses (field.key keyStart) raw e

/-- The error is about the first field, in the order of the fields, whose variable is refused. -/
def FirstRefused (env : Environment) (keyStart : String) (e : ConfigError) : Prop :=
  ∃ before field after, Field.all = before ++ field :: after ∧
    (∀ earlier ∈ before, ∀ e', ¬ env.Refused keyStart earlier e') ∧ env.Refused keyStart field e

theorem isValidFor_iff : env.IsValidFor keyStart field ↔ ∀ e, ¬ env.Refused keyStart field e := by
  constructor
  · rintro h e ⟨raw, hraw, he⟩
    obtain ⟨v, hv⟩ := h raw hraw
    rw [← Config.readValue_eq_error_iff, hv] at he
    cases he
  · intro h raw hraw
    cases hread : Config.readValue field (field.key keyStart) raw with
    | ok v => exact ⟨v, rfl⟩
    | error e => exact absurd ⟨raw, hraw, Config.readValue_eq_error_iff.mp hread⟩ (h e)

theorem overrideFrom_of_refused {e : ConfigError} (h : env.Refused keyStart field e) (c : Config) :
    Config.overrideFrom env keyStart c field = .error e := by
  obtain ⟨raw, hraw, he⟩ := h
  unfold Config.overrideFrom
  dsimp only
  rw [hraw]
  dsimp only
  rw [Config.readValue_eq_error_iff.mpr he]
  rfl

/-- The first variable that is refused ends the reading. -/
theorem foldlM_of_firstRefused {e : ConfigError} (h : env.FirstRefused keyStart e) (c : Config) :
    Field.all.foldlM (Config.overrideFrom env keyStart) c = .error e := by
  obtain ⟨before, field, after, hall, hbefore, hrefused⟩ := h
  -- The fields before the refused one are read without an error, and those after it not at all.
  have hvalid : ∀ earlier ∈ before, env.IsValidFor keyStart earlier :=
    fun earlier hearlier => isValidFor_iff.mpr (hbefore earlier hearlier)
  rw [hall, List.foldlM_append, foldlM_overrideFrom hvalid]
  show List.foldlM (Config.overrideFrom env keyStart) _ (field :: after) = _
  rw [List.foldlM_cons, overrideFrom_of_refused hrefused]
  rfl

theorem exists_firstRefused (h : ∃ field e, env.Refused keyStart field e) :
    ∃ e, env.FirstRefused keyStart e := by
  classical
  obtain ⟨field, hfield⟩ := h
  let refused : Field → Bool := fun field => decide (∃ e, env.Refused keyStart field e)
  have hfound : (Field.all.find? refused).isSome := by
    rw [List.find?_isSome]
    exact ⟨field, field.mem_all, decide_eq_true hfield⟩
  obtain ⟨first, hfirst⟩ := Option.isSome_iff_exists.mp hfound
  obtain ⟨hrefused, before, after, hall, hbefore⟩ := List.find?_eq_some_iff_append.mp hfirst
  obtain ⟨e, he⟩ := of_decide_eq_true hrefused
  refine ⟨e, before, first, after, hall, fun earlier hearlier e' he' => ?_, he⟩
  have hnot := hbefore earlier hearlier
  rw [Bool.not_eq_true', decide_eq_false_iff_not] at hnot
  exact hnot ⟨e', he'⟩

/-! ## The configuration -/

/-- A configuration is what the variables make of a preset: a field holds the value of its variable,
a step without one is to follow from the greatest size if that has a variable, and all else is as in
the preset. -/
structure Resolves (env : Environment) (keyStart : String) (preset c : Config) : Prop where
  given : ∀ {field : Field} {raw : String}, env.get? (field.key keyStart) = some raw →
    ∃ v, field.kind.Reads raw v ∧ c.get field = field.given v
  dropped : ∀ {field greatest : Field}, env.get? (field.key keyStart) = none →
    field.greatest? = some greatest → (env.get? (greatest.key keyStart)).isSome →
    some (c.get field) = field.derived?
  kept : ∀ {field : Field}, env.get? (field.key keyStart) = none →
    (∀ greatest, field.greatest? = some greatest → env.get? (greatest.key keyStart) = none) →
    c.get field = preset.get field
  presetName_eq_custom_iff :
    c.presetName = "custom" ↔ ∃ field : Field, (env.get? (field.key keyStart)).isSome
  presetName_kept :
    (∀ field : Field, env.get? (field.key keyStart) = none) → c.presetName = preset.presetName

theorem Resolves.unique {preset c d : Config} (hc : env.Resolves keyStart preset c)
    (hd : env.Resolves keyStart preset d) : c = d := by
  apply Config.ext_get
  · intro field
    cases hraw : env.get? (field.key keyStart) with
    | some raw =>
      obtain ⟨v, hv, hcv⟩ := hc.given hraw
      obtain ⟨w, hw, hdw⟩ := hd.given hraw
      rw [hcv, hdw, hv.unique hw]
    | none =>
      by_cases hkept : ∀ greatest, field.greatest? = some greatest →
          env.get? (greatest.key keyStart) = none
      · rw [hc.kept hraw hkept, hd.kept hraw hkept]
      · push Not at hkept
        obtain ⟨greatest, hg, hset⟩ := hkept
        have hsome := Option.isSome_iff_ne_none.mpr hset
        exact Option.some.inj ((hc.dropped hraw hg hsome).trans (hd.dropped hraw hg hsome).symm)
  · by_cases hset : ∃ field : Field, (env.get? (field.key keyStart)).isSome
    · rw [hc.presetName_eq_custom_iff.mpr hset, hd.presetName_eq_custom_iff.mpr hset]
    · simp only [not_exists, Option.not_isSome_iff_eq_none] at hset
      rw [hc.presetName_kept hset, hd.presetName_kept hset]

theorem layer_eq_none (h : env.get? (field.key keyStart) = none) :
    env.layer keyStart field = none := by
  rw [layer, h]
  rfl

theorem exists_layer_eq {raw : String} (hvalid : env.IsValidFor keyStart field)
    (h : env.get? (field.key keyStart) = some raw) :
    ∃ v, field.kind.Reads raw v ∧ env.layer keyStart field = some (field.given v) := by
  obtain ⟨v, hv⟩ := hvalid raw h
  refine ⟨v, Config.readValue_eq_ok_iff.mp hv, ?_⟩
  rw [layer, h, Option.bind_some, hv]
  rfl

theorem isSome_layer (hvalid : env.IsValidFor keyStart field) :
    (env.layer keyStart field).isSome = (env.get? (field.key keyStart)).isSome := by
  cases h : env.get? (field.key keyStart) with
  | none => rw [layer_eq_none h]; rfl
  | some raw =>
    obtain ⟨v, -, hv⟩ := exists_layer_eq hvalid h
    rw [hv]
    rfl

theorem resolves_foldl_override {preset : Config} (hname : preset.presetName ≠ "custom")
    (hvalid : ∀ field, env.IsValidFor keyStart field) :
    env.Resolves keyStart preset
      (((env.layer keyStart).settings Field.all).foldl Config.override preset) := by
  -- In the order of the fields a greatest size comes before its steps and cannot undo them.
  have hget : ∀ field,
      (((env.layer keyStart).settings Field.all).foldl Config.override preset).get field =
        ((env.layer keyStart).effect? field).getD (preset.get field) := by
    intro field
    rw [Config.get_foldl_override, Layer.lastEffect?_settings _ Field.all_order, Layer.on_all]
  have hnil : (env.layer keyStart).settings Field.all = [] ↔
      ∀ field : Field, env.get? (field.key keyStart) = none := by
    simp only [Layer.settings, List.filterMap_eq_nil_iff, Option.map_eq_none_iff]
    refine ⟨fun h field => ?_, fun h field _ => layer_eq_none (h field)⟩
    rw [← Option.not_isSome_iff_eq_none, ← isSome_layer (hvalid field), h field field.mem_all]
    exact Bool.false_ne_true
  have hpreset := Config.presetName_foldl_override preset ((env.layer keyStart).settings Field.all)
  constructor
  · intro field raw hraw
    obtain ⟨v, hv, hlayer⟩ := exists_layer_eq (hvalid field) hraw
    refine ⟨v, hv, ?_⟩
    rw [hget, Layer.effect?, hlayer]
    rfl
  · intro field greatest hraw hg hset
    obtain ⟨zero, hzero⟩ := Field.exists_derived hg
    rw [← isSome_layer (hvalid greatest)] at hset
    rw [hget, Layer.effect?, layer_eq_none hraw, Layer.dropped?_of_greatest hg, if_pos hset, hzero]
    rfl
  · intro field hraw hkept
    have hdropped : (env.layer keyStart).dropped? field = none :=
      Layer.dropped?_eq_none fun greatest hg => layer_eq_none (hkept greatest hg)
    rw [hget, Layer.effect?, layer_eq_none hraw, hdropped]
    rfl
  · rw [hpreset]
    split
    next hempty =>
      refine iff_of_false hname ?_
      rintro ⟨field, hset⟩
      rw [hnil.mp hempty field] at hset
      exact Bool.false_ne_true hset
    next hsome =>
      rw [hnil, not_forall] at hsome
      obtain ⟨field, hset⟩ := hsome
      exact iff_of_true rfl ⟨field, Option.isSome_iff_ne_none.mpr hset⟩
  · intro hunset
    rw [hpreset, if_pos (hnil.mpr hunset)]

/-! ## The outcome -/

/-- What reading a configuration comes to: no such preset, a variable that is refused, or a
configuration. -/
inductive Yields (env : Environment) (keyStart base : String) (preset : Option String) :
    Except ConfigError Config → Prop where
  | unknownPreset {name : String} : env.NamesPreset keyStart base preset name →
      (∀ p : Preset, p.name ≠ Text.lowerText name) →
      env.Yields keyStart base preset (.error (.unknownPreset (Text.lowerText name)))
  | refused {name : String} {p : Preset} {e : ConfigError} :
      env.NamesPreset keyStart base preset name → p.name = Text.lowerText name →
      env.FirstRefused keyStart e → env.Yields keyStart base preset (.error e)
  | resolved {name : String} {p : Preset} {c : Config} :
      env.NamesPreset keyStart base preset name → p.name = Text.lowerText name →
      (∀ field e, ¬ env.Refused keyStart field e) → env.Resolves keyStart p.config c →
      env.Yields keyStart base preset (.ok c)

variable {base : String} {preset : Option String}

theorem Yields.ofEnvironment_eq {outcome : Except ConfigError Config}
    (h : env.Yields keyStart base preset outcome) :
    Config.ofEnvironment env keyStart base preset = outcome := by
  unfold Config.ofEnvironment
  cases h with
  | unknownPreset hname hnone =>
    rw [namesPreset_iff.mp hname, Config.ofPreset_eq_error hnone]
    rfl
  | refused hname hp hfirst =>
    rw [namesPreset_iff.mp hname, Config.ofPreset_eq hp]
    exact foldlM_of_firstRefused hfirst _
  | @resolved name p c hname hp hnone hc =>
    have hvalid : ∀ field, env.IsValidFor keyStart field :=
      fun field => isValidFor_iff.mpr (hnone field)
    have hresolves := resolves_foldl_override p.presetName_ne_custom hvalid
    rw [namesPreset_iff.mp hname, Config.ofPreset_eq hp, ← hresolves.unique hc]
    exact foldlM_overrideFrom (fun field _ => hvalid field) _

variable (env keyStart base preset) in
theorem exists_yields : ∃ outcome, env.Yields keyStart base preset outcome := by
  have hname := namesPreset_iff.mpr (Eq.refl (Config.presetNameIn env keyStart base preset))
  by_cases hp : ∃ p : Preset, p.name = Text.lowerText (Config.presetNameIn env keyStart base preset)
  · obtain ⟨p, hp⟩ := hp
    by_cases hrefused : ∃ field e, env.Refused keyStart field e
    · obtain ⟨e, he⟩ := exists_firstRefused hrefused
      exact ⟨.error e, .refused hname hp he⟩
    · have hnone : ∀ field e, ¬ env.Refused keyStart field e :=
        fun field e he => hrefused ⟨field, e, he⟩
      have hvalid : ∀ field, env.IsValidFor keyStart field :=
        fun field => isValidFor_iff.mpr (hnone field)
      exact ⟨.ok _, .resolved hname hp hnone
        (resolves_foldl_override p.presetName_ne_custom hvalid)⟩
  · exact ⟨.error _, .unknownPreset hname fun p h => hp ⟨p, h⟩⟩

end Environment

/-- Reading a configuration from an environment always has exactly one of its three outcomes, and an
error about a variable begins with the variable's name. -/
theorem Config.ofEnvironment_eq_iff (env : Environment) (keyStart base : String)
    (preset : Option String) :
    (∀ outcome, Config.ofEnvironment env keyStart base preset = outcome ↔
        env.Yields keyStart base preset outcome) ∧
      ∀ field e, env.Refused keyStart field e →
        (field.key keyStart).toList <+: e.message.toList := by
  constructor
  · intro outcome
    constructor
    · rintro rfl
      obtain ⟨outcome, houtcome⟩ := Environment.exists_yields env keyStart base preset
      rw [houtcome.ofEnvironment_eq]
      exact houtcome
    · exact Environment.Yields.ofEnvironment_eq
  · rintro field e ⟨raw, -, he⟩
    exact he.names_key

/-- The order of the fields counts, not that of the variables. -/
example : Config.ofEnvironment [("M_WIDTH_INFO", "wide"), ("M_MAX_HEIGHT", "tall")] "M_" "default"
    none = .error (.notANumber "M_MAX_HEIGHT" "tall") := by
  rfl

end DiagramReadability
