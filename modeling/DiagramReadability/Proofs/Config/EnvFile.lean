import DiagramReadability.Config.EnvFile
import DiagramReadability.Proofs.Graph.Steps
import Mathlib

/-!
# Environments keep what they have

The variables of a file are added to an environment one after the other, and each of them only if
the environment does not have it yet.  The values of the file refer to the environment and so may
differ when it is read again, but which variables have a value does not change, and these are all
there after the first time.  Main statement: whatever a file holds, adding it leaves what was there,
and adding it again leaves everything (`addText_extends`).
-/

namespace DiagramReadability

/-! ## What a file gives -/

namespace EnvFile

/-- What is known of the values of a file in one environment or the other: a variable is given once,
and the environment decides what a value is, but not whether there is one. -/
structure Reading where
  values : Environment → Given
  nodup : ∀ env, ((values env).map Prod.fst).Nodup
  exists_value : ∀ {env key value}, (key, some value) ∈ values env →
    ∀ other, ∃ value', (key, some value') ∈ values other

theorem lookup_map_snd {β γ : Type} (f : β → γ) (l : List (String × β)) (key : String) :
    (l.map fun e => (e.1, f e.2)).lookup key = (l.lookup key).map f := by
  rw [List.lookup_eq_findSome?, List.lookup_eq_findSome?, List.findSome?_map, List.map_findSome?]
  congr 1
  funext e
  by_cases h : key = e.1 <;> simp [h]

/-- References are replaced in values only. -/
theorem map_isSome_giveAll (env : Environment) (given : Given) (bindings : List Binding) :
    (giveAll env given bindings).map (fun e => (e.1, e.2.isSome)) =
      (bindings.map fun b => (String.ofList b.key, b.value.isSome)).reverse ++
        given.map fun e => (e.1, e.2.isSome) := by
  induction bindings generalizing given with
  | nil => rfl
  | cons b rest ih =>
    rw [giveAll, ih, List.map_cons, List.map_cons, List.reverse_cons, List.append_assoc,
      Option.isSome_map]
    rfl

theorem mem_values_iff {env : Environment} {text key value : String} :
    (key, some value) ∈ values env text ↔
      (giveAll env [] (bindings text.toList)).lookup key = some (some value) := by
  rw [values, List.mem_map]
  simp only [List.mem_eraseDups, List.map_reverse, List.mem_reverse, Prod.mk.injEq]
  constructor
  · rintro ⟨other, -, rfl, hvalue⟩
    cases hlookup : (giveAll env [] (bindings text.toList)).lookup other with
    | none => simp [hlookup] at hvalue
    | some found =>
      rw [hlookup, Option.getD_some] at hvalue
      rw [hvalue]
  · intro hlookup
    obtain ⟨before, after, heq, -⟩ := List.lookup_eq_some_iff.mp hlookup
    refine ⟨key, ?_, rfl, ?_⟩
    · rw [heq]
      simp
    · rw [hlookup, Option.getD_some]

/-- The values of a text. -/
def reading (text : String) : Reading where
  values env := values env text
  nodup env := by
    have hkeys : (values env text).map Prod.fst =
        ((giveAll env [] (bindings text.toList)).reverse.map Prod.fst).eraseDups := by
      rw [values, List.map_map]
      exact List.map_id _
    rw [hkeys]
    exact Graph.nodup_eraseDups _
  exists_value {env key value} h other := by
    have hsame : (giveAll other [] (bindings text.toList)).map (fun e => (e.1, e.2.isSome)) =
        (giveAll env [] (bindings text.toList)).map fun e => (e.1, e.2.isSome) := by
      rw [map_isSome_giveAll, map_isSome_giveAll]
    have hlookup := lookup_map_snd Option.isSome (giveAll other [] (bindings text.toList)) key
    rw [hsame, lookup_map_snd, mem_values_iff.mp h, Option.map_some, Option.isSome_some, eq_comm,
      Option.map_eq_some_iff] at hlookup
    obtain ⟨found, hfound, hsome⟩ := hlookup
    obtain ⟨value', rfl⟩ := Option.isSome_iff_exists.mp hsome
    exact ⟨value', mem_values_iff.mpr hfound⟩

end EnvFile

namespace Environment

open EnvFile

variable {env mid later : Environment} {keyStart key value : String} {given before : Given}

/-! ## One variable -/

/-- What an environment has room for: names without equals signs, and no null in a name or value. -/
structure CanHold (key value : String) : Prop where
  noNull : '\x00' ∉ key.toList ∧ '\x00' ∉ value.toList
  noEquals : '=' ∉ key.toList

/-- Why an environment has no room for a variable. -/
inductive Refuses (key value : String) : EnvFileError → Prop where
  | embeddedNull : '\x00' ∈ key.toList ∨ '\x00' ∈ value.toList → Refuses key value .embeddedNull
  | illegalName : '\x00' ∉ key.toList ∧ '\x00' ∉ value.toList → '=' ∈ key.toList →
      Refuses key value .illegalName

theorem Refuses.not_canHold {e : EnvFileError} (h : Refuses key value e) :
    ¬ CanHold key value := by
  rintro ⟨hnull, hequals⟩
  cases h with
  | embeddedNull hsome => exact hsome.elim hnull.1 hnull.2
  | illegalName _ hsome => exact hequals hsome

theorem checkEntry_cases (key value : String) :
    (CanHold key value ∧ checkEntry key value = .ok ()) ∨
      ∃ e, Refuses key value e ∧ checkEntry key value = .error e := by
  unfold checkEntry
  split
  next hnull =>
    rw [Bool.or_eq_true, List.contains_iff_mem, List.contains_iff_mem] at hnull
    exact .inr ⟨_, .embeddedNull hnull, rfl⟩
  next hnull =>
    rw [Bool.or_eq_true, List.contains_iff_mem, List.contains_iff_mem, not_or] at hnull
    split
    next hequals => exact .inr ⟨_, .illegalName hnull (List.contains_iff_mem.mp hequals), rfl⟩
    next hequals => exact .inl ⟨⟨hnull, mt List.contains_iff_mem.mpr hequals⟩, rfl⟩

/-- A variable of a file changes nothing, because it has no value, or not such a name, or is there
already; or it is new, and then it is added or refused. -/
theorem addGiven_cases (keyStart : String) (env : Environment) (entry : String × Option String) :
    (addGiven keyStart env entry = .ok env ∧ ∀ value, entry.2 = some value →
        entry.1.startsWith keyStart = true → (env.get? entry.1).isSome) ∨
      ∃ key value, entry = (key, some value) ∧ key.startsWith keyStart = true ∧
        env.get? key = none ∧
          ((CanHold key value ∧ addGiven keyStart env entry = .ok (env ++ [(key, value)])) ∨
            ∃ e, Refuses key value e ∧ addGiven keyStart env entry = .error e) := by
  obtain ⟨key, value?⟩ := entry
  cases value? with
  | none => exact .inl ⟨rfl, fun _ h => by contradiction⟩
  | some value =>
    by_cases hpassed : key.startsWith keyStart = true → (env.get? key).isSome
    · refine .inl ⟨if_pos ?_, fun _ _ => hpassed⟩
      rw [Bool.or_eq_true, Bool.not_eq_true']
      by_cases hstart : key.startsWith keyStart = true
      · exact .inr (hpassed hstart)
      · exact .inl (Bool.eq_false_iff.mpr hstart)
    · rw [Classical.not_imp, Option.not_isSome_iff_eq_none] at hpassed
      obtain ⟨hstart, hnew⟩ := hpassed
      have hadd : addGiven keyStart env (key, some value) =
          (checkEntry key value).map fun _ => env ++ [(key, value)] := by
        simp only [addGiven, setDefault, hstart, hnew, Option.isSome_none, Bool.not_true,
          Bool.or_self, Bool.false_eq_true, if_false]
      refine .inr ⟨key, value, rfl, hstart, hnew, ?_⟩
      rw [hadd]
      rcases checkEntry_cases key value with ⟨hroom, hcheck⟩ | ⟨e, hrefused, hcheck⟩
      · rw [hcheck]
        exact .inl ⟨hroom, rfl⟩
      · rw [hcheck]
        exact .inr ⟨e, hrefused, rfl⟩

/-! ## One variable after the other -/

/-- What was in an environment is still there; what is new has a name as wanted and the value that
the file gave it; and all of the file that has such a name and a value is there. -/
structure Extends (env : Environment) (keyStart : String) (given : Given) (later : Environment) :
    Prop where
  kept : ∀ {key value}, env.get? key = some value → later.get? key = some value
  added : ∀ {key value}, env.get? key = none → later.get? key = some value →
    key.startsWith keyStart = true ∧ (key, some value) ∈ given ∧ CanHold key value
  present : ∀ {key value}, (key, some value) ∈ given → key.startsWith keyStart = true →
    (later.get? key).isSome

theorem get?_append_singleton (env : Environment) (key value other : String) :
    (env ++ [(key, value)] : Environment).get? other =
      (env.get? other).or (if other = key then some value else none) := by
  unfold get?
  rw [List.lookup_append, List.lookup_singleton]
  simp only [beq_iff_eq]

theorem Extends.nil (env : Environment) (keyStart : String) : Extends env keyStart [] env where
  kept h := h
  added hnone hsome := by
    rw [hnone] at hsome
    contradiction
  present h := absurd h List.not_mem_nil

/-- A variable that changes nothing. -/
theorem Extends.pass (h : Extends env keyStart before mid) {entry : String × Option String}
    (hpassed : ∀ value, entry.2 = some value → entry.1.startsWith keyStart = true →
      (mid.get? entry.1).isSome) : Extends env keyStart (before ++ [entry]) mid where
  kept := h.kept
  added hnone hsome := by
    obtain ⟨hstart, hmem, hroom⟩ := h.added hnone hsome
    exact ⟨hstart, List.mem_append_left _ hmem, hroom⟩
  present hmem hstart := by
    rcases List.mem_append.mp hmem with hmem | hmem
    · exact h.present hmem hstart
    · obtain rfl := List.mem_singleton.mp hmem
      exact hpassed _ rfl hstart

/-- A variable that is added. -/
theorem Extends.add (h : Extends env keyStart before mid) (hstart : key.startsWith keyStart = true)
    (hnew : mid.get? key = none) (hroom : CanHold key value) :
    Extends env keyStart (before ++ [(key, some value)]) (mid ++ [(key, value)]) where
  kept hsome := by
    rw [get?_append_singleton, h.kept hsome, Option.some_or]
  added {other found} hnone hsome := by
    rw [get?_append_singleton] at hsome
    cases hmid : mid.get? other with
    | some found' =>
      rw [hmid, Option.some_or, Option.some.injEq] at hsome
      obtain ⟨hstart, hmem, hroom⟩ := h.added hnone (hsome ▸ hmid)
      exact ⟨hstart, List.mem_append_left _ hmem, hroom⟩
    | none =>
      rw [hmid, Option.none_or, Option.ite_none_right_eq_some, Option.some.injEq] at hsome
      obtain ⟨rfl, rfl⟩ := hsome
      exact ⟨hstart, List.mem_append_right _ (List.mem_singleton_self _), hroom⟩
  present {other found} hmem hstart' := by
    rw [get?_append_singleton, Option.isSome_or, Bool.or_eq_true]
    rcases List.mem_append.mp hmem with hmem | hmem
    · exact .inl (h.present hmem hstart')
    · obtain ⟨rfl, -⟩ := Prod.mk.inj (List.mem_singleton.mp hmem)
      exact .inr (by rw [if_pos rfl]; rfl)

/-- What adding some variables comes to: all are added, or the first is refused for which there is
no room, after those before it have been added. -/
inductive Adds (env : Environment) (keyStart : String) (given : Given) :
    Except EnvFileError Environment → Prop where
  | all {later : Environment} :
      Extends env keyStart given later → Adds env keyStart given (.ok later)
  | refused {before after : Given} {key value : String} {mid : Environment} {e : EnvFileError} :
      given = before ++ (key, some value) :: after →
      before.foldlM (addGiven keyStart) env = .ok mid → Extends env keyStart before mid →
      key.startsWith keyStart = true → mid.get? key = none → Refuses key value e →
      Adds env keyStart given (.error e)

theorem adds_foldlM (env : Environment) (keyStart : String) (given : Given) :
    Adds env keyStart given (given.foldlM (addGiven keyStart) env) := by
  induction given using List.reverseRecOn with
  | nil => exact .all (.nil env keyStart)
  | append_singleton given entry ih =>
    rw [List.foldlM_append]
    generalize houtcome : given.foldlM (addGiven keyStart) env = outcome at ih
    cases ih with
    | refused hgiven hrun hextends hstart hnew hrefused =>
      exact .refused (by rw [hgiven, List.append_assoc, List.cons_append]) hrun hextends hstart hnew
        hrefused
    | @all mid hextends =>
      show Adds env keyStart (given ++ [entry]) ([entry].foldlM (addGiven keyStart) mid)
      rw [List.foldlM_cons]
      rcases addGiven_cases keyStart mid entry with
        ⟨hstep, hpassed⟩ | ⟨key, value, rfl, hstart, hnew, ⟨hroom, hstep⟩ | ⟨e, hrefused, hstep⟩⟩
      · rw [hstep]
        exact .all (hextends.pass hpassed)
      · rw [hstep]
        exact .all (hextends.add hstart hnew hroom)
      · rw [hstep]
        exact .refused rfl houtcome hextends hstart hnew hrefused

/-! ## Whole files -/

/-- Adds the variables of a file to an environment, in which it is read. -/
def addReading (env : Environment) (keyStart : String) (file : Reading) :
    Except EnvFileError Environment :=
  (file.values env).foldlM (addGiven keyStart) env

theorem adds_addReading (env : Environment) (keyStart : String) (file : Reading) :
    Adds env keyStart (file.values env) (env.addReading keyStart file) :=
  adds_foldlM env keyStart (file.values env)

/-- The file gives a variable once, so that the value it gives is the one that is added. -/
theorem Extends.canHold {file : Reading} (h : Extends env keyStart (file.values env) later)
    (hmem : (key, some value) ∈ file.values env) (hstart : key.startsWith keyStart = true)
    (hnew : env.get? key = none) : CanHold key value := by
  obtain ⟨value', hvalue'⟩ := Option.isSome_iff_exists.mp (h.present hmem hstart)
  obtain ⟨-, hmem', hroom⟩ := h.added hnew hvalue'
  have heq := List.inj_on_of_nodup_map (file.nodup env) hmem hmem' rfl
  rwa [Option.some.inj (Prod.mk.inj heq).2]

/-- Nothing is refused exactly if there is room for every variable that is new. -/
theorem exists_addReading_eq_ok_iff (env : Environment) (keyStart : String) (file : Reading) :
    (∃ later, env.addReading keyStart file = .ok later) ↔
      ∀ key value, (key, some value) ∈ file.values env → key.startsWith keyStart = true →
        env.get? key = none → CanHold key value := by
  have hadds := adds_addReading env keyStart file
  constructor
  · rintro ⟨later, hlater⟩ key value hmem hstart hnew
    rw [hlater] at hadds
    cases hadds with
    | all hextends => exact hextends.canHold hmem hstart hnew
  · intro hroom
    generalize env.addReading keyStart file = outcome at hadds
    cases hadds with
    | all hextends => exact ⟨_, rfl⟩
    | @refused before after key value mid e hgiven _ hextends hstart hnew hrefused =>
      have hmem : (key, some value) ∈ file.values env := by
        rw [hgiven]
        exact List.mem_append_right _ List.mem_cons_self
      have hfirst : env.get? key = none := by
        by_contra hsome
        obtain ⟨old, hold⟩ := Option.ne_none_iff_exists'.mp hsome
        rw [hextends.kept hold] at hnew
        contradiction
      exact absurd (hroom key value hmem hstart hfirst) hrefused.not_canHold

/-- When all variables have been added, adding the file again changes nothing. -/
theorem Extends.addReading_eq {file : Reading} (h : Extends env keyStart (file.values env) later) :
    later.addReading keyStart file = .ok later := by
  have hstep : ∀ entry ∈ file.values later, addGiven keyStart later entry = .ok later := by
    intro entry hmem
    rcases addGiven_cases keyStart later entry with ⟨hstep, -⟩ | ⟨key, value, rfl, hstart, hnew, -⟩
    · exact hstep
    · -- whether a variable has a value does not depend on the environment
      obtain ⟨value', hmem'⟩ := file.exists_value hmem env
      have hpresent := h.present hmem' hstart
      rw [hnew] at hpresent
      contradiction
  rw [addReading]
  generalize file.values later = given at hstep
  induction given with
  | nil => rfl
  | cons entry rest ih =>
    rw [List.foldlM_cons, hstep entry List.mem_cons_self]
    exact ih fun entry hmem => hstep entry (List.mem_cons_of_mem _ hmem)

theorem load_of_none {fs : FileSystem} {path : Option String}
    (h : EnvFile.content? fs path = none) : env.load keyStart fs path = .ok (env, false) := by
  rw [load, h]

theorem load_of_text {fs : FileSystem} {path : Option String} {text : String}
    (h : (EnvFile.content? fs path).bind Source.decodeText = some text) :
    env.load keyStart fs path = (env.addText keyStart text).map (·, true) := by
  obtain ⟨content, hcontent, htext⟩ := Option.bind_eq_some_iff.mp h
  simp only [load, hcontent, htext]

/-- A file is added to an environment as it is read there.  What the environment had it keeps; what
is new has a name as wanted and the value of the file; and unless there is no room for a variable,
all that the file gives under such names is there.  Adding the file again then changes nothing, also
where its values have changed with the environment. -/
theorem addText_extends (env : Environment) (keyStart : String) :
    (∀ file : Reading,
      Adds env keyStart (file.values env) (env.addReading keyStart file) ∧
      ((∃ later, env.addReading keyStart file = .ok later) ↔
        ∀ key value, (key, some value) ∈ file.values env → key.startsWith keyStart = true →
          env.get? key = none → CanHold key value) ∧
      ∀ later, env.addReading keyStart file = .ok later →
        Extends env keyStart (file.values env) later ∧
          later.addReading keyStart file = .ok later) ∧
    (∀ text, env.addText keyStart text = env.addReading keyStart (reading text)) ∧
    (∀ fs path, EnvFile.content? fs path = none → env.load keyStart fs path = .ok (env, false)) ∧
    ∀ fs path text, (EnvFile.content? fs path).bind Source.decodeText = some text →
      env.load keyStart fs path = (env.addText keyStart text).map (·, true) := by
  refine ⟨fun file => ?_, fun _ => rfl, fun _ _ => load_of_none, fun _ _ _ => load_of_text⟩
  have hadds := adds_addReading env keyStart file
  refine ⟨hadds, exists_addReading_eq_ok_iff env keyStart file, fun later hlater => ?_⟩
  rw [hlater] at hadds
  cases hadds with
  | all hextends => exact ⟨hextends, hextends.addReading_eq⟩

/-- A variable that refers to a later one has another value the second time. -/
theorem addText_extends_forwardReference :
    let text := "M_A=$\x7bM_B\x7dx\nM_B=1\n"
    let later : Environment := [("M_A", "x"), ("M_B", "1")]
    addText [] "M_" text = .ok later ∧
      EnvFile.values later text = [("M_A", some "1x"), ("M_B", some "1")] ∧
      later.addText "M_" text = .ok later := by
  intro text later
  have hload : addText [] "M_" text = .ok later := by cbv
  have hvalues : EnvFile.values later text = [("M_A", some "1x"), ("M_B", some "1")] := by cbv
  exact ⟨hload, hvalues, (((addText_extends [] "M_").1 (reading text)).2.2 later hload).2⟩

/-- A name in a file may hold an equals sign, a name in an environment may not. -/
theorem equals_in_name_refused :
    ("MERMAID_READABILITY_A=B", some "x") ∈ EnvFile.values [] "'MERMAID_READABILITY_A=B'=x" ∧
      "MERMAID_READABILITY_A=B".startsWith standardKeyStart = true ∧
      addText [] standardKeyStart "'MERMAID_READABILITY_A=B'=x" = .error .illegalName := by
  decide +kernel

end Environment

end DiagramReadability
