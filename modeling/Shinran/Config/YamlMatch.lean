/-
  Shinran.Config.YamlMatch
  ────────────────────────
  **FROM A YAML FILE TO ITS MATCHES** (`matches/group/loader/yaml`).

  A match file is parsed as a whole, and then converted entry by entry.  An
  entry that cannot be converted is reported, and the others load without it:

    • `tryConvertIntoVariable`, `tryConvertIntoMatch` — one entry,
    • `YamlMatchFile.convert`       — all of them,
    • `atomic_tryConvertIntoMatch`  — a conversion that fails leaves no trace,
    • `YamlMatchFile.convert_spec`  — the file contains what each valid entry
                                      becomes by itself,
    • `badEntry_affects_nothing`    — and so it is loaded.
-/
import Shinran.Config.Load
import Shinran.Config.YamlParams

namespace Shinran

/-! ## §1. What the parser returns. -/

/-- `YAMLVariable`. -/
structure YamlVariable where
  name : String
  varType : String
  params : Mapping
  injectVars : Option Bool := none
  dependsOn : List String := []

/-- `YAMLMatch`. -/
structure YamlMatch where
  label : Option String := none
  trigger : Option String := none
  triggers : Option (List String) := none
  regex : Option String := none
  replace : Option String := none
  imagePath : Option String := none
  form : Option String := none
  formFields : Option Mapping := none
  vars : Option (List YamlVariable) := none
  word : Option Bool := none
  leftWord : Option Bool := none
  rightWord : Option Bool := none
  propagateCase : Option Bool := none
  uppercaseStyle : Option String := none
  forceClipboard : Option Bool := none
  forceMode : Option String := none
  markdown : Option String := none
  html : Option String := none
  searchTerms : Option (List String) := none

/-- `YAMLMatchFile`. -/
structure YamlMatchFile where
  imports : Option (List String) := none
  globalVars : Option (List YamlVariable) := none
  matches_ : Option (List YamlMatch) := none

structure TriggerCause where
  triggers : List String := []
  wordBoundary : WordBoundary := .none
  propagateCase : Bool := false
  uppercaseStyle : UpperCasingStyle := .uppercase
  deriving DecidableEq, Repr

structure RegexCause where
  regex : String
  deriving DecidableEq, Repr

inductive MatchCause where
  | trigger (cause : TriggerCause)
  | regex (cause : RegexCause)
  deriving DecidableEq, Repr

/-- The errors of a match file; the warnings come last. -/
inductive YamlError (ε : Type) where
  /-- Of the YAML library. -/
  | library (error : ε)
  | conversion (error : ConversionError)
  /-- "unknown variable type: {:?}" -/
  | unknownVariableType (varType : String)
  /-- "failed to load variable: {:?}" -/
  | variable_ (yamlVar : YamlVariable) (source : YamlError ε)
  /-- "match must have either 'trigger' or 'regex' field; both are missing" -/
  | missingCause
  /-- "match triggered by {:?} does not produce any effect. Did you forget the 'replace' field?" -/
  | missingEffect (cause : MatchCause)
  /-- "specifying the 'uppercase_style' option without 'propagate_case' has no effect" -/
  | styleWithoutPropagateCase
  /-- "unrecognized uppercase_style: {:?}, falling back to the default" -/
  | unrecognizedStyle (style : String)

/-- What the conversion takes from libraries. -/
structure YamlLibrary (ε : Type) where
  /-- `serde_yaml_ng::from_str`. -/
  fromStr : String → Except ε YamlMatchFile
  /-- `Value::as_str`. -/
  asStr : YamlValue → Option String
  /-- `str::to_lowercase`. -/
  toLowercase : String → String

/-! ## §2. Form controls. -/

section FormControls
variable [UnicodeTables]

namespace FormControl

/-- `\s*\]\]`, with the text that is left. -/
def close (cs : List Char) : Option (List Char) :=
  match cs.dropWhile UnicodeTables.isSpace with
  | ']' :: ']' :: rest => some rest
  | _ => none

/-- The match of `\[\[\s*(\w+)(\.\w+)?\s*\]\]` at the head of the text, by its first group, with
the text that is left after it. -/
def matchAt : List Char → Option (List Char × List Char)
  | '[' :: '[' :: cs =>
      let inner := cs.dropWhile UnicodeTables.isSpace
      let name := inner.takeWhile UnicodeTables.isWord
      if name = [] then none
      else
        (close (VarRegex.subname (inner.dropWhile UnicodeTables.isWord)).2).map fun rest =>
          (name, rest)
  | _ => none

/-- Replace in a text whose first `skip` characters belong to the match before it. -/
def replaceFrom : (skip : Nat) → List Char → List Char
  | _, [] => []
  | skip + 1, _ :: cs => replaceFrom skip cs
  | 0, c :: cs =>
      match matchAt (c :: cs) with
      | some (name, rest) =>
          "\x7b\x7bform1.".toList ++ name ++ "\x7d\x7d".toList
            ++ replaceFrom (cs.length - rest.length) cs
      | none => c :: replaceFrom 0 cs

/-- `FORM_CONTROL_REGEX.replace_all`, each control by a reference to a field of `form1`. -/
def replaceAll (text : String) : String := String.ofList (replaceFrom 0 text.toList)

end FormControl

/-- The body of a match with a form. -/
def formBody (formLayout : String) : String :=
  let resolved := FormControl.replaceAll formLayout
  -- escaped braces are replaced by braces that do not belong to a reference
  Shinran.replaceAll (Shinran.replaceAll resolved "\\\x7b" "\x7b ") "\\\x7d" " \x7d"

end FormControls

/-! ## §3. One entry. -/

/-- What a file's entries have been converted to, so far. -/
structure Converted (ε : Type) where
  triggerMatches : List TriggerMatch := []
  regexMatches : List RegexMatch := []
  nonFatalErrors : List (ErrorRecord (YamlError ε)) := []

/-- `ErrorRecord::error`. -/
def ErrorRecord.failure {ε : Type} (error : ε) : ErrorRecord ε := ⟨.error, error⟩

/-- `ErrorRecord::warn`. -/
def ErrorRecord.warn {ε : Type} (error : ε) : ErrorRecord ε := ⟨.warning, error⟩

/-- `regex_matches.push`. -/
def Converted.pushRegex {ε : Type} (out : Converted ε) (m : RegexMatch) : Converted ε :=
  { out with regexMatches := out.regexMatches ++ [m] }

/-- `trigger_matches.push`. -/
def Converted.pushTrigger {ε : Type} (out : Converted ε) (m : TriggerMatch) : Converted ε :=
  { out with triggerMatches := out.triggerMatches ++ [m] }

/-- `non_fatal_errors.extend`. -/
def Converted.extendErrors {ε : Type} (out : Converted ε)
    (records : List (ErrorRecord (YamlError ε))) : Converted ε :=
  { out with nonFatalErrors := out.nonFatalErrors ++ records }

section Entries

variable {ε : Type} (lib : YamlLibrary ε)

def VarType.fromName : String → Option VarType
  | "date" => some .date
  | "dummy" => some .echo
  | "echo" => some .echo
  | "form" => some .form
  | "match" => some .match_
  | "random" => some .random
  | "script" => some .script
  | "shell" => some .shell
  | "mock" => some .mock
  | "test" => some .mock
  | _ => none

/-- `try_convert_into_variable`; it has no warnings. -/
def tryConvertIntoVariable (yamlVar : YamlVariable) (useCompatibilityMode : Bool) :
    Except (YamlError ε) (Variable × List (YamlError ε)) :=
  match VarType.fromName yamlVar.varType with
  | none => .error (.unknownVariableType yamlVar.varType)
  | some varType => do
      let params ← (convertParams lib.asStr yamlVar.params).mapError .conversion
      .ok ({ name := yamlVar.name, varType, params
             injectVars := !useCompatibilityMode && yamlVar.injectVars.getD true
             dependsOn := yamlVar.dependsOn }, [])

/-- The style, in lower case already, with a warning if there is no such style. -/
def convertUppercaseStyle : Option String → UpperCasingStyle × List (YamlError ε)
  | some "uppercase" => (.uppercase, [])
  | some "capitalize" => (.capitalize, [])
  | some "capitalize_words" => (.capitalizeWords, [])
  | some style => (({} : TriggerCause).uppercaseStyle, [.unrecognizedStyle style])
  | none => (({} : TriggerCause).uppercaseStyle, [])

/-- `cause`. -/
def convertCause (yamlMatch : YamlMatch) (uppercaseStyle : UpperCasingStyle) :
    Except (YamlError ε) MatchCause :=
  let triggers := match yamlMatch.trigger with
    | some trigger => some [trigger]
    | none => yamlMatch.triggers
  match triggers, yamlMatch.regex with
  | some triggers, _ =>
      let leftWord := (yamlMatch.leftWord.or yamlMatch.word).getD false
      let rightWord := (yamlMatch.rightWord.or yamlMatch.word).getD false
      let wordBoundary := match leftWord, rightWord with
        | true, true => WordBoundary.both
        | true, false => .left
        | false, true => .right
        | false, false => .none
      .ok (.trigger { triggers, wordBoundary, uppercaseStyle
                      propagateCase :=
                        yamlMatch.propagateCase.getD ({} : TriggerCause).propagateCase })
  | none, some regex => .ok (.regex ⟨regex⟩)
  | none, none => .error .missingCause

/-- `force_mode`. -/
def convertForceMode (yamlMatch : YamlMatch) : Option TextInjectMode :=
  if yamlMatch.forceClipboard = some true then some .clipboard
  else yamlMatch.forceMode.bind fun mode =>
    match lib.toLowercase mode with
    | "clipboard" => some .clipboard
    | "keys" => some .keys
    | _ => none

/-- The loop over the variables of a match. -/
def convertVars : List YamlVariable → Except (YamlError ε) (List Variable × List (YamlError ε))
  | [] => .ok ([], [])
  | yamlVar :: yamlVars => do
      let (var, varWarnings) ← (tryConvertIntoVariable lib yamlVar false).mapError
        (.variable_ yamlVar)
      let (vars, warnings) ← convertVars yamlVars
      .ok (var :: vars, varWarnings ++ warnings)

/-- `effect`, with the warnings of its variables. -/
def convertEffect [UnicodeTables] (yamlMatch : YamlMatch) :
    Except (YamlError ε) (MatchEffect × List (YamlError ε)) :=
  let forceMode := convertForceMode lib yamlMatch
  let text (body : String) (format : TextFormat) := do
    let (vars, warnings) ← convertVars lib (yamlMatch.vars.getD [])
    .ok (.text { body, vars, format, forceMode }, warnings)
  match yamlMatch.replace, yamlMatch.markdown, yamlMatch.html with
  | some plain, _, _ => text plain .plain
  | none, some markdown, _ => text markdown .markdown
  | none, none, some html => text html .html
  | none, none, none =>
    match yamlMatch.form, yamlMatch.imagePath with
    | some formLayout, _ => do
        let layout := Params.insert [] "layout" (.string formLayout)
        let params ← match yamlMatch.formFields with
          | none => .ok layout
          | some fields =>
            ((convertParams lib.asStr fields).mapError .conversion).map fun fields =>
              layout.insert "fields" (.object fields)
        let vars := [{ name := "form1", varType := .form, params }]
        .ok (.text { body := formBody formLayout, vars, format := .plain, forceMode }, [])
    | none, some imagePath => .ok (.image ⟨imagePath⟩, [])
    | none, none => .ok (.none, [])

/-- `try_convert_into_match`. -/
def tryConvertIntoMatch [UnicodeTables] (yamlMatch : YamlMatch) :
    EStateM (YamlError ε) (Converted ε) Unit := do
  let styleWarnings : List (YamlError ε) :=
    if yamlMatch.uppercaseStyle.isSome && yamlMatch.propagateCase.isNone then
      [.styleWithoutPropagateCase]
    else []
  let (uppercaseStyle, unrecognized) :=
    convertUppercaseStyle (yamlMatch.uppercaseStyle.map toAsciiLowercase)
  let cause ← ofExcept (convertCause yamlMatch uppercaseStyle)
  let (effect, varWarnings) ← ofExcept (convertEffect lib yamlMatch)
  if effect matches .none then
    throw (YamlError.missingEffect cause)
  let base : BaseMatch :=
    { effect, label := yamlMatch.label, searchTerms := yamlMatch.searchTerms.getD [] }
  match cause with
  | .regex cause =>
      modify fun out : Converted ε => out.pushRegex ⟨base, cause.regex⟩
  | .trigger cause =>
      modify fun out : Converted ε => out.pushTrigger
        ⟨base, cause.triggers, cause.propagateCase, cause.uppercaseStyle, cause.wordBoundary⟩
  modify fun out : Converted ε =>
    out.extendErrors ((styleWarnings ++ unrecognized ++ varWarnings).map .warn)

end Entries

/-! ## §4. All entries of a file. -/

section Files
variable {ε : Type}

/-- `is_yaml_empty`. -/
def isYamlEmpty [UnicodeTables] (yaml : String) : Bool :=
  -- a carriage return before a line break is white space, which the trim takes
  (yaml.toList.splitOn '\n').all fun line =>
    let trimmedLine := (trim (String.ofList line)).toList
    trimmedLine.head? = some '#' || trimmedLine.isEmpty

/-- `YAMLMatchFile::parse_from_str`. -/
def YamlMatchFile.parseFromStr [UnicodeTables] (lib : YamlLibrary ε) (yaml : String) :
    Except ε YamlMatchFile :=
  if isYamlEmpty yaml then lib.fromStr "arbitrary_field_that_will_not_block_the_parser: true"
  else lib.fromStr yaml

/-- The loop over the global variables. -/
def convertGlobalVars (lib : YamlLibrary ε) :
    List YamlVariable → List Variable × List (ErrorRecord (YamlError ε))
  | [] => ([], [])
  | yamlGlobalVar :: rest =>
      let (globalVars, nonFatalErrors) := convertGlobalVars lib rest
      match tryConvertIntoVariable lib yamlGlobalVar false with
      | .ok (var, warnings) => (var :: globalVars, warnings.map .warn ++ nonFatalErrors)
      | .error err => (globalVars, .failure err :: nonFatalErrors)

/-- The loop over the matches. -/
def convertMatches [UnicodeTables] (lib : YamlLibrary ε) :
    List YamlMatch → Converted ε → Converted ε
  | [], out => out
  | yamlMatch :: rest, out =>
      match tryConvertIntoMatch lib yamlMatch out with
      | .ok () out => convertMatches lib rest out
      | .error err out => convertMatches lib rest (out.extendErrors [.failure err])

/-- The conversion in `YAMLImporter::load_file`. -/
def YamlMatchFile.convert [UnicodeTables] (lib : YamlLibrary ε) (yaml : YamlMatchFile) :
    ParsedMatchFile (YamlError ε) :=
  let (globalVars, nonFatalErrors) := convertGlobalVars lib (yaml.globalVars.getD [])
  let out := convertMatches lib (yaml.matches_.getD []) { nonFatalErrors }
  { imports := yaml.imports.getD []
    content := { globalVars, triggerMatches := out.triggerMatches
                 regexMatches := out.regexMatches }
    errors := out.nonFatalErrors }

/-- The libraries, with match files parsed and converted. -/
def Libraries.withYaml [UnicodeTables] (libs : Libraries (YamlError ε)) (lib : YamlLibrary ε) :
    Libraries (YamlError ε) :=
  { libs with
    parseMatchFile := fun content =>
      ((YamlMatchFile.parseFromStr lib content).mapError .library).map (·.convert lib) }

/-- The records of a set, if there is one. -/
def recordsOf {δ : Type} (errors : Option (NonFatalErrorSet δ)) : List (ErrorRecord δ) :=
  errors.elim [] (·.errors)

/-- A file that loads was read, parsed and converted, and its imports were resolved. -/
theorem loadFile_eq_ok {libs : Libraries ε} {fs : FileSystem} {path : PathBuf}
    {file : LoadedMatchFile} {errors : Option (NonFatalErrorSet (LoadError ε))}
    (h : loadFile libs fs path = .ok (file, errors)) :
    ∃ content parsed importErrors, fs.readToString path = some content
      ∧ libs.parseMatchFile content = .ok parsed
      ∧ resolvePaths libs fs path parsed.imports = .ok (file.importPaths, importErrors)
      ∧ file.content = parsed.content
      ∧ recordsOf errors = parsed.errors.map (fun record => ⟨record.level, .library record.error⟩)
        ++ importErrors := by
  unfold loadFile at h
  obtain ⟨content, hread, h⟩ := bind_eq_ok_iff.mp h
  obtain ⟨parsed, hparse, h⟩ := bind_eq_ok_iff.mp h
  obtain ⟨⟨importPaths, importErrors⟩, himports, h⟩ := bind_eq_ok_iff.mp h
  cases h
  refine ⟨content, parsed, importErrors, elim_eq_ok_iff.mp hread, mapError_eq_ok_iff.mp hparse,
    himports, rfl, ?_⟩
  -- without records there is no set
  split
  · rename_i hempty
    exact (List.isEmpty_iff.mp hempty).symm
  · rfl

end Files

/-! ## §5. One match by itself. -/

section
variable [UnicodeTables] {ε : Type} {lib : YamlLibrary ε} {yamlMatch : YamlMatch}

instance : Append (Converted ε) where
  append out new := ⟨out.triggerMatches ++ new.triggerMatches,
    out.regexMatches ++ new.regexMatches, out.nonFatalErrors ++ new.nonFatalErrors⟩

omit [UnicodeTables] in
theorem Converted.append_def (out new : Converted ε) :
    out ++ new = ⟨out.triggerMatches ++ new.triggerMatches, out.regexMatches ++ new.regexMatches,
      out.nonFatalErrors ++ new.nonFatalErrors⟩ := rfl

/-- It fails and leaves everything as it is, or it appends one match and warnings. -/
inductive Atomic (step : EStateM (YamlError ε) (Converted ε) Unit) : Prop
  | error (err : YamlError ε) : (∀ out, step out = .error err out) → Atomic step
  | trigger (m : TriggerMatch) (warnings : List (YamlError ε)) :
      (∀ out, step out = .ok () (out ++ ⟨[m], [], warnings.map .warn⟩)) → Atomic step
  | regex (m : RegexMatch) (warnings : List (YamlError ε)) :
      (∀ out, step out = .ok () (out ++ ⟨[], [m], warnings.map .warn⟩)) → Atomic step

omit [UnicodeTables] in
theorem pushTrigger_extendErrors {out : Converted ε} {m : TriggerMatch}
    {records : List (ErrorRecord (YamlError ε))} :
    (out.pushTrigger m).extendErrors records = out ++ ⟨[m], [], records⟩ := by
  simp [Converted.append_def, Converted.pushTrigger, Converted.extendErrors]

omit [UnicodeTables] in
theorem pushRegex_extendErrors {out : Converted ε} {m : RegexMatch}
    {records : List (ErrorRecord (YamlError ε))} :
    (out.pushRegex m).extendErrors records = out ++ ⟨[], [m], records⟩ := by
  simp [Converted.append_def, Converted.pushRegex, Converted.extendErrors]

/-- **What `try_convert_into_match` can do**: nothing is written before the last way to fail. -/
theorem atomic_tryConvertIntoMatch (lib : YamlLibrary ε) (yamlMatch : YamlMatch) :
    Atomic (tryConvertIntoMatch lib yamlMatch) := by
  -- along the steps of the conversion, each of which may fail
  unfold tryConvertIntoMatch
  dsimp only
  generalize convertUppercaseStyle (yamlMatch.uppercaseStyle.map toAsciiLowercase) = style
  cases convertCause yamlMatch style.1 with
  | error err => exact .error err fun _ => rfl
  | ok cause =>
      cases convertEffect lib yamlMatch with
      | error err => exact .error err fun _ => rfl
      | ok effect =>
          obtain ⟨effect, varWarnings⟩ := effect
          cases effect with
          | none => exact .error (.missingEffect cause) fun _ => rfl
          | text effect | image effect =>
              cases cause with
              | trigger cause =>
                  exact .trigger _ _ fun _ =>
                    congrArg (EStateM.Result.ok ()) pushTrigger_extendErrors
              | regex cause =>
                  exact .regex _ _ fun _ =>
                    congrArg (EStateM.Result.ok ()) pushRegex_extendErrors

/-- Whether the match is valid. -/
def YamlMatch.isValid (lib : YamlLibrary ε) (yamlMatch : YamlMatch) : Bool :=
  match tryConvertIntoMatch lib yamlMatch {} with
  | .ok _ _ => true
  | .error _ _ => false

/-- What becomes of the match by itself. -/
def YamlMatch.converted (lib : YamlLibrary ε) (yamlMatch : YamlMatch) : Converted ε :=
  match tryConvertIntoMatch lib yamlMatch {} with
  | .ok _ out => out
  | .error _ out => out

/-- Whether the variable is valid. -/
def YamlVariable.isValid (lib : YamlLibrary ε) (yamlVar : YamlVariable) : Bool :=
  (tryConvertIntoVariable lib yamlVar false).toOption.isSome

/-! ## §6. What a file contains. -/

/-- The records of level `Error`. -/
def errorCount {δ : Type} (records : List (ErrorRecord δ)) : Nat :=
  records.countP (·.level = .error)

omit [UnicodeTables] in
theorem errorCount_append {δ : Type} (records records' : List (ErrorRecord δ)) :
    errorCount (records ++ records') = errorCount records + errorCount records' :=
  List.countP_append

omit [UnicodeTables] in
/-- A warning is no error. -/
theorem errorCount_warn {δ : Type} (warnings : List δ) :
    errorCount (warnings.map ErrorRecord.warn) = 0 := by
  unfold errorCount
  rw [List.countP_eq_zero]
  intro record hrecord
  obtain ⟨_, _, rfl⟩ := List.mem_map.mp hrecord
  simp [ErrorRecord.warn]

omit [UnicodeTables] in
theorem errorCount_failure {δ : Type} (error : δ) :
    errorCount [ErrorRecord.failure error] = 1 := rfl

/-- What was there, and then what each valid match becomes by itself, in order; and an error for
each of the others. -/
structure Collects (lib : YamlLibrary ε) (yamlMatches : List YamlMatch) (out out' : Converted ε) :
    Prop where
  triggerMatches : out'.triggerMatches = out.triggerMatches
    ++ (yamlMatches.filter (·.isValid lib)).flatMap fun m => (m.converted lib).triggerMatches
  regexMatches : out'.regexMatches = out.regexMatches
    ++ (yamlMatches.filter (·.isValid lib)).flatMap fun m => (m.converted lib).regexMatches
  errors : errorCount out'.nonFatalErrors
    = errorCount out.nonFatalErrors + yamlMatches.countP fun m => !m.isValid lib

theorem Collects.cons {yamlMatch : YamlMatch} {rest : List YamlMatch} {out mid out' : Converted ε}
    (hhead : Collects lib [yamlMatch] out mid) (htail : Collects lib rest mid out') :
    Collects lib (yamlMatch :: rest) out out' where
  triggerMatches := by
    show _ = _ ++ List.flatMap _ (List.filter _ ([yamlMatch] ++ rest))
    rw [htail.triggerMatches, hhead.triggerMatches, List.filter_append, List.flatMap_append,
      List.append_assoc]
  regexMatches := by
    show _ = _ ++ List.flatMap _ (List.filter _ ([yamlMatch] ++ rest))
    rw [htail.regexMatches, hhead.regexMatches, List.filter_append, List.flatMap_append,
      List.append_assoc]
  errors := by
    show _ = _ + List.countP _ ([yamlMatch] ++ rest)
    rw [htail.errors, hhead.errors, List.countP_append, Nat.add_assoc]

/-- A match that is not valid adds an error. -/
theorem collects_failure {yamlMatch : YamlMatch} {err : YamlError ε}
    (h : ∀ out, tryConvertIntoMatch lib yamlMatch out = .error err out) (out : Converted ε) :
    Collects lib [yamlMatch] out (out.extendErrors [.failure err]) := by
  have hvalid : yamlMatch.isValid lib = false := by rw [YamlMatch.isValid, h]
  refine ⟨?_, ?_, ?_⟩
  · simp [hvalid, Converted.extendErrors]
  · simp [hvalid, Converted.extendErrors]
  · show errorCount (out.nonFatalErrors ++ [.failure err]) = _
    rw [errorCount_append, errorCount_failure]
    simp [hvalid]

/-- A valid match adds what it becomes by itself, and warnings. -/
theorem collects_append {yamlMatch : YamlMatch} {new : Converted ε}
    {warnings : List (YamlError ε)} (hwarnings : new.nonFatalErrors = warnings.map .warn)
    (h : ∀ out, tryConvertIntoMatch lib yamlMatch out = .ok () (out ++ new)) (out : Converted ε) :
    Collects lib [yamlMatch] out (out ++ new) := by
  have hvalid : yamlMatch.isValid lib = true := by rw [YamlMatch.isValid, h]
  have hconverted : yamlMatch.converted lib = new := by
    rw [YamlMatch.converted, h]
    rfl
  refine ⟨?_, ?_, ?_⟩
  · simp [hvalid, hconverted, Converted.append_def]
  · simp [hvalid, hconverted, Converted.append_def]
  · show errorCount (out.nonFatalErrors ++ new.nonFatalErrors) = _
    rw [errorCount_append, hwarnings, errorCount_warn]
    simp [hvalid]

/-- **Every match is converted as if it were alone.** -/
theorem collects_convertMatches (lib : YamlLibrary ε) (yamlMatches : List YamlMatch) :
    ∀ out, Collects lib yamlMatches out (convertMatches lib yamlMatches out) := by
  induction yamlMatches with
  | nil =>
      intro out
      exact ⟨(List.append_nil _).symm, (List.append_nil _).symm, rfl⟩
  | cons yamlMatch rest ih =>
      intro out
      rw [convertMatches]
      cases atomic_tryConvertIntoMatch lib yamlMatch with
      | error err h =>
          rw [h]
          exact (collects_failure h out).cons (ih _)
      | trigger m warnings h | regex m warnings h =>
          rw [h]
          exact (collects_append rfl h out).cons (ih _)

omit [UnicodeTables] in
/-- **Every global variable is converted as if it were alone.** -/
theorem convertGlobalVars_spec (lib : YamlLibrary ε) (yamlGlobalVars : List YamlVariable) :
    (convertGlobalVars lib yamlGlobalVars).1
        = yamlGlobalVars.filterMap (fun v =>
          (tryConvertIntoVariable lib v false).toOption.map (·.1))
      ∧ errorCount (convertGlobalVars lib yamlGlobalVars).2
        = yamlGlobalVars.countP fun v => !v.isValid lib := by
  induction yamlGlobalVars with
  | nil => exact ⟨rfl, rfl⟩
  | cons yamlGlobalVar rest ih =>
      rw [convertGlobalVars]
      generalize convertGlobalVars lib rest = tail at ih
      obtain ⟨globalVars, nonFatalErrors⟩ := tail
      obtain ⟨hvars, herrors⟩ := ih
      cases hvar : tryConvertIntoVariable lib yamlGlobalVar false with
      | ok converted =>
          have hvalid : yamlGlobalVar.isValid lib = true := by
            rw [YamlVariable.isValid, hvar]
            rfl
          refine ⟨?_, ?_⟩
          · rw [List.filterMap_cons_some (by rw [hvar]; rfl), ← hvars]
          · show errorCount (converted.2.map .warn ++ nonFatalErrors) = _
            rw [errorCount_append, errorCount_warn, herrors,
              List.countP_cons_of_neg (by simp [hvalid]), Nat.zero_add]
      | error err =>
          have hvalid : yamlGlobalVar.isValid lib = false := by
            rw [YamlVariable.isValid, hvar]
            rfl
          refine ⟨?_, ?_⟩
          · rw [List.filterMap_cons_none (by rw [hvar]; rfl), ← hvars]
          · show errorCount ([.failure err] ++ nonFatalErrors) = _
            rw [errorCount_append, errorCount_failure, herrors,
              List.countP_cons_of_pos (by simp [hvalid]), Nat.add_comm]

/-- The contents are what each valid entry becomes by itself, in order, and as many records are
errors as entries are not valid. -/
structure EachByItself (lib : YamlLibrary ε) (yaml : YamlMatchFile) {δ : Type}
    (content : MatchFile) (records : List (ErrorRecord δ)) : Prop where
  triggerMatches : content.triggerMatches
    = ((yaml.matches_.getD []).filter (·.isValid lib)).flatMap
      fun m => (m.converted lib).triggerMatches
  regexMatches : content.regexMatches
    = ((yaml.matches_.getD []).filter (·.isValid lib)).flatMap
      fun m => (m.converted lib).regexMatches
  globalVars : content.globalVars
    = (yaml.globalVars.getD []).filterMap fun v =>
      (tryConvertIntoVariable lib v false).toOption.map (·.1)
  errors : errorCount records
    = ((yaml.matches_.getD []).countP fun m => !m.isValid lib)
      + (yaml.globalVars.getD []).countP fun v => !v.isValid lib

/-- **What a file contains.** -/
theorem YamlMatchFile.convert_spec (lib : YamlLibrary ε) (yaml : YamlMatchFile) :
    EachByItself lib yaml (yaml.convert lib).content (yaml.convert lib).errors := by
  obtain ⟨hvars, herrors⟩ := convertGlobalVars_spec lib (yaml.globalVars.getD [])
  have hmatches := collects_convertMatches lib (yaml.matches_.getD [])
    { nonFatalErrors := (convertGlobalVars lib (yaml.globalVars.getD [])).2 }
  refine ⟨hmatches.triggerMatches, hmatches.regexMatches, hvars, ?_⟩
  have hcount := hmatches.errors
  rw [herrors, Nat.add_comm] at hcount
  exact hcount

/-! ## §7. A bad entry. -/

/-- The conversion of a match fails and leaves everything as it is, or it appends one element to
one of the lists of matches. -/
structure LeavesOrAppends (lib : YamlLibrary ε) (yamlMatch : YamlMatch) (out : Converted ε) :
    Prop where
  error : ∀ err out', tryConvertIntoMatch lib yamlMatch out = .error err out' → out' = out
  ok : ∀ out', tryConvertIntoMatch lib yamlMatch out = .ok () out' →
    (∃ m, out'.triggerMatches = out.triggerMatches ++ [m] ∧ out'.regexMatches = out.regexMatches)
      ∨ ∃ m, out'.regexMatches = out.regexMatches ++ [m]
        ∧ out'.triggerMatches = out.triggerMatches

theorem leavesOrAppends (lib : YamlLibrary ε) (yamlMatch : YamlMatch) (out : Converted ε) :
    LeavesOrAppends lib yamlMatch out := by
  cases atomic_tryConvertIntoMatch lib yamlMatch with
  | error err h =>
      refine ⟨fun err' out' herror => ?_, fun out' hok => ?_⟩
      · rw [h] at herror
        cases herror
        rfl
      · rw [h] at hok
        cases hok
  | trigger m warnings h =>
      refine ⟨fun err' out' herror => ?_, fun out' hok => ?_⟩
      · rw [h] at herror
        cases herror
      · rw [h] at hok
        cases hok
        exact Or.inl ⟨m, rfl, List.append_nil _⟩
  | regex m warnings h =>
      refine ⟨fun err' out' herror => ?_, fun out' hok => ?_⟩
      · rw [h] at herror
        cases herror
      · rw [h] at hok
        cases hok
        exact Or.inr ⟨m, rfl, List.append_nil _⟩

/-- The file was parsed, and its contents are what each valid entry becomes by itself.  The records
of the conversion come first, and those of the imports after them. -/
structure LoadsValidEntries (lib : YamlLibrary ε) (libs : Libraries (YamlError ε))
    (fs : FileSystem) (path : PathBuf) (content : String) (yaml : YamlMatchFile)
    (file : LoadedMatchFile) (errors : Option (NonFatalErrorSet (LoadError (YamlError ε)))) :
    Prop where
  read : fs.readToString path = some content
  parsed : YamlMatchFile.parseFromStr lib content = .ok yaml
  records : ∃ records importErrors,
    resolvePaths (libs.withYaml lib) fs path (yaml.imports.getD [])
      = .ok (file.importPaths, importErrors)
    ∧ recordsOf errors = records ++ importErrors
    ∧ EachByItself lib yaml file.content records

/-- **A bad entry in a match file affects nothing else.**  The conversion of a match writes to its
outputs all or nothing.  A file that loads has the matches and the global variables that its valid
entries become each by itself, and as many errors as there are other entries. -/
theorem badEntry_affects_nothing (lib : YamlLibrary ε) :
    (∀ yamlMatch out, LeavesOrAppends lib yamlMatch out)
      ∧ ∀ (libs : Libraries (YamlError ε)) (fs : FileSystem) (path : PathBuf)
        (file : LoadedMatchFile) (errors : Option (NonFatalErrorSet (LoadError (YamlError ε)))),
        loadFile (libs.withYaml lib) fs path = .ok (file, errors) →
        ∃ content yaml, LoadsValidEntries lib libs fs path content yaml file errors := by
  refine ⟨leavesOrAppends lib, fun libs fs path file errors h => ?_⟩
  obtain ⟨content, parsed, importErrors, hread, hparse, himports, hcontent, hrecords⟩ :=
    loadFile_eq_ok h
  obtain ⟨yaml, hyaml, rfl⟩ := map_eq_ok_iff.mp hparse
  have hspec := yaml.convert_spec lib
  refine ⟨content, yaml, hread, mapError_eq_ok_iff.mp hyaml, _, importErrors, himports,
    hrecords, ?_⟩
  rw [hcontent]
  refine ⟨hspec.triggerMatches, hspec.regexMatches, hspec.globalVars, ?_⟩
  rw [← hspec.errors]
  unfold errorCount
  rw [List.countP_map]
  rfl

/-- Two matches, of which the second has no effect. -/
def baseYaml : YamlLibrary String where
  fromStr _ := .ok { matches_ := some [{ trigger := some "hello", replace := some "world" },
    { trigger := some "invalid because there is no action field" }] }
  asStr := untaggedStr
  toLowercase text := text

def baseLibraries : Libraries (YamlError String) where
  parseConfig _ := .ok {}
  parseMatchFile _ := .ok {}
  compileRegex _ := .ok ()
  globMatches _ _ := false
  canonical path := path

def baseDirectory : FileSystem where
  files := HashMap.insertEntries ∅ [("/match/base.yml", ⟨"matches:", 1⟩)]
  directories := ["/match"]

omit [UnicodeTables] in
/-- The first of two matches loads, and the second is reported. -/
theorem badEntry_affects_nothing_base :
    ∃ file errors,
      loadFile (@Libraries.withYaml _ .ascii baseLibraries baseYaml) baseDirectory "/match/base.yml"
          = .ok (file, errors)
        ∧ file.content.triggerMatches.length = 1 ∧ errorCount (recordsOf errors) = 1
        ∧ ∃ content yaml, @LoadsValidEntries .ascii _ baseYaml baseLibraries baseDirectory
          "/match/base.yml" content yaml file errors :=
  ⟨_, _, rfl, rfl, rfl, (@badEntry_affects_nothing .ascii _ baseYaml).2 _ _ _ _ _ rfl⟩

end

end Shinran
