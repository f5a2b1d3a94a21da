/-
  Shinran.Render.Extensions
  ─────────────────────────
  **THE EXTENSIONS, AND WHEN THEY PANIC** (`extension::{echo, random, date, shell, script}`).

  An extension takes whatever params the user has written.  Most of what does
  not fit is answered with an error, but three of the extensions can panic: a
  script without a program, a date that cannot be computed or formatted, and
  a shell that is not named on a system without a default one.

    • `EchoExtension.calculate`, …, `ScriptExtension.calculate` — the source's
      functions; `ExtensionRuntime` holds what they ask of the system,
    • `calculate_ok_iff`   — when none of them panics,
    • `noProgram_panics`   — params on which one does.
-/
import Shinran.Render.EnvVariables
import Shinran.Render.Template

namespace Shinran

/-! ## §1. The system. -/

inductive TargetOs where
  | windows
  | macos
  | linux
  | other
  deriving DecidableEq, Repr

/-- `exec_util::MacShell`. -/
inductive MacShell where
  | bash
  | nu
  | pwsh
  | sh
  | zsh
  deriving DecidableEq, Repr

inductive Shell where
  | bash
  | cmd
  | nu
  | powershell
  | pwsh
  | sh
  | wsl
  | wsl2
  | zsh
  deriving DecidableEq, Repr

/-- `chrono::Locale`, by its code. -/
structure Locale where
  code : String
  deriving DecidableEq, Repr

/-- What is used of `chrono`, with dates `δ` and durations `τ`; `none` is a panic. -/
structure Chrono (δ τ : Type) where
  /-- `Duration::seconds` -/
  seconds : Int64 → Option τ
  /-- `now += offset` -/
  add : δ → τ → Option δ
  /-- `format_localized(format, locale).to_string()` -/
  formatLocalized : δ → String → Locale → Option String
  toRfc2822 : δ → Option String

/-- `process::Output`, with what was written as text. -/
structure Output where
  success : Bool
  stdout : String
  stderr : String
  deriving DecidableEq, Repr

/-- What the extensions ask of the system. -/
structure ExtensionRuntime (δ τ : Type) where
  targetOs : TargetOs
  chrono : Chrono δ τ
  now : δ
  /-- `sys_locale::get_locale` -/
  systemLocale : Option String
  /-- what `thread_rng` yields -/
  random : Nat
  /-- the shell of the user, on macOS -/
  defaultMacosShell : Option MacShell
  /-- the `PATH` of a login shell, on macOS -/
  pathOverride : Option MacShell → Option String
  scopeOrder : ScopeOrder
  /-- a program with its arguments and environment, or why it cannot be run -/
  execute : String → List String → HashMap String String → Except String Output

/-- What an extension stops with when it panics. -/
inductive ExtensionPanic where
  | indexOutOfBounds
  | secondsOutOfRange
  | dateOutOfRange
  | invalidFormat
  | noRfc2822
  | invalidTargetOs
  deriving DecidableEq, Repr

/-! ## §2. Params. -/

/-- The strings among the values: `filter_map(|arg| arg.as_string())`. -/
def stringsOf (values : List Value) : List String :=
  values.filterMap fun
    | .string s => some s
    | _ => none

/-- `Value::String` under the key. -/
def Params.getString (params : Params) (key : String) : Option String :=
  match params.get key with
  | some (.string s) => some s
  | _ => none

/-- `Value::Array` under the key. -/
def Params.getArray (params : Params) (key : String) : Option (List Value) :=
  match params.get key with
  | some (.array values) => some values
  | _ => none

/-- `Value::Number(Number::Integer(_))` under the key. -/
def Params.getInteger (params : Params) (key : String) : Option Int64 :=
  match params.get key with
  | some (.number (.integer i)) => some i
  | _ => none

/-- `params.get(key).and_then(|v| v.as_bool()).copied().unwrap_or(otherwise)`. -/
def Params.getBool (params : Params) (key : String) (otherwise : Bool) : Bool :=
  match params.get key with
  | some (.bool b) => b
  | _ => otherwise

/-! ## §3. Echo and random. -/

/-- The error of an extension, by its message. -/
def ExtensionResult.message (text : String) : ExtensionResult := .error (.message text)

variable {δ τ : Type}

def EchoExtension.calculate (params : Params) : Except ExtensionPanic ExtensionResult :=
  match params.getString "echo" with
  | some echo => .ok (.success (.single echo))
  | none => .ok (.message "missing 'echo' parameter")

/-- `choices.choose(&mut rand::thread_rng())`. -/
def choose (random : Nat) (choices : List String) : Option String :=
  choices[random % choices.length]?

def RandomExtension.calculate (runtime : ExtensionRuntime δ τ) (params : Params) :
    Except ExtensionPanic ExtensionResult :=
  match params.getArray "choices" with
  | some choices =>
    match choose runtime.random (stringsOf choices) with
    | some choice => .ok (.success (.single choice))
    | none => .ok (.message "could not select a choice randomly")
  | none => .ok (.message "missing 'choices' parameter")

/-! ## §4. Dates. -/

/-- The codes that `convert_locale_string_to_locale` knows. -/
def localeCodes : List String :=
  ["aa-DJ", "aa-ER", "aa-ET", "af-ZA", "agr-PE", "ak-GH", "am-ET", "an-ES", "anp-IN", "ar-AE",
   "ar-BH", "ar-DZ", "ar-EG", "ar-IN", "ar-IQ", "ar-JO", "ar-KW", "ar-LB", "ar-LY", "ar-MA",
   "ar-OM", "ar-QA", "ar-SA", "ar-SD", "ar-SS", "ar-SY", "ar-TN", "ar-YE", "as-IN", "ast-ES",
   "ayc-PE", "az-AZ", "az-IR", "be-BY", "bem-ZM", "ber-DZ", "ber-MA", "bg-BG", "bhb-IN",
   "bho-IN", "bho-NP", "bi-VU", "bn-BD", "bn-IN", "bo-CN", "bo-IN", "br-FR", "brx-IN", "bs-BA",
   "byn-ER", "ca-AD", "ca-ES", "ca-FR", "ca-IT", "ce-RU", "chr-US", "cmn-TW", "crh-UA", "cs-CZ",
   "csb-PL", "cv-RU", "cy-GB", "da-DK", "de-AT", "de-BE", "de-CH", "de-DE", "de-IT", "de-LI",
   "de-LU", "doi-IN", "dsb-DE", "dv-MV", "dz-BT", "el-CY", "el-GR", "en-AG", "en-AU", "en-BW",
   "en-CA", "en-DK", "en-GB", "en-HK", "en-IE", "en-IL", "en-IN", "en-NG", "en-NZ", "en-PH",
   "en-SC", "en-SG", "en-US", "en-ZA", "en-ZM", "en-ZW", "eo", "es-AR", "es-BO", "es-CL",
   "es-CO", "es-CR", "es-CU", "es-DO", "es-EC", "es-ES", "es-GT", "es-HN", "es-MX", "es-NI",
   "es-PA", "es-PE", "es-PR", "es-PY", "es-SV", "es-US", "es-UY", "es-VE", "et-EE", "eu-ES",
   "fa-IR", "ff-SN", "fi-FI", "fil-PH", "fo-FO", "fr-BE", "fr-CA", "fr-CH", "fr-FR", "fr-LU",
   "fur-IT", "fy-DE", "fy-NL", "ga-IE", "gd-GB", "gez-ER", "gez-ET", "gl-ES", "gu-IN", "gv-GB",
   "ha-NG", "hak-TW", "he-IL", "hi-IN", "hif-FJ", "hne-IN", "hr-HR", "hsb-DE", "ht-HT", "hu-HU",
   "hy-AM", "ia-FR", "id-ID", "ig-NG", "ik-CA", "is-IS", "it-CH", "it-IT", "iu-CA", "ja-JP",
   "ka-GE", "kab-DZ", "kk-KZ", "kl-GL", "km-KH", "kn-IN", "ko-KR", "kok-IN", "ks-IN", "ku-TR",
   "kw-GB", "ky-KG", "lb-LU", "lg-UG", "li-BE", "li-NL", "lij-IT", "ln-CD", "lo-LA", "lt-LT",
   "lv-LV", "lzh-TW", "mag-IN", "mai-IN", "mai-NP", "mfe-MU", "mg-MG", "mhr-RU", "mi-NZ",
   "miq-NI", "mjw-IN", "mk-MK", "ml-IN", "mn-MN", "mni-IN", "mnw-MM", "mr-IN", "ms-MY", "mt-MT",
   "my-MM", "nan-TW", "nb-NO", "nds-DE", "nds-NL", "ne-NP", "nhn-MX", "niu-NU", "niu-NZ",
   "nl-AW", "nl-BE", "nl-NL", "nn-NO", "nr-ZA", "nso-ZA", "oc-FR", "om-ET", "om-KE", "or-IN",
   "os-RU", "pa-IN", "pa-PK", "pap-AW", "pap-CW", "pl-PL", "ps-AF", "pt-BR", "pt-PT", "quz-PE",
   "raj-IN", "ro-RO", "ru-RU", "ru-UA", "rw-RW", "sa-IN", "sah-RU", "sat-IN", "sc-IT", "sd-IN",
   "se-NO", "sgs-LT", "shn-MM", "shs-CA", "si-LK", "sid-ET", "sk-SK", "sl-SI", "sm-WS", "so-DJ",
   "so-ET", "so-KE", "so-SO", "sq-AL", "sq-MK", "sr-ME", "sr-RS", "ss-ZA", "st-ZA", "sv-FI",
   "sv-SE", "sw-KE", "sw-TZ", "szl-PL", "ta-IN", "ta-LK", "tcy-IN", "te-IN", "tg-TJ", "th-TH",
   "the-NP", "ti-ER", "ti-ET", "tig-ER", "tk-TM", "tl-PH", "tn-ZA", "to-TO", "tpi-PG", "tr-CY",
   "tr-TR", "ts-ZA", "tt-RU", "ug-CN", "uk-UA", "unm-US", "ur-IN", "ur-PK", "uz-UZ", "ve-ZA",
   "vi-VN", "wa-BE", "wae-CH", "wal-ET", "wo-SN", "xh-ZA", "yi-US", "yo-NG", "yue-HK", "yuw-PG",
   "zh-CN", "zh-HK", "zh-SG", "zh-TW", "zu-ZA"]

def convertLocaleStringToLocale (locale : String) : Option Locale :=
  if locale ∈ localeCodes then some ⟨locale⟩ else none

def getSystemLocale (runtime : ExtensionRuntime δ τ) : String :=
  runtime.systemLocale.getD "en-US"

/-- The locale that the params ask for. -/
def dateLocale (runtime : ExtensionRuntime δ τ) (params : Params) : Locale :=
  let locale := (params.getString "locale").getD (getSystemLocale runtime)
  (convertLocaleStringToLocale locale).getD ⟨"en-US"⟩

/-- A step of `chrono`, or its panic. -/
def orPanic {α : Type} (panic : ExtensionPanic) : Option α → Except ExtensionPanic α
  | some a => .ok a
  | none => .error panic

/-- The date with the offset of the params. -/
def offsetDate (runtime : ExtensionRuntime δ τ) (params : Params) : Except ExtensionPanic δ :=
  match params.getInteger "offset" with
  | some offset => do
    let offset ← orPanic .secondsOutOfRange (runtime.chrono.seconds offset)
    orPanic .dateOutOfRange (runtime.chrono.add runtime.now offset)
  | none => .ok runtime.now

/-- The text of the date, in the format of the params. -/
def formatDate (runtime : ExtensionRuntime δ τ) (params : Params) (date : δ) :
    Except ExtensionPanic String :=
  match params.getString "format" with
  | some format =>
    orPanic .invalidFormat (runtime.chrono.formatLocalized date format (dateLocale runtime params))
  | none => orPanic .noRfc2822 (runtime.chrono.toRfc2822 date)

/-- `calculate`, which is `calculate_with_date` of the present date. -/
def DateExtension.calculate (runtime : ExtensionRuntime δ τ) (params : Params) :
    Except ExtensionPanic ExtensionResult := do
  let now ← offsetDate runtime params
  let date ← formatDate runtime params now
  .ok (.success (.single date))

/-! ## §5. Shells. -/

/-- The program that runs a command, and its arguments. -/
def Shell.command (cmd : String) : Shell → String × List String
  | .bash => ("bash", ["-c", cmd])
  | .cmd => ("cmd", ["/C", cmd])
  | .nu => ("nu", ["--commands", cmd])
  | .powershell => ("powershell", ["-Command", cmd])
  | .pwsh => ("pwsh", ["-Command", cmd])
  | .sh => ("sh", ["-c", cmd])
  | .wsl => ("bash", ["-c", cmd])
  | .wsl2 => ("wsl", ["bash", "-c", cmd])
  | .zsh => ("zsh", ["-c", cmd])

def Shell.isWsl : Shell → Bool
  | .wsl | .wsl2 => true
  | _ => false

def Shell.macShell? : Shell → Option MacShell
  | .bash => some .bash
  | .nu => some .nu
  | .pwsh => some .pwsh
  | .sh => some .sh
  | .zsh => some .zsh
  | _ => none

/-- `from_string`. -/
def Shell.fromString : String → Option Shell
  | "bash" => some .bash
  | "cmd" => some .cmd
  | "nu" => some .nu
  | "powershell" => some .powershell
  | "pwsh" => some .pwsh
  | "sh" => some .sh
  | "wsl" => some .wsl
  | "wsl2" => some .wsl2
  | "zsh" => some .zsh
  | _ => none

/-- `Shell::default()`. -/
def Shell.default (runtime : ExtensionRuntime δ τ) : Except ExtensionPanic Shell :=
  match runtime.targetOs with
  | .windows => .ok .powershell
  | .macos =>
    match runtime.defaultMacosShell with
    | some .bash => .ok .bash
    | some .nu => .ok .nu
    | some .pwsh => .ok .pwsh
    | some .sh => .ok .sh
    | some .zsh => .ok .zsh
    | none => .ok .sh
  | .linux => .ok .bash
  | .other => .error .invalidTargetOs

/-- `execute_cmd`. -/
def Shell.executeCmd (runtime : ExtensionRuntime δ τ) (shell : Shell) (cmd : String)
    (vars : HashMap String String) (overridePathOnMacos : Bool) : Except String Output :=
  let env :=
    if runtime.targetOs = .macos ∧ overridePathOnMacos then
      match runtime.pathOverride shell.macShell? with
      | some path => vars.insert "PATH" path
      | none => vars
    else vars
  let env :=
    if shell.isWsl then env.insert "WSLENV" (String.intercalate ":" ("CONFIG/p" :: vars.keys))
    else env
  runtime.execute (shell.command cmd).1 (shell.command cmd).2 env

section
variable [UnicodeTables]

/-- The result for what a command has written. -/
def outputResult (params : Params) (output : Output) : ExtensionResult :=
  .success (.single (if params.getBool "trim" true then trim output.stdout else output.stdout))

structure ShellExtension where
  configPath : String

/-- The result of running the command in a shell. -/
def ShellExtension.run (extension : ShellExtension) (runtime : ExtensionRuntime δ τ)
    (scope : Scope) (params : Params) (cmd : String) (shell : Shell) : ExtensionResult :=
  let envVariables :=
    (convertToEnvVariables runtime.scopeOrder scope).insert "CONFIG" extension.configPath
  match shell.executeCmd runtime cmd envVariables (params.getBool "macos_override_path" true) with
  | .ok output =>
    if output.success then outputResult params output
    else .message ("command reported error: '`" ++ output.stderr ++ "`'")
  | .error error =>
    .message ("could not execute command: '`" ++ cmd ++ "`', error: '`" ++ error ++ "`'")

def ShellExtension.calculate (extension : ShellExtension) (runtime : ExtensionRuntime δ τ)
    (scope : Scope) (params : Params) : Except ExtensionPanic ExtensionResult :=
  match params.getString "cmd" with
  | none => .ok (.message "missing 'cmd' parameter")
  | some cmd =>
    match params.getString "shell" with
    | some shellParam =>
      match Shell.fromString shellParam with
      | some shell => .ok (extension.run runtime scope params cmd shell)
      | none => .ok (.message ("invalid shell: `" ++ shellParam ++ "` is not a valid one"))
    | none => (Shell.default runtime).map (extension.run runtime scope params cmd)

/-! ## §6. Scripts. -/

structure ScriptExtension where
  homePath : String
  configPath : String
  packagesPath : String

/-- An argument with its placeholders replaced; a text without one is left alone.  On Windows a
path that exists is read as a path and written back. -/
def ScriptExtension.expandArg (extension : ScriptExtension) (arg : String) : String :=
  let arg := replaceAll arg "%HOME%" extension.homePath
  let arg := replaceAll arg "%CONFIG%" extension.configPath
  replaceAll arg "%PACKAGES%" extension.packagesPath

def ScriptExtension.calculate (extension : ScriptExtension) (runtime : ExtensionRuntime δ τ)
    (scope : Scope) (params : Params) : Except ExtensionPanic ExtensionResult :=
  match params.getArray "args" with
  | none => .ok (.message "missing 'args' parameter")
  | some args =>
    match (stringsOf args).map extension.expandArg with
    -- `args[0]`, of the strings that the array holds
    | [] => .error .indexOutOfBounds
    | program :: args =>
      let env := HashMap.insertEntries
        ((∅ : HashMap String String).insert "CONFIG" extension.configPath)
        (convertToEnvVariables runtime.scopeOrder scope).pairs
      match runtime.execute program args env with
      | .ok output =>
        let failed := !output.success || trim output.stderr ≠ ""
        if failed && !params.getBool "ignore_error" false then
          .ok (.message ("script reported error: '`" ++ output.stderr ++ "`'"))
        else .ok (outputResult params output)
      | .error error =>
        .ok (.message
          ("could not execute script: '`" ++ program ++ "`', error: '`" ++ error ++ "`'"))

/-! ## §7. When they do not panic. -/

/-- The array of the script's arguments holds a string, if there is one. -/
def HasProgram (params : Params) : Prop :=
  ∀ values, params.get "args" = some (.array values) → ∃ s, Value.string s ∈ values

/-- The date that the offset leads to, if it is in range. -/
inductive ShiftsTo (runtime : ExtensionRuntime δ τ) (params : Params) : δ → Prop
  | unchanged : (∀ i, params.get "offset" ≠ some (.number (.integer i))) →
      ShiftsTo runtime params runtime.now
  | shifted {i : Int64} {offset : τ} {date : δ} :
      params.get "offset" = some (.number (.integer i)) →
      runtime.chrono.seconds i = some offset → runtime.chrono.add runtime.now offset = some date →
      ShiftsTo runtime params date

/-- The offset is in range, and the date that it leads to can be written in the format. -/
def DatePrintable (runtime : ExtensionRuntime δ τ) (params : Params) : Prop :=
  ∃ date, ShiftsTo runtime params date
    ∧ (∀ format, params.get "format" = some (.string format) →
      (runtime.chrono.formatLocalized date format (dateLocale runtime params)).isSome)
    ∧ ((∀ format, params.get "format" ≠ some (.string format)) →
      (runtime.chrono.toRfc2822 date).isSome)

/-- A command names its shell, or the system has a default one. -/
def ShellKnown (runtime : ExtensionRuntime δ τ) (params : Params) : Prop :=
  ∀ cmd, params.get "cmd" = some (.string cmd) →
    (∃ s, params.get "shell" = some (.string s)) ∨ runtime.targetOs ≠ .other

/-- It ends with a success, an abortion or an error. -/
def Ends (result : Except ExtensionPanic ExtensionResult) : Prop := ∃ r, result = .ok r

variable {params : Params}

omit [UnicodeTables] in
theorem getString_eq_some {key s : String} :
    params.getString key = some s ↔ params.get key = some (.string s) := by
  unfold Params.getString
  split
  · rename_i t heq
    simp [heq]
  · rename_i hnot
    refine iff_of_false (by simp) fun h => hnot s h

omit [UnicodeTables] in
theorem getString_eq_none {key : String} :
    params.getString key = none ↔ ∀ s, params.get key ≠ some (.string s) := by
  rw [Option.eq_none_iff_forall_ne_some]
  simp only [ne_eq, getString_eq_some]

omit [UnicodeTables] in
theorem getArray_eq_some {key : String} {values : List Value} :
    params.getArray key = some values ↔ params.get key = some (.array values) := by
  unfold Params.getArray
  split
  · rename_i t heq
    simp [heq]
  · rename_i hnot
    refine iff_of_false (by simp) fun h => hnot values h

omit [UnicodeTables] in
theorem getInteger_eq_some {key : String} {i : Int64} :
    params.getInteger key = some i ↔ params.get key = some (.number (.integer i)) := by
  unfold Params.getInteger
  split
  · rename_i t heq
    simp [heq]
  · rename_i hnot
    refine iff_of_false (by simp) fun h => hnot i h

omit [UnicodeTables] in
theorem mem_stringsOf {values : List Value} {s : String} :
    s ∈ stringsOf values ↔ Value.string s ∈ values := by
  unfold stringsOf
  rw [List.mem_filterMap]
  constructor
  · intro h
    obtain ⟨value, hvalue, heq⟩ := h
    split at heq
    · cases heq
      exact hvalue
    · cases heq
  · intro h
    exact ⟨_, h, rfl⟩

omit [UnicodeTables] in
theorem orPanic_eq_ok {α : Type} {panic : ExtensionPanic} {step : Option α} {a : α} :
    orPanic panic step = .ok a ↔ step = some a := by
  cases step <;> simp [orPanic]

omit [UnicodeTables] in
theorem EchoExtension.ends : Ends (EchoExtension.calculate params) := by
  unfold EchoExtension.calculate
  split
  · exact ⟨_, rfl⟩
  · exact ⟨_, rfl⟩

omit [UnicodeTables] in
theorem RandomExtension.ends (runtime : ExtensionRuntime δ τ) :
    Ends (RandomExtension.calculate runtime params) := by
  unfold RandomExtension.calculate
  split
  · split
    · exact ⟨_, rfl⟩
    · exact ⟨_, rfl⟩
  · exact ⟨_, rfl⟩

/-- **A script** ends iff there is a program among its arguments. -/
theorem ScriptExtension.ends_iff (extension : ScriptExtension) (runtime : ExtensionRuntime δ τ)
    (scope : Scope) : Ends (extension.calculate runtime scope params) ↔ HasProgram params := by
  unfold ScriptExtension.calculate HasProgram
  simp only [← getArray_eq_some]
  cases params.getArray "args" with
  | none => exact iff_of_true ⟨_, rfl⟩ (by simp)
  | some values =>
      simp only [Option.some.injEq, forall_eq', ← mem_stringsOf]
      cases hstrings : stringsOf values with
      | nil =>
          refine iff_of_false ?_ (by simp)
          intro h
          obtain ⟨r, hr⟩ := h
          cases hr
      | cons program args =>
          refine iff_of_true ?_ ⟨program, List.mem_cons_self⟩
          simp only [List.map_cons]
          split
          · split
            · exact ⟨_, rfl⟩
            · exact ⟨_, rfl⟩
          · exact ⟨_, rfl⟩

omit [UnicodeTables] in
theorem offsetDate_eq_ok {runtime : ExtensionRuntime δ τ} {date : δ} :
    offsetDate runtime params = .ok date ↔ ShiftsTo runtime params date := by
  unfold offsetDate
  cases hoffset : params.getInteger "offset" with
  | none =>
      have hnot : ∀ i, params.get "offset" ≠ some (.number (.integer i)) := by
        intro i hi
        rw [getInteger_eq_some.mpr hi] at hoffset
        cases hoffset
      constructor
      · intro h
        cases h
        exact .unchanged hnot
      · intro h
        cases h with
        | unchanged => rfl
        | shifted hi => exact absurd hi (hnot _)
  | some i =>
      dsimp only
      rw [bind_eq_ok_iff]
      simp only [orPanic_eq_ok]
      have hi := getInteger_eq_some.mp hoffset
      constructor
      · intro h
        obtain ⟨offset, hseconds, hadd⟩ := h
        exact .shifted hi hseconds hadd
      · intro h
        cases h with
        | unchanged hnot => exact absurd hi (hnot i)
        | @shifted i' offset _ hi' hseconds hadd =>
            obtain rfl : i = i' := by
              rw [hi] at hi'
              cases hi'
              rfl
            exact ⟨offset, hseconds, hadd⟩

omit [UnicodeTables] in
theorem exists_formatDate {runtime : ExtensionRuntime δ τ} {date : δ} :
    (∃ text, formatDate runtime params date = .ok text)
      ↔ (∀ format, params.get "format" = some (.string format) →
          (runtime.chrono.formatLocalized date format (dateLocale runtime params)).isSome)
        ∧ ((∀ format, params.get "format" ≠ some (.string format)) →
          (runtime.chrono.toRfc2822 date).isSome) := by
  unfold formatDate
  simp only [← getString_eq_none, ← getString_eq_some, Option.isSome_iff_exists]
  cases params.getString "format" with
  | none => simp [orPanic_eq_ok]
  | some format => simp [orPanic_eq_ok]

omit [UnicodeTables] in
/-- **A date** ends iff it can be computed and written. -/
theorem DateExtension.ends_iff (runtime : ExtensionRuntime δ τ) :
    Ends (DateExtension.calculate runtime params) ↔ DatePrintable runtime params := by
  unfold Ends DateExtension.calculate DatePrintable
  simp only [bind_eq_ok_iff, ← exists_formatDate, ← offsetDate_eq_ok]
  constructor
  · intro h
    obtain ⟨_, date, hdate, text, htext, _⟩ := h
    exact ⟨date, hdate, text, htext⟩
  · intro h
    obtain ⟨date, hdate, text, htext⟩ := h
    exact ⟨_, date, hdate, text, htext, rfl⟩

omit [UnicodeTables] in
theorem Shell.exists_default {runtime : ExtensionRuntime δ τ} :
    (∃ shell, Shell.default runtime = .ok shell) ↔ runtime.targetOs ≠ .other := by
  unfold Shell.default
  cases runtime.targetOs with
  | macos =>
      refine iff_of_true ?_ (by simp)
      cases runtime.defaultMacosShell with
      | none => exact ⟨_, rfl⟩
      | some shell => cases shell <;> exact ⟨_, rfl⟩
  | windows | linux => exact iff_of_true ⟨_, rfl⟩ (by simp)
  | other => exact iff_of_false (by simp) (by simp)

/-- **A command** ends iff its shell is known. -/
theorem ShellExtension.ends_iff (extension : ShellExtension) (runtime : ExtensionRuntime δ τ)
    (scope : Scope) :
    Ends (extension.calculate runtime scope params) ↔ ShellKnown runtime params := by
  unfold Ends ShellExtension.calculate ShellKnown
  simp only [← getString_eq_some]
  cases params.getString "cmd" with
  | none => exact iff_of_true ⟨_, rfl⟩ (by simp)
  | some cmd =>
      simp only [Option.some.injEq, forall_eq']
      cases hshell : params.getString "shell" with
      | some shellParam =>
          refine iff_of_true ?_ (Or.inl ⟨shellParam, rfl⟩)
          dsimp only
          split
          · exact ⟨_, rfl⟩
          · exact ⟨_, rfl⟩
      | none =>
          rw [← Shell.exists_default, or_iff_right (by simp)]
          cases Shell.default runtime with
          | error panic => simp [Except.map]
          | ok shell => exact iff_of_true ⟨_, rfl⟩ ⟨shell, rfl⟩

/-- **When no extension panics.** -/
theorem calculate_ok_iff (runtime : ExtensionRuntime δ τ) (script : ScriptExtension)
    (shell : ShellExtension) (scope : Scope) (params : Params) :
    (Ends (EchoExtension.calculate params)
        ∧ Ends (RandomExtension.calculate runtime params)
        ∧ Ends (DateExtension.calculate runtime params)
        ∧ Ends (shell.calculate runtime scope params)
        ∧ Ends (script.calculate runtime scope params))
      ↔ DatePrintable runtime params ∧ ShellKnown runtime params ∧ HasProgram params := by
  rw [and_iff_right EchoExtension.ends, and_iff_right (RandomExtension.ends runtime),
    DateExtension.ends_iff, shell.ends_iff, script.ends_iff]

end

/-! ## §8. A script without a program. -/

/-- A Linux system on which the time stands still; durations are seconds, within the bounds of
`chrono`, and a format is a text without specifiers. -/
def stillRuntime : ExtensionRuntime Int Int where
  targetOs := .linux
  chrono := {
    seconds := fun n => if n.toInt.natAbs ≤ 9223372036854775 then some n.toInt else none
    add := fun date offset =>
      if (date + offset).natAbs ≤ 8210266876799 then some (date + offset) else none
    formatLocalized := fun _ format _ => if '%' ∈ format.toList then none else some format
    toRfc2822 := fun _ => some "" }
  now := 0
  systemLocale := none
  random := 0
  defaultMacosShell := none
  pathOverride := fun _ => none
  scopeOrder := .canonical
  execute := fun _ _ _ => .ok ⟨true, "", ""⟩

/-- **Arguments of which none is a string**, an offset of all the seconds that there are, and a
format that ends in a percent sign. -/
theorem noProgram_panics :
    @ScriptExtension.calculate _ _ .ascii ⟨"", "", ""⟩ stillRuntime ∅
        [("args", .array [.number (.integer 1)])] = .error .indexOutOfBounds
      ∧ DateExtension.calculate stillRuntime
        [("offset", .number (.integer 9223372036854775807))] = .error .secondsOutOfRange
      ∧ DateExtension.calculate stillRuntime [("format", .string "100%")] = .error .invalidFormat :=
  ⟨rfl, rfl, rfl⟩

end Shinran
