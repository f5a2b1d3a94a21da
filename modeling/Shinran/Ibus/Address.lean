/-
  Shinran.Ibus.Address
  ────────────────────
  **THE ADDRESS OF THE BUS** (`ibus_utils::address`).

  The address is that of an environment variable, or it stands in a socket
  file.  The name of that file is made of the machine, the host and the number
  of the display; the display is named by a variable, too.

    • `getSocketPath`, `getIbusAddress` — the file, and the address in it,
    • `getMachineId_ok_iff`   — what the machine is called by,
    • `DisplayName`           — `[host]:number[.screen]`,
    • `findsSocketFile_iff`   — a display leads to its file iff its screen is
                                named and the user's directory is a text that
                                no empty variable hides,
    • `getIbusAddress_ok_iff` — which address is returned.
-/
import Shinran.Config.FileSystem
import Shinran.Fallible
import Shinran.Render.VarRegex

namespace Shinran

/-! ## §1. The environment. -/

/-- `OsString`: a text, or bytes that spell none. -/
inductive OsString where
  | text (s : String)
  | notUnicode (bytes : ByteArray) (invalid : ¬ bytes.IsValidUTF8)

/-- The variables that are set. -/
abbrev Environment := String → Option OsString

/-- `VarError`. -/
inductive VarError where
  | notPresent
  | notUnicode (value : OsString)

namespace Environment

/-- `env::var`. -/
def var (env : Environment) (name : String) : Except VarError String :=
  match env name with
  | none => .error .notPresent
  | some (.text s) => .ok s
  | some value => .error (.notUnicode value)

/-- The value of a variable that is set to a text, and not to the empty one. -/
def nonEmpty (env : Environment) (name : String) : Option String :=
  match env.var name with
  | .ok val => if val = "" then none else some val
  | .error _ => none

/-- The variable is set to a text. -/
def HasText (env : Environment) (name : String) : Prop := ∃ s, env name = some (.text s)

end Environment

/-! ## §2. The display and the socket file. -/

/-- `str::split_once` at a character. -/
def splitOnce (c : Char) : List Char → Option (List Char × List Char)
  | [] => none
  | d :: text =>
      if d = c then some ([], text)
      else (splitOnce c text).map fun parts => (d :: parts.1, parts.2)

/-- `parse_display_string`. -/
def parseDisplayString (s : String) : Option (String × String) :=
  match splitOnce ':' s.toList with
  | none => none
  | some (hostname, displayScreen) =>
      match splitOnce '.' displayScreen with
      | none => none
      | some (displayNumber, _screenNumber) =>
          some (String.ofList hostname, String.ofList displayNumber)

/-- What the search for the address stops with: an error of a file `ε`, the one that is made for
the display, or a panic. -/
inductive SocketError (ε : Type) where
  | io (err : ε)
  | invalidData (message : String)
  | panicked
  deriving DecidableEq, Repr

section
variable [UnicodeTables] {ε : Type}

/-- `str::trim_start`. -/
def trimStart (text : List Char) : List Char := text.dropWhile UnicodeTables.isSpace

/-- `str::trim_end`. -/
def trimEnd (text : List Char) : List Char :=
  (text.reverse.dropWhile UnicodeTables.isSpace).reverse

/-- `get_machine_id`. -/
def getMachineId (readToString : PathBuf → Except ε String) : Except ε String :=
  let id : Except ε String := match readToString "/var/lib/dbus/machine-id" with
    | .ok id => .ok id
    | .error _ => readToString "/etc/machine-id"
  id.map fun id => String.ofList (trimStart (trimEnd id.toList))

omit [UnicodeTables] in
/-- `get_user_config_dir`. -/
def getUserConfigDir (env : Environment) : Except (SocketError ε) PathBuf :=
  match env.var "XDG_CONFIG_HOME" with
  | .ok val => .ok val
  | .error _ =>
      match env.var "HOME" with
      | .ok home => .ok (PathBuf.join home ".config")
      | .error _ => .error .panicked

omit [UnicodeTables] in
/-- The number of the display, and its host if it has one. -/
def Environment.display (env : Environment) : Except (SocketError ε) (String × Option String) :=
  match env.nonEmpty "WAYLAND_DISPLAY" with
  | some val => .ok (val, none)
  | none =>
      match env.nonEmpty "DISPLAY" with
      | some display =>
          match parseDisplayString display with
          | none => .error (.invalidData "Failed to parse DISPLAY")
          | some (hostname, displayNumber) =>
              .ok (displayNumber, if hostname = "" then none else some hostname)
      -- the default is `:0.0`
      | none => .ok ("0", none)

/-- `get_socket_path`. -/
def getSocketPath (env : Environment) (readToString : PathBuf → Except ε String) :
    Except (SocketError ε) PathBuf :=
  match env.nonEmpty "IBUS_ADDRESS_FILE" with
  | some path => .ok path
  | none => do
      let (displayNumber, hostname) ← env.display
      let machineId ← (getMachineId readToString).mapError .io
      let dir ← getUserConfigDir env
      return PathBuf.join dir
        ("ibus/bus/" ++ machineId ++ "-" ++ hostname.getD "unix" ++ "-" ++ displayNumber)

end

/-! ## §3. The address. -/

/-- `str::lines`. -/
def lines (data : List Char) : List (List Char) :=
  let parts := data.splitOn '\n'
  -- a carriage return belongs to the line break behind it
  let terminated := parts.dropLast.map fun line =>
    if line.getLast? = some '\r' then line.dropLast else line
  terminated ++ (parts.getLast?.filter (· ≠ [])).toList

/-- The text behind a prefix (`str::strip_prefix`). -/
def stripPrefix (pre : String) (line : List Char) : Option String :=
  if pre.toList.isPrefixOf line then some (String.ofList (line.drop pre.length)) else none

/-- The loop over the lines of a socket file. -/
def addressIn (data : String) : String :=
  (lines data.toList).foldl
    (fun address line => (stripPrefix "IBUS_ADDRESS=" line).getD address) ""

/-- What no address is returned for: no socket file, or one `ζ` of the address. -/
inductive BusError (ε ζ : Type) where
  | socket (err : SocketError ε)
  | address (err : ζ)
  deriving DecidableEq, Repr

/-- `get_ibus_address`, with the conversion of a text to an `Address`. -/
def getIbusAddress [UnicodeTables] {ε ζ α : Type} (tryInto : String → Except ζ α)
    (env : Environment) (readToString : PathBuf → Except ε String) : Except (BusError ε ζ) α :=
  match env.nonEmpty "IBUS_ADDRESS" with
  | some address => (tryInto address).mapError .address
  | none => do
      let path ← (getSocketPath env readToString).mapError .socket
      let data ← (readToString path).mapError fun err => .socket (.io err)
      (tryInto (addressIn data)).mapError .address

/-! ## §4. Display names. -/

/-- One or more digits. -/
def isDecimal (s : String) : Bool := !s.toList.isEmpty && s.toList.all Char.isDigit

/-- `[host]:number[.screen]`. -/
structure DisplayName where
  host : String
  number : String
  screen : Option String
  colon_not_mem : ':' ∉ host.toList
  number_decimal : isDecimal number = true
  screen_decimal : screen.all isDecimal = true

namespace DisplayName

/-- The display as it is written. -/
def text (display : DisplayName) : String :=
  display.host ++ ":" ++ display.number ++ display.screen.elim "" ("." ++ ·)

/-- The file of the display on a machine, under the user's directory. -/
def socketFile (display : DisplayName) (machineId : String) : PathBuf :=
  "ibus/bus/" ++ machineId ++ "-" ++ (if display.host = "" then "unix" else display.host)
    ++ "-" ++ display.number

end DisplayName

/-- The environment names the display, and nothing that would be asked for before it. -/
structure Environment.AsksFor (env : Environment) (display : DisplayName) : Prop where
  addressFile : env "IBUS_ADDRESS_FILE" = none ∨ env "IBUS_ADDRESS_FILE" = some (.text "")
  waylandDisplay : env "WAYLAND_DISPLAY" = none ∨ env "WAYLAND_DISPLAY" = some (.text "")
  display : env "DISPLAY" = some (.text display.text)
  configDir : env "XDG_CONFIG_HOME" ≠ none ∨ env "HOME" ≠ none

/-- The user's configuration directory: the one that `XDG_CONFIG_HOME` names, and `.config` at
home if that names none. -/
inductive Environment.ConfigDir (env : Environment) : PathBuf → Prop
  | named {dir : String} : env "XDG_CONFIG_HOME" = some (.text dir) → dir ≠ "" →
      env.ConfigDir dir
  | atHome {home : String} : (∀ dir, env "XDG_CONFIG_HOME" = some (.text dir) → dir = "") →
      env "HOME" = some (.text home) → env.ConfigDir (PathBuf.join home ".config")

/-- The file of the display is found, in the user's directory. -/
def FindsSocketFile [UnicodeTables] {ε : Type} (env : Environment)
    (readToString : PathBuf → Except ε String) (display : DisplayName) (machineId : String) :
    Prop :=
  ∃ dir, env.ConfigDir dir
    ∧ getSocketPath env readToString = .ok (PathBuf.join dir (display.socketFile machineId))

/-! ## §5. Parsing a display. -/

theorem splitOnce_eq_none_iff {c : Char} : ∀ {text : List Char},
    splitOnce c text = none ↔ c ∉ text
  | [] => by simp [splitOnce]
  | d :: text => by
      unfold splitOnce
      split
      · rename_i heq
        simp [heq]
      · rename_i hne
        rw [Option.map_eq_none_iff, splitOnce_eq_none_iff, List.mem_cons, not_or]
        exact (and_iff_right (Ne.symm hne)).symm

theorem splitOnce_append {c : Char} {after : List Char} : ∀ {before : List Char},
    c ∉ before → splitOnce c (before ++ c :: after) = some (before, after)
  | [], _ => by simp [splitOnce]
  | d :: before, h => by
      rw [List.mem_cons, not_or] at h
      rw [List.cons_append, splitOnce, if_neg (Ne.symm h.1), splitOnce_append h.2]
      rfl

theorem not_mem_of_isDecimal {s : String} (h : isDecimal s = true) {c : Char}
    (hc : c.isDigit = false) : c ∉ s.toList := by
  intro hmem
  unfold isDecimal at h
  rw [Bool.and_eq_true, List.all_eq_true] at h
  rw [h.2 c hmem] at hc
  cases hc

theorem DisplayName.toList_text (display : DisplayName) :
    display.text.toList = display.host.toList
      ++ ':' :: (display.number.toList ++ display.screen.elim [] ('.' :: ·.toList)) := by
  unfold DisplayName.text
  cases display.screen <;> simp

/-- **Only a display with a screen is parsed.** -/
theorem parseDisplayString_text (display : DisplayName) :
    parseDisplayString display.text
      = display.screen.map fun _ => (display.host, display.number) := by
  have hdot : '.' ∉ display.number.toList := not_mem_of_isDecimal display.number_decimal (by decide)
  unfold parseDisplayString
  rw [display.toList_text, splitOnce_append display.colon_not_mem]
  cases hscreen : display.screen with
  | none =>
      have hnone : splitOnce '.' (display.number.toList ++ []) = none := by
        rw [List.append_nil]
        exact splitOnce_eq_none_iff.mpr hdot
      simp only [Option.elim_none, hnone]
      rfl
  | some screen =>
      simp only [Option.elim_some, splitOnce_append hdot, String.ofList_toList]
      rfl

/-! ## §6. The machine. -/

section
variable [UnicodeTables] {ε : Type}

theorem trimEnd_cons (c : Char) (text : List Char) :
    trimEnd (c :: text) = if trimEnd text = [] then trimEnd [c] else c :: trimEnd text := by
  unfold trimEnd
  rw [List.reverse_cons, List.dropWhile_append]
  simp only [List.reverse_eq_nil_iff, List.isEmpty_iff]
  split
  · rfl
  · rw [List.reverse_append]
    rfl

/-- Which end is trimmed first makes no difference. -/
theorem trimStart_trimEnd (text : List Char) :
    trimStart (trimEnd text) = trimEnd (trimStart text) := by
  induction text with
  | nil => rfl
  | cons c text ih =>
      cases hc : UnicodeTables.isSpace c with
      | true =>
          have hskip : ∀ cs, trimStart (c :: cs) = trimStart cs := fun _ =>
            List.dropWhile_cons_of_pos hc
          have hblank : trimEnd [c] = [] := congrArg List.reverse (hskip [])
          rw [hskip text, ← ih, trimEnd_cons]
          split
          · rename_i hnil
            rw [hblank, hnil]
          · exact hskip _
      | false =>
          have hkeep : ∀ cs, trimStart (c :: cs) = c :: cs := fun _ =>
            List.dropWhile_cons_of_neg (by simp [hc])
          have hlast : trimEnd [c] = [c] := congrArg List.reverse (hkeep [])
          rw [hkeep text, trimEnd_cons, hlast]
          split
          · exact hkeep []
          · exact hkeep _

/-- **The machine id** is what the first file that can be read holds, trimmed. -/
theorem getMachineId_ok_iff {readToString : PathBuf → Except ε String} {machineId : String} :
    getMachineId readToString = .ok machineId
      ↔ ∃ content, trim content = machineId
        ∧ (readToString "/var/lib/dbus/machine-id" = .ok content
          ∨ (∃ err, readToString "/var/lib/dbus/machine-id" = .error err)
            ∧ readToString "/etc/machine-id" = .ok content) := by
  have htrim : ∀ content : String,
      String.ofList (trimStart (trimEnd content.toList)) = trim content := by
    intro content
    rw [trimStart_trimEnd]
    rfl
  unfold getMachineId
  cases hdbus : readToString "/var/lib/dbus/machine-id" with
  | ok id => simp [map_eq_ok_iff, htrim]
  | error err => simp [map_eq_ok_iff, htrim, and_comm]

end

/-! ## §7. What the environment decides. -/

section
variable {env : Environment} {name : String}

theorem Environment.var_eq_ok_iff {s : String} :
    env.var name = .ok s ↔ env name = some (.text s) := by
  unfold Environment.var
  split <;> simp_all

theorem Environment.nonEmpty_eq_none (h : env name = none ∨ env name = some (.text "")) :
    env.nonEmpty name = none := by
  unfold Environment.nonEmpty Environment.var
  rcases h with h | h <;> simp [h]

theorem Environment.nonEmpty_eq_some {s : String} (h : env name = some (.text s)) (hs : s ≠ "") :
    env.nonEmpty name = some s := by
  unfold Environment.nonEmpty
  rw [Environment.var_eq_ok_iff.mpr h]
  simp [hs]

/-- There is a configuration directory once one of the variables is a text. -/
theorem Environment.exists_configDir (hset : env "XDG_CONFIG_HOME" ≠ some (.text "")) :
    (∃ dir, env.ConfigDir dir) ↔ env.HasText "XDG_CONFIG_HOME" ∨ env.HasText "HOME" := by
  constructor
  · rintro ⟨_, hdir, -⟩
    · exact Or.inl ⟨_, by assumption⟩
    · exact Or.inr ⟨_, by assumption⟩
  · intro h
    by_cases hxdg : env.HasText "XDG_CONFIG_HOME"
    · obtain ⟨dir, hdir⟩ := hxdg
      exact ⟨dir, .named hdir fun hempty => hset (hempty ▸ hdir)⟩
    · obtain ⟨home, hhome⟩ := h.resolve_left hxdg
      exact ⟨_, .atHome (fun dir hdir => absurd ⟨dir, hdir⟩ hxdg) hhome⟩

/-- The code finds the configuration directory, unless the variable is set to nothing. -/
theorem Environment.ConfigDir.getUserConfigDir_eq {ε : Type} {dir : PathBuf}
    (h : env.ConfigDir dir) (hset : env "XDG_CONFIG_HOME" ≠ some (.text "")) :
    getUserConfigDir (ε := ε) env = .ok dir := by
  unfold getUserConfigDir
  cases h with
  | named hdir _ => rw [Environment.var_eq_ok_iff.mpr hdir]
  | atHome hnone hhome =>
      rw [Environment.var_eq_ok_iff.mpr hhome]
      cases hvar : env.var "XDG_CONFIG_HOME" with
      | error err => rfl
      | ok val =>
          have hval := Environment.var_eq_ok_iff.mp hvar
          exact absurd (hnone val hval ▸ hval) hset

/-- A variable that is set to nothing hides the one at home. -/
theorem getUserConfigDir_of_empty {ε : Type} (h : env "XDG_CONFIG_HOME" = some (.text "")) :
    getUserConfigDir (ε := ε) env = .ok "" := by
  unfold getUserConfigDir
  rw [Environment.var_eq_ok_iff.mpr h]

/-- The configuration directory has a name. -/
theorem Environment.ConfigDir.ne_empty {dir : PathBuf} (h : env.ConfigDir dir) : dir ≠ "" := by
  cases h with
  | named _ hne => exact hne
  | @atHome home _ _ =>
      intro hjoin
      have hlength := congrArg String.length hjoin
      unfold PathBuf.join at hlength
      rw [if_neg (by decide)] at hlength
      split at hlength <;> simp at hlength

/-- What is in a directory that has a name is not named without it. -/
theorem PathBuf.join_ne {dir path : PathBuf} (hdir : dir ≠ "")
    (hpath : path.toList.head? ≠ some '/') : PathBuf.join dir path ≠ path := by
  intro hjoin
  have hlength := congrArg String.length hjoin
  unfold PathBuf.join at hlength
  rw [if_neg hpath] at hlength
  split at hlength
  · exact hdir (by simpa using hlength)
  · simp only [String.length_append] at hlength
    have hslash : ("/" : String).length = 1 := rfl
    omega

theorem DisplayName.text_ne_empty (display : DisplayName) : display.text ≠ "" := by
  intro h
  have hlist := congrArg String.toList h
  rw [display.toList_text] at hlist
  simp at hlist

/-- The display is refused if its screen is missing. -/
theorem Environment.AsksFor.display_eq {ε : Type} {display : DisplayName}
    (h : env.AsksFor display) :
    env.display (ε := ε) = match display.screen with
      | none => .error (.invalidData "Failed to parse DISPLAY")
      | some _ => .ok (display.number, if display.host = "" then none else some display.host) := by
  unfold Environment.display
  rw [Environment.nonEmpty_eq_none h.waylandDisplay,
    Environment.nonEmpty_eq_some h.display display.text_ne_empty]
  simp only [parseDisplayString_text]
  cases display.screen with
  | none => rfl
  | some _ => rfl

end

/-! ## §8. From a display to its socket file. -/

section
variable [UnicodeTables] {ε : Type} {env : Environment} {readToString : PathBuf → Except ε String}
  {display : DisplayName} {machineId : String}

theorem getSocketPath_of_none (henv : env.AsksFor display) (hscreen : display.screen = none) :
    getSocketPath env readToString = .error (.invalidData "Failed to parse DISPLAY") := by
  unfold getSocketPath
  rw [Environment.nonEmpty_eq_none henv.addressFile]
  simp only [henv.display_eq, hscreen]
  rfl

theorem getSocketPath_of_some (henv : env.AsksFor display)
    (hid : getMachineId readToString = .ok machineId) (hscreen : display.screen.isSome) :
    getSocketPath env readToString
      = (getUserConfigDir env).map (PathBuf.join · (display.socketFile machineId)) := by
  obtain ⟨screen, hscreen⟩ := Option.isSome_iff_exists.mp hscreen
  have hhost : (if display.host = "" then none else some display.host).getD "unix"
      = if display.host = "" then "unix" else display.host := by
    split <;> rfl
  unfold getSocketPath DisplayName.socketFile
  rw [Environment.nonEmpty_eq_none henv.addressFile]
  simp only [henv.display_eq, hscreen, hid, ok_bind, hhost]
  cases getUserConfigDir (ε := ε) env with
  | error err => rfl
  | ok dir => rfl

omit [UnicodeTables] in
theorem DisplayName.head?_socketFile : (display.socketFile machineId).toList.head? = some 'i' := by
  unfold DisplayName.socketFile
  simp

/-- With a variable that is set to nothing, the file is searched where the program runs. -/
theorem getSocketPath_of_empty (henv : env.AsksFor display)
    (hid : getMachineId readToString = .ok machineId) (hscreen : display.screen.isSome)
    (hempty : env "XDG_CONFIG_HOME" = some (.text "")) :
    getSocketPath env readToString = .ok (display.socketFile machineId) := by
  rw [getSocketPath_of_some henv hid hscreen, getUserConfigDir_of_empty hempty]
  unfold PathBuf.join
  simp [Except.map, DisplayName.head?_socketFile]

/-- **When a display leads to its socket file.**  For every environment that asks for a display
`[host]:number[.screen]`, and every machine id that is read: the file of the display is found
under the user's directory if and only if the display has a screen, `XDG_CONFIG_HOME` or `HOME`
is a text, and `XDG_CONFIG_HOME` is not the empty one. -/
theorem findsSocketFile_iff (henv : env.AsksFor display)
    (hid : getMachineId readToString = .ok machineId) :
    FindsSocketFile env readToString display machineId
      ↔ display.screen.isSome ∧ (env.HasText "XDG_CONFIG_HOME" ∨ env.HasText "HOME")
        ∧ env "XDG_CONFIG_HOME" ≠ some (.text "") := by
  unfold FindsSocketFile
  by_cases hscreen : display.screen.isSome
  · rw [and_iff_right hscreen]
    -- the code takes an empty variable for the directory
    by_cases hset : env "XDG_CONFIG_HOME" = some (.text "")
    · refine iff_of_false (fun h => ?_) (fun h => h.2 hset)
      obtain ⟨dir, hdir, hpath⟩ := h
      rw [getSocketPath_of_empty henv hid hscreen hset, Except.ok.injEq] at hpath
      refine PathBuf.join_ne hdir.ne_empty ?_ hpath.symm
      simp [DisplayName.head?_socketFile]
    · rw [and_iff_left hset, ← Environment.exists_configDir hset,
        getSocketPath_of_some henv hid hscreen]
      refine exists_congr fun dir => and_iff_left_of_imp fun hdir => ?_
      rw [hdir.getUserConfigDir_eq hset]
      rfl
  · refine iff_of_false (fun h => ?_) (fun h => hscreen h.1)
    obtain ⟨_, _, hpath⟩ := h
    rw [getSocketPath_of_none henv (Option.not_isSome_iff_eq_none.mp hscreen)] at hpath
    cases hpath

end

/-- An environment that names a display, and the user's home. -/
def displayEnv (display : DisplayName) (home : OsString) : Environment
  | "DISPLAY" => some (.text display.text)
  | "HOME" => some home
  | _ => none

/-- The same with a home, and a variable for the configuration that is empty. -/
def emptyConfigEnv (display : DisplayName) : Environment
  | "XDG_CONFIG_HOME" => some (.text "")
  | name => displayEnv display (.text "/root") name

theorem displayEnv_asksFor (display : DisplayName) (home : OsString) :
    (displayEnv display home).AsksFor display :=
  ⟨Or.inl rfl, Or.inl rfl, rfl, Or.inr (by simp [displayEnv])⟩

/-- The only file that is there. -/
def machineFile (path : PathBuf) : Except Unit String :=
  if path = "/etc/machine-id" then .ok "4d2\n" else .error ()

/-- `my.host:10.0`. -/
def remoteDisplay : DisplayName where
  host := "my.host"
  number := "10"
  screen := some "0"
  colon_not_mem := by decide
  number_decimal := by decide
  screen_decimal := by decide

theorem findsSocketFile_iff_remote :
    @FindsSocketFile .ascii Unit (displayEnv remoteDisplay (.text "/root")) machineFile
      remoteDisplay "4d2" :=
  (@findsSocketFile_iff .ascii Unit _ _ _ _ (displayEnv_asksFor remoteDisplay _) (by decide)).mpr
    ⟨rfl, Or.inr ⟨"/root", rfl⟩, by simp [displayEnv]⟩

/-- `:0`, the first display of the machine itself. -/
def firstDisplay : DisplayName where
  host := ""
  number := "0"
  screen := none
  colon_not_mem := by decide
  number_decimal := by decide
  screen_decimal := by decide

/-- **A display without a screen** is refused, a home that is no text panics, and an empty
`XDG_CONFIG_HOME` leads elsewhere. -/
theorem not_findsSocketFile_first :
    ((displayEnv firstDisplay (.text "/root")).AsksFor firstDisplay
      ∧ @getMachineId .ascii Unit machineFile = .ok "4d2"
      ∧ @getSocketPath .ascii Unit (displayEnv firstDisplay (.text "/root")) machineFile
        = .error (.invalidData "Failed to parse DISPLAY")
      ∧ ¬ @FindsSocketFile .ascii Unit (displayEnv firstDisplay (.text "/root")) machineFile
        firstDisplay "4d2")
    ∧ @getSocketPath .ascii Unit
        (displayEnv remoteDisplay (.notUnicode (ByteArray.mk #[0xff]) (by decide))) machineFile
      = .error .panicked
    ∧ @getSocketPath .ascii Unit (emptyConfigEnv remoteDisplay) machineFile
      = .ok "ibus/bus/4d2-my.host-10"
    ∧ ¬ @FindsSocketFile .ascii Unit (emptyConfigEnv remoteDisplay) machineFile
      remoteDisplay "4d2" := by
  have hpath : @getSocketPath .ascii Unit (displayEnv firstDisplay (.text "/root")) machineFile
      = .error (.invalidData "Failed to parse DISPLAY") := by
    decide
  have helsewhere : @getSocketPath .ascii Unit (emptyConfigEnv remoteDisplay) machineFile
      = .ok "ibus/bus/4d2-my.host-10" := by
    decide
  refine ⟨⟨displayEnv_asksFor firstDisplay _, by decide, hpath, fun h => ?_⟩, by decide,
    helsewhere, fun h => ?_⟩
  · obtain ⟨_, _, hfound⟩ := h
    rw [hpath] at hfound
    cases hfound
  · obtain ⟨dir, hdir, hfound⟩ := h
    rw [helsewhere, Except.ok.injEq] at hfound
    exact PathBuf.join_ne hdir.ne_empty (by decide) hfound.symm

/-! ## §9. The address that is returned. -/

/-- A loop that keeps the last value it is given. -/
theorem foldl_getD {α β : Type} (f : α → Option β) : ∀ (xs : List α) (b : β),
    xs.foldl (fun b x => (f x).getD b) b = (xs.filterMap f).getLastD b
  | [], _ => rfl
  | x :: xs, b => by
      rw [List.foldl_cons, foldl_getD f xs]
      cases hx : f x with
      | none => rw [List.filterMap_cons_none hx]; rfl
      | some y => rw [List.filterMap_cons_some hx, List.getLastD_cons]; rfl

/-- **Which address is returned.**  It is that of the environment, if that has one that is not
empty; otherwise it is the last one in the socket file. -/
theorem getIbusAddress_ok_iff [UnicodeTables] {ε ζ α : Type} {tryInto : String → Except ζ α}
    {env : Environment} {readToString : PathBuf → Except ε String} {address : α} :
    getIbusAddress tryInto env readToString = .ok address
      ↔ (∃ s, env.nonEmpty "IBUS_ADDRESS" = some s ∧ tryInto s = .ok address)
        ∨ (env.nonEmpty "IBUS_ADDRESS" = none
          ∧ ∃ path data, getSocketPath env readToString = .ok path
            ∧ readToString path = .ok data
            ∧ tryInto (((lines data.toList).filterMap (stripPrefix "IBUS_ADDRESS=")).getLastD "")
              = .ok address) := by
  unfold getIbusAddress
  cases henv : env.nonEmpty "IBUS_ADDRESS" with
  | some s => simp [mapError_eq_ok_iff]
  | none =>
      simp only [bind_eq_ok_iff, mapError_eq_ok_iff, addressIn, foldl_getD]
      simp

end Shinran
