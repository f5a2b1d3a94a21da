/-
  Shinran.Types
  ─────────────
  **THE DATA OF A MATCH FILE** (`shinran_types`).

  The maps inside a `Value` and the params of a variable are plain association
  lists, because `Value` is recursive through them; a lookup there returns the
  first entry.
-/
import Shinran.HashMap

namespace Shinran

/-! ## §1. Strings. -/

/-- `str::to_ascii_lowercase`. -/
def toAsciiLowercase (s : String) : String := String.ofList (s.toList.map Char.toLower)

/-! ## §2. Parameters and variables. -/

/-- `Number`: a signed 64-bit integer, or a double given by its bits. -/
inductive Number where
  | integer (i : Int64)
  | float (bits : UInt64)
  deriving DecidableEq, Repr

/-- `Value`: a YAML value that a variable receives. -/
inductive Value where
  | null
  | bool (b : Bool)
  | number (n : Number)
  | string (s : String)
  | array (values : List Value)
  | object (fields : List (String × Value))
  deriving Repr

/-- `Params = HashMap<String, Value>`. -/
abbrev Params := List (String × Value)

/-- `params.get(key)`. -/
def Params.get (params : Params) (key : String) : Option Value :=
  (params.find? (fun field => field.1 == key)).map (·.2)

inductive VarType where
  | date
  | mock
  | shell
  | script
  | random
  | echo
  | form
  /-- For nested matches. -/
  | match_
  | unresolved
  deriving DecidableEq, Repr

structure Variable where
  name : String
  varType : VarType := .unresolved
  params : Params := []
  injectVars : Bool := true
  dependsOn : List String := []
  deriving Repr

/-! ## §3. Matches. -/

inductive TextFormat where
  | plain
  | markdown
  | html
  deriving DecidableEq, Repr

inductive TextInjectMode where
  | keys
  | clipboard
  deriving DecidableEq, Repr

structure TextEffect where
  body : String := ""
  vars : List Variable := []
  format : TextFormat := .plain
  forceMode : Option TextInjectMode := none
  deriving Repr

structure ImageEffect where
  path : String
  deriving DecidableEq, Repr

inductive MatchEffect where
  | none
  | text (effect : TextEffect)
  | image (effect : ImageEffect)
  deriving Repr

structure BaseMatch where
  effect : MatchEffect := .none
  label : Option String := Option.none
  searchTerms : List String := []
  deriving Repr

inductive WordBoundary where
  | none
  | left
  | right
  | both
  deriving DecidableEq, Repr

inductive UpperCasingStyle where
  | uppercase
  | capitalize
  | capitalizeWords
  deriving DecidableEq, Repr

structure TriggerMatch where
  baseMatch : BaseMatch := {}
  triggers : List String := []
  propagateCase : Bool := false
  uppercaseStyle : UpperCasingStyle := .uppercase
  wordBoundary : WordBoundary := .none
  deriving Repr

structure RegexMatch where
  baseMatch : BaseMatch := {}
  regex : String
  deriving Repr

end Shinran
