/-
  Shinran.Render.VarRegex
  ───────────────────────
  **VARIABLE REFERENCES IN A TEXT** (`VAR_REGEX` of `renderer/mod.rs`).

  The pattern is  `\{\{\s*((?P<name>\w+)(\.(?P<subname>(\w+)))?)\s*\}\}`.
  No character belongs to two of the classes that can follow each other in
  it, so a greedy scan from left to right finds what the regex engine finds:
  at every position at most one match, of one length.

    • `matchAt`  — the match that starts at the head of a text,
    • `pieces`   — the text as plain characters and references, the leftmost
                   non-overlapping matches (`captures_iter`, `replace_all`),
    • `replaceAll` — `str::replace` for a non-empty pattern.

  The Unicode classes are those of the regex engine and of the standard
  library; `UnicodeTables` holds them, with what is known of them.
-/
import Shinran.Types

namespace Shinran

/-! ## §1. Unicode tables. -/

/-- White space among the ASCII characters: tab to carriage return, and the blank. -/
def isAsciiSpace (c : Char) : Bool := c == ' ' || (9 ≤ c.toNat && c.toNat ≤ 13)

/-- The Unicode tables that rendering reads. -/
class UnicodeTables where
  /-- `\w`. -/
  isWord : Char → Bool
  /-- `\s`. -/
  isSpace : Char → Bool
  /-- `char::to_uppercase`. -/
  toUppercase : Char → List Char
  isWord_ascii : ∀ c : Char, c.toNat < 128 → isWord c = (c.isAlphanum || c == '_')
  isSpace_ascii : ∀ c : Char, c.toNat < 128 → isSpace c = isAsciiSpace c
  not_word_of_space : ∀ c : Char, isSpace c = true → isWord c = false
  toUppercase_ascii : ∀ c : Char, c.toNat < 128 → toUppercase c = [c.toUpper]
  toUppercase_ne_nil : ∀ c : Char, toUppercase c ≠ []

/-- The tables cut down to ASCII, on which the real ones agree with them. -/
@[reducible] def UnicodeTables.ascii : UnicodeTables where
  isWord c := c.isAlphanum || c == '_'
  isSpace := isAsciiSpace
  toUppercase c := [c.toUpper]
  isWord_ascii _ _ := rfl
  isSpace_ascii _ _ := rfl
  not_word_of_space c h := by
    simp only [isAsciiSpace, Bool.or_eq_true, Bool.and_eq_true, beq_iff_eq,
      decide_eq_true_eq] at h
    -- tab to carriage return, one by one
    have hcontrols : ∀ n, n < 14 → 9 ≤ n →
        ((Char.ofNat n).isAlphanum || Char.ofNat n == '_') = false := by decide
    cases h with
    | inl hblank =>
        rw [hblank]
        decide
    | inr hcontrol =>
        have hc := hcontrols c.toNat (by omega) hcontrol.1
        rwa [Char.ofNat_toNat] at hc
  toUppercase_ascii _ _ := rfl
  toUppercase_ne_nil _ := by simp

/-- A fact about ASCII characters can be checked one by one. -/
theorem ascii_cases {p : Char → Prop} (h : ∀ n < 128, p (Char.ofNat n)) (c : Char)
    (hc : c.toNat < 128) : p c := by
  have hn := h c.toNat hc
  rwa [Char.ofNat_toNat] at hn

theorem isUpper_eq (c : Char) : c.isUpper = decide ('A'.val ≤ c.val ∧ c.val ≤ 'Z'.val) := rfl

theorem isLower_eq (c : Char) :
    c.isLower = (decide ('a'.val ≤ c.val) && decide (c.val ≤ 'z'.val)) := rfl

theorem isAlpha_eq (c : Char) : c.isAlpha = (c.isUpper || c.isLower) := rfl

theorem toUpper_eq_self {c : Char} (h : c.isLower = false) : c.toUpper = c := by
  unfold Char.toUpper
  rw [dif_neg]
  simpa [isLower_eq] using h

theorem isLower_ascii {c : Char} (h : c.isLower) : c.toNat < 128 := by
  simp only [isLower_eq, Bool.and_eq_true, decide_eq_true_eq, UInt32.le_iff_toNat_le] at h
  have hle : c.val.toNat ≤ 122 := h.2
  show c.val.toNat < 128
  omega

theorem isUpper_toUpper {c : Char} (h : c.isLower) : c.toUpper.isUpper :=
  ascii_cases (p := fun c => c.isLower = true → c.toUpper.isUpper = true) (by decide) c
    (isLower_ascii h) h

/-- `str::to_uppercase`. -/
def fullUppercase [UnicodeTables] (text : String) : String :=
  String.ofList (text.toList.flatMap UnicodeTables.toUppercase)

/-- `str::trim`. -/
def trim [UnicodeTables] (text : String) : String :=
  let front := text.toList.dropWhile UnicodeTables.isSpace
  String.ofList (front.reverse.dropWhile UnicodeTables.isSpace).reverse

/-! ## §2. One match. -/

/-- The groups of one match. -/
structure Captures where
  name : String
  subname : Option String
  deriving DecidableEq, Repr

namespace VarRegex

variable [UnicodeTables]

open UnicodeTables (isWord isSpace)

/-- `(\.(\w+))?`, with the text that is left. -/
def subname : List Char → Option (List Char) × List Char
  | '.' :: cs =>
      -- a dot with no word behind it is left to the close, which fails on it
      if cs.takeWhile isWord = [] then (none, '.' :: cs)
      else (some (cs.takeWhile isWord), cs.dropWhile isWord)
  | cs => (none, cs)

/-- `\s*\}\}`, with the text that is left. -/
def close (cs : List Char) : Option (List Char) :=
  match cs.dropWhile isSpace with
  | '}' :: '}' :: rest => some rest
  | _ => none

/-- The match that starts at the head of the text, with the text that is left after it. -/
def matchAt : List Char → Option (Captures × List Char)
  | '{' :: '{' :: cs =>
      -- a greedy scan; `\w`, `\s`, the dot and the brace exclude each other
      let inner := cs.dropWhile isSpace
      let name := inner.takeWhile isWord
      if name = [] then none
      else
        let (sub, rest) := subname (inner.dropWhile isWord)
        (close rest).map fun rest => (⟨String.ofList name, sub.map String.ofList⟩, rest)
  | _ => none

/-! ## §3. All matches of a text. -/

/-- A character that no match covers, or a match. -/
inductive Piece where
  | lit (c : Char)
  | ref (caps : Captures)
  deriving DecidableEq, Repr

/-- The pieces of a text whose first `skip` characters belong to the match before it. -/
def piecesFrom : (skip : Nat) → List Char → List Piece
  | _, [] => []
  | skip + 1, _ :: cs => piecesFrom skip cs
  | 0, c :: cs =>
      match matchAt (c :: cs) with
      | some (caps, rest) => .ref caps :: piecesFrom (cs.length - rest.length) cs
      | none => .lit c :: piecesFrom 0 cs

/-- The text as plain characters and references. -/
def pieces (text : String) : List Piece := piecesFrom 0 text.toList

/-- `VAR_REGEX.captures_iter(text)`. -/
def captures (text : String) : List Captures :=
  (pieces text).filterMap fun
    | .lit _ => none
    | .ref caps => some caps

/-- `VAR_REGEX.is_match(text)`. -/
def isMatch (text : String) : Bool := !(captures text).isEmpty

end VarRegex

/-! ## §4. `str::replace`. -/

/-- Replace in a text whose first `skip` characters belong to the occurrence before it. -/
def replaceFrom (pattern replacement : List Char) : (skip : Nat) → List Char → List Char
  | _, [] => []
  | skip + 1, _ :: cs => replaceFrom pattern replacement skip cs
  | 0, c :: cs =>
      if pattern.isPrefixOf (c :: cs) then
        replacement ++ replaceFrom pattern replacement (pattern.length - 1) cs
      else c :: replaceFrom pattern replacement 0 cs

/-- `text.replace(pattern, replacement)`. -/
def replaceAll (text pattern replacement : String) : String :=
  String.ofList (replaceFrom pattern.toList replacement.toList 0 text.toList)

end Shinran
