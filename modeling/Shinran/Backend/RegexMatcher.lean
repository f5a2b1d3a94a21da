/-
  Shinran.Backend.RegexMatcher
  ────────────────────────────
  **MATCHES BY REGULAR EXPRESSION** (`shinran_backend::regex`).

  The regular expressions that compile are tried on a text in the order of the
  match files.  A hit comes with the named groups that took part in it.

    • `RegexMatcher.findMatches`    — the matches that a text contains,
    • `RegexMatcher.mem_findMatches` — each belongs to an expression that compiles.
-/
import Shinran.Backend.ProfileCache

namespace Shinran

/-! ## §1. The engine. -/

/-- `regex::Captures`: the text of the whole match, and those of the named groups. -/
structure RegexCaptures where
  full : Option String
  name : String → Option String

/-- What is used of the `regex` crate. -/
structure RegexEngine where
  /-- Whether `Regex::new` succeeds. -/
  compiles : String → Bool
  /-- Whether `RegexSet::matches` finds the expression in the text. -/
  isMatch : String → String → Bool
  /-- `capture_names`, with no name for a group that has none. -/
  captureNames : String → List (Option String)
  captures : String → String → Option RegexCaptures

variable {engine : RegexEngine}

/-! ## §2. The matcher. -/

/-- `RegexMatcher`: the matches whose expressions compile. -/
structure RegexMatcher (engine : RegexEngine) where
  ids : List RegexMatch
  compiled : ∀ m ∈ ids, engine.compiles m.regex

/-- `RegexMatcher::new`: an expression that does not compile is only logged. -/
def RegexMatcher.new (engine : RegexEngine) (matches_ : List RegexMatch) :
    RegexMatcher engine where
  ids := matches_.filter fun m => engine.compiles m.regex
  compiled _ hm := (List.mem_filter.mp hm).2

/-- The named groups that took part in the match. -/
def RegexEngine.variables (engine : RegexEngine) (regex : String) (captures : RegexCaptures) :
    HashMap String String :=
  HashMap.insertEntries ∅ ((engine.captureNames regex).filterMap fun name? =>
    name?.bind fun name => (captures.name name).map fun value => (name, value))

/-- The body of the loop over the expressions that match. -/
def RegexEngine.detect (engine : RegexEngine) (m : RegexMatch) (trigger : String) :
    Option DetectedMatch :=
  (engine.captures m.regex trigger).bind fun captures =>
    let fullMatch := captures.full.getD ""
    -- an empty match is none
    if fullMatch = "" then none
    else some
      { id := .regex m, trigger := fullMatch, args := engine.variables m.regex captures }

/-- `RegexMatcher::find_matches`. -/
def RegexMatcher.findMatches (matcher : RegexMatcher engine) (trigger : String) :
    List DetectedMatch :=
  (matcher.ids.filter fun m => engine.isMatch m.regex trigger).filterMap fun m =>
    engine.detect m trigger

theorem RegexEngine.detect_id {m : RegexMatch} {trigger : String} {detected : DetectedMatch}
    (h : engine.detect m trigger = some detected) : detected.id = .regex m := by
  unfold RegexEngine.detect at h
  obtain ⟨captures, _, h⟩ := Option.bind_eq_some_iff.mp h
  dsimp only at h
  split_ifs at h
  cases h
  rfl

/-- **What is found** belongs to a match whose expression compiles. -/
theorem RegexMatcher.mem_findMatches {matcher : RegexMatcher engine} {trigger : String}
    {detected : DetectedMatch} (h : detected ∈ matcher.findMatches trigger) :
    ∃ m ∈ matcher.ids, engine.isMatch m.regex trigger ∧ detected.id = .regex m := by
  obtain ⟨m, hm, hdetect⟩ := List.mem_filterMap.mp h
  obtain ⟨hids, hmatch⟩ := List.mem_filter.mp hm
  exact ⟨m, hids, hmatch, RegexEngine.detect_id hdetect⟩

end Shinran
