/-
  Shinran.Backend.Adding
  ──────────────────────
  **ADDING MATCH FILES.**

  Match files can be added without harm to what is there: a text that stands
  for something goes on to stand for it, if the added files define none of the
  names again and have nothing to say of the text itself.  Two names are to be
  avoided as well: that of the body's node, and those for which unresolved
  variables have asked in vain.

    • `Adds`             — which files are added to which,
    • `LeavesAlone`      — the added files have nothing for the text,
    • `Context.Picks.restrict` — definitions of all files, cut down to the names
                           of the first ones,
    • `Meaning.added`    — the text keeps its meaning.
-/
import Shinran.Backend.Meaning
import Shinran.Render.Rewriting

namespace Shinran

/-! ## §1. Added files. -/

def DefinesTrigger (files : MatchFile → Prop) (trigger : String) : Prop :=
  ∃ file m, files file ∧ (trigger, m) ∈ file.triggerEntries

def DefinesGlobal (files : MatchFile → Prop) (name : String) : Prop :=
  ∃ file var, files file ∧ (name, var) ∈ file.globalVarEntries

/-- One of the matches of the file has this text. -/
def MatchFile.HasText (file : MatchFile) (effect : TextEffect) : Prop :=
  (∃ m ∈ file.triggerMatches, m.baseMatch.effect = .text effect)
    ∨ ∃ m ∈ file.regexMatches, m.baseMatch.effect = .text effect

/-- An unresolved variable of some text asks for the global of this name. -/
def AsksFor (files : MatchFile → Prop) (name : String) : Prop :=
  ∃ file effect var, files file ∧ file.HasText effect ∧ var ∈ effect.vars
    ∧ var.varType = .unresolved ∧ var.name = name

/-- **Files are added** that define nothing again, and no global of a name to be avoided. -/
structure Adds (files files' : MatchFile → Prop) : Prop where
  keeps : ∀ file, files file → files' file
  triggers : ∀ file, files' file → ¬ files file → ∀ trigger m,
    (trigger, m) ∈ file.triggerEntries → ¬ DefinesTrigger files trigger
  globals : ∀ file, files' file → ¬ files file → ∀ name var,
    (name, var) ∈ file.globalVarEntries →
    ¬ DefinesGlobal files name ∧ name ≠ matchBody ∧ ¬ AsksFor files name

/-- The added files have nothing for the text that would go before what was there. -/
structure LeavesAlone (engine : RegexEngine) (files files' : MatchFile → Prop) (text : String) :
    Prop where
  trigger : ∀ file, files' file → ¬ files file → ∀ m, (text, m) ∉ file.triggerEntries
  lowercase : ¬ DefinesTrigger files text → ∀ file, files' file → ¬ files file → ∀ m,
    (toAsciiLowercase text, m) ∉ file.triggerEntries
  regex : ¬ DefinesTrigger files text → ¬ DefinesTrigger files (toAsciiLowercase text) →
    ∀ file, files' file → ¬ files file → ∀ m ∈ file.regexMatches, ∀ detected,
    ¬ engine.Detects m text detected

section
variable {files files' : MatchFile → Prop} {ctx : Context}

/-! ## §2. The definitions of the first files. -/

open Classical in
/-- The definitions of names that these files define. -/
noncomputable def Context.restrict (ctx : Context) (files : MatchFile → Prop) : Context where
  matchesMap := ctx.matchesMap.restrict (DefinesTrigger files)
  globalVarsMap := ctx.globalVarsMap.restrict (DefinesGlobal files)
  keyed name var h := ctx.keyed name var (HashMap.lookup_restrict_eq_some.mp h).2

section Picks

variable (hadds : Adds files files') (hpicks : ctx.Picks files')
include hadds hpicks

/-- **Cut down to their names, a choice from all files is one from the first.** -/
theorem Context.Picks.restrict : (ctx.restrict files).Picks files := by
  classical
  constructor
  · intro trigger
    constructor
    · intro hsome
      obtain ⟨m, hm⟩ := Option.isSome_iff_exists.mp hsome
      exact (HashMap.lookup_restrict_eq_some.mp hm).1
    · intro hdefines
      have hsome : (ctx.matchesMap.lookup trigger).isSome := by
        obtain ⟨file, m, hfile, hentry⟩ := hdefines
        exact (hpicks.match_isSome trigger).mpr ⟨file, m, hadds.keeps file hfile, hentry⟩
      obtain ⟨m, hm⟩ := Option.isSome_iff_exists.mp hsome
      exact Option.isSome_of_eq_some (HashMap.lookup_restrict_eq_some.mpr ⟨hdefines, hm⟩)
  · intro trigger m hm
    obtain ⟨hdefines, hm⟩ := HashMap.lookup_restrict_eq_some.mp hm
    obtain ⟨file, hfile, hentry⟩ := hpicks.match_ trigger m hm
    by_cases hfirst : files file
    · exact ⟨file, hfirst, hentry⟩
    · exact absurd hdefines (hadds.triggers file hfile hfirst trigger m hentry)
  · intro name
    constructor
    · intro hsome
      obtain ⟨var, hvar⟩ := Option.isSome_iff_exists.mp hsome
      exact (HashMap.lookup_restrict_eq_some.mp hvar).1
    · intro hdefines
      have hsome : (ctx.globalVarsMap.lookup name).isSome := by
        obtain ⟨file, var, hfile, hentry⟩ := hdefines
        exact (hpicks.globalVar_isSome name).mpr ⟨file, var, hadds.keeps file hfile, hentry⟩
      obtain ⟨var, hvar⟩ := Option.isSome_iff_exists.mp hsome
      exact Option.isSome_of_eq_some (HashMap.lookup_restrict_eq_some.mpr ⟨hdefines, hvar⟩)
  · intro name var hvar
    obtain ⟨hdefines, hvar⟩ := HashMap.lookup_restrict_eq_some.mp hvar
    obtain ⟨file, hfile, hentry⟩ := hpicks.globalVar name var hvar
    by_cases hfirst : files file
    · exact ⟨file, hfirst, hentry⟩
    · exact absurd hdefines (hadds.globals file hfile hfirst name var hentry).1

omit hadds in
/-- A trigger that no added file defines. -/
theorem Context.Picks.lookup_match {trigger : String}
    (h : ∀ file, files' file → ¬ files file → ∀ m, (trigger, m) ∉ file.triggerEntries) :
    (ctx.restrict files).matchesMap.lookup trigger = ctx.matchesMap.lookup trigger := by
  classical
  refine HashMap.lookup_restrict fun hsome => ?_
  obtain ⟨file, m, hfile, hentry⟩ := (hpicks.match_isSome trigger).mp hsome
  by_cases hfirst : files file
  · exact ⟨file, m, hfirst, hentry⟩
  · exact absurd hentry (h file hfile hfirst m)

omit hadds in
/-- A global that no added file defines. -/
theorem Context.Picks.lookup_globalVar {name : String}
    (h : ∀ file, files' file → ¬ files file → ∀ var, (name, var) ∉ file.globalVarEntries) :
    (ctx.restrict files).globalVarsMap.lookup name = ctx.globalVarsMap.lookup name := by
  classical
  refine HashMap.lookup_restrict fun hsome => ?_
  obtain ⟨file, var, hfile, hentry⟩ := (hpicks.globalVar_isSome name).mp hsome
  by_cases hfirst : files file
  · exact ⟨file, var, hfirst, hentry⟩
  · exact absurd hentry (h file hfile hfirst var)

/-- What the texts of the first files ask for is not among what is added. -/
theorem Context.Picks.asksAlike {file : MatchFile} {effect : TextEffect} (hfile : files file)
    (htext : file.HasText effect) : ∀ var ∈ effect.vars, var.AsksAlike (ctx.restrict files) ctx := by
  intro var hvar hunresolved
  refine hpicks.lookup_globalVar fun added hadded hfirst var' hentry => ?_
  exact (hadds.globals added hadded hfirst var.name var' hentry).2.2
    ⟨file, effect, var, hfile, htext, hvar, hunresolved, rfl⟩

/-- **The choice from all files has more definitions.** -/
theorem Context.Picks.extendedBy : (ctx.restrict files).ExtendedBy ctx := by
  classical
  refine ⟨fun _ _ h => (HashMap.lookup_restrict_eq_some.mp h).2,
    fun _ _ h => (HashMap.lookup_restrict_eq_some.mp h).2, ?_, fun trigger sub hsub => ?_⟩
  · refine hpicks.lookup_globalVar fun file hfile hfirst var hentry => ?_
    exact (hadds.globals file hfile hfirst matchBody var hentry).2.1 rfl
  · unfold Context.textFor at hsub
    split at hsub
    · rename_i heffect
      cases hsub
      obtain ⟨m, hm, heffect⟩ := Option.map_eq_some_iff.mp heffect
      obtain ⟨file, hfile, hentry⟩ := (hpicks.restrict hadds).match_ trigger m hm
      obtain ⟨m', hm', hentry⟩ := List.mem_flatMap.mp hentry
      obtain ⟨_, _, heq⟩ := List.mem_map.mp hentry
      obtain rfl := (Prod.mk.inj heq).2
      exact hpicks.asksAlike hadds hfile (.inl ⟨m', hm', heffect⟩)
    · cases hsub

end Picks

/-! ## §3. Texts keep their meaning. -/

section Meaning

variable [CaseTables] {runtime : Runtime} {text : String}

section Text

variable (hadds : Adds files files') (halone : LeavesAlone runtime.regex files files' text)
  (hpicks : ctx.Picks files')
include hadds halone hpicks

omit [CaseTables] in
/-- The match of the text is the one that it was before. -/
theorem Context.Picks.matchFor : (ctx.restrict files).matchFor text = ctx.matchFor text := by
  have htext := hpicks.lookup_match halone.trigger
  unfold Context.matchFor
  -- the lowercase form is looked up only where the first files do not define the text
  rw [htext]
  by_cases hdefines : DefinesTrigger files text
  · obtain ⟨m, hm⟩ :=
      Option.isSome_iff_exists.mp (((hpicks.restrict hadds).match_isSome text).mpr hdefines)
    rw [← htext, hm, Option.some_or, Option.some_or]
  · rw [hpicks.lookup_match (halone.lowercase hdefines)]

omit [CaseTables] in
/-- Where the text has no match, the first files define no trigger for it. -/
theorem Context.Picks.not_definesTrigger (hnone : ctx.matchFor text = none) :
    ¬ DefinesTrigger files text ∧ ¬ DefinesTrigger files (toAsciiLowercase text) := by
  rw [← hpicks.matchFor hadds halone] at hnone
  obtain ⟨hexact, hlower⟩ := Option.or_eq_none_iff.mp hnone
  have hrestrict := hpicks.restrict hadds
  rw [DefinesTrigger, DefinesTrigger, ← hrestrict.match_isSome, ← hrestrict.match_isSome, hexact,
    hlower]
  exact ⟨Bool.false_ne_true, Bool.false_ne_true⟩

omit halone in
/-- What a match of the first files expands to stays the same. -/
theorem DetectedMatch.ExpandsTo.added {match_ : DetectedMatch} {out : String}
    (hsettles : (ctx.restrict files).SettlesOn runtime files text match_)
    (h : match_.ExpandsTo runtime (ctx.restrict files) text out) :
    match_.ExpandsTo runtime ctx text out := by
  obtain ⟨effect, body, heffect, hdenotes, hhint⟩ := h.denotes
  -- the text belongs to one of the first files, so nothing that it asks for has been added
  obtain ⟨file, hfile, htext⟩ : ∃ file, files file ∧ file.HasText effect := by
    rcases hsettles with ⟨m, hmatch, rfl⟩ | ⟨_, file, m, hfile, hm, hdetects⟩
    · have hrestrict := hpicks.restrict hadds
      obtain ⟨trigger, hlook⟩ : ∃ trigger,
          (ctx.restrict files).matchesMap.lookup trigger = some m :=
        (Option.or_eq_some_iff.mp hmatch).elim (fun h => ⟨_, h⟩) fun h => ⟨_, h.2⟩
      obtain ⟨file, hfile, hentry⟩ := hrestrict.match_ trigger m hlook
      obtain ⟨m', hm', hentry⟩ := List.mem_flatMap.mp hentry
      obtain ⟨_, _, heq⟩ := List.mem_map.mp hentry
      obtain rfl := (Prod.mk.inj heq).2
      exact ⟨file, hfile, .inl ⟨m', hm', heffect⟩⟩
    · rw [RegexEngine.detect_id hdetects.2] at heffect
      exact ⟨file, hfile, .inr ⟨m, hm, heffect⟩⟩
  refine ⟨h.accepts, effect, body, heffect, fun argOrder => ?_, hhint⟩
  refine (hpicks.extendedBy hadds).denotes (fun var hvar => ?_) (hdenotes argOrder)
  cases mem_vars_augment hvar with
  | inl hvar => exact hpicks.asksAlike hadds hfile htext var hvar
  | inr hentry =>
      -- a captured group is no unresolved variable
      obtain ⟨entry, _, rfl⟩ := hentry
      exact fun hunresolved => by cases hunresolved

end Text

/-- **A text keeps its meaning** when files are added that leave it alone. -/
theorem Meaning.added (hadds : Adds files files')
    (halone : LeavesAlone runtime.regex files files' text) {meaning : Option String}
    (h : Meaning runtime files text meaning) : Meaning runtime files' text meaning := by
  intro ctx hpicks
  have hmatchFor := hpicks.matchFor hadds halone
  -- an expression that is found is one of the first files
  have hfirst : ctx.matchFor text = none → ∀ m detected,
      (∃ file, files' file ∧ m ∈ file.regexMatches) → runtime.regex.Detects m text detected →
      ∃ file, files file ∧ m ∈ file.regexMatches := by
    rintro hnone m detected ⟨file, hfile, hm⟩ hdetects
    obtain ⟨hexact, hlower⟩ := hpicks.not_definesTrigger hadds halone hnone
    by_cases hfirst : files file
    · exact ⟨file, hfirst, hm⟩
    · exact absurd hdetects (halone.regex hexact hlower file hfile hfirst m hm detected)
  cases h (ctx.restrict files) (hpicks.restrict hadds) with
  | trigger hmatch hexpands =>
      refine .trigger (hmatchFor ▸ hmatch) ?_
      exact hexpands.added hadds hpicks (.inl ⟨_, hmatch, rfl⟩)
  | regex hnone hm hdetects hall =>
      obtain ⟨file, hfile, hm⟩ := hm
      have hnone' : ctx.matchFor text = none := hmatchFor ▸ hnone
      refine .regex hnone' ⟨file, hadds.keeps file hfile, hm⟩ hdetects ?_
      intro m detected hm hdetects
      obtain ⟨file, hfile, hm⟩ := hfirst hnone' m detected hm hdetects
      exact (hall m detected ⟨file, hfile, hm⟩ hdetects).added hadds hpicks
        (.inr ⟨hnone, file, m, hfile, hm, hdetects⟩)
  | nothing hnone hnot =>
      have hnone' : ctx.matchFor text = none := hmatchFor ▸ hnone
      refine .nothing hnone' fun m detected hm hdetects => ?_
      exact hnot m detected (hfirst hnone' m detected hm hdetects) hdetects

end Meaning

end

end Shinran
