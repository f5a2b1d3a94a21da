/-
  Shinran.Backend.RegexVectors
  ────────────────────────────
  **EVERY HIT IS PAIRED WITH ITS OWN MATCH** (`regex.rs`).

  The matcher keeps three vectors, of the matches, of their compiled
  expressions, and of the expressions in a set that tells which of them are in
  a text.  What does not compile is in none of the three.

    • `Vectors.new`, `Vectors.findMatches` — the source's functions,
    • `aligned_pushAll`       — the vectors stay aligned, whatever is left out,
    • `Vectors.findMatches_eq` — so they do what `RegexMatcher` says,
    • `findMatches_paired`    — one detected match for each entry that is hit.
-/
import Mathlib.Data.List.Sort
import Shinran.Backend.RegexMatcher

namespace Shinran

/-! ## §1. The crate. -/

/-- What the matcher calls in the `regex` crate, on compiled expressions `ρ` and sets `σ`. -/
structure RegexCrate (ρ σ : Type) where
  /-- `Regex::new`. -/
  compile : String → Option ρ
  /-- `RegexSet::new`. -/
  compileSet : List String → Option σ
  /-- The indices that `RegexSet::matches` yields. -/
  setMatches : σ → String → List Nat
  captureNames : ρ → List (Option String)
  captures : ρ → String → Option RegexCaptures

namespace RegexCrate

variable {ρ σ : Type}

/-- An expression that compiles finds something in the text. -/
def finds (crate : RegexCrate ρ σ) (text pattern : String) : Bool :=
  ((crate.compile pattern).bind fun regex => crate.captures regex text).isSome

/-- **What is assumed of the sets**: they can be made of expressions that compile, and yield in
ascending order the indices of those that match. -/
structure Lawful (crate : RegexCrate ρ σ) : Prop where
  compileSet_isSome : ∀ patterns, (∀ pattern ∈ patterns, (crate.compile pattern).isSome) →
    (crate.compileSet patterns).isSome
  ascending : ∀ patterns set text, crate.compileSet patterns = some set →
    (crate.setMatches set text).Pairwise (· < ·)
  mem_setMatches : ∀ patterns set text index, crate.compileSet patterns = some set →
    (index ∈ crate.setMatches set text
      ↔ ∃ pattern, patterns[index]? = some pattern ∧ crate.finds text pattern)

/-- The text of the leftmost match of an expression that compiles. -/
def leftmost (crate : RegexCrate ρ σ) (pattern text : String) : Option String :=
  (crate.compile pattern).bind fun regex => (crate.captures regex text).bind (·.full)

/-- A named group of the expression takes part in the match, with this text. -/
def Captures (crate : RegexCrate ρ σ) (pattern text name value : String) : Prop :=
  ∃ regex captures, crate.compile pattern = some regex ∧ crate.captures regex text = some captures
    ∧ some name ∈ crate.captureNames regex ∧ captures.name name = some value

/-- The engine that looks at the expressions one by one. -/
def engine (crate : RegexCrate ρ σ) : RegexEngine where
  compiles pattern := (crate.compile pattern).isSome
  isMatch pattern text := crate.finds text pattern
  captureNames pattern := ((crate.compile pattern).map crate.captureNames).getD []
  captures pattern text := (crate.compile pattern).bind fun regex => crate.captures regex text

end RegexCrate

/-! ## §2. The vectors. -/

namespace RegexMatcher

variable {ρ σ : Type}

/-- The three vectors that the loop of `RegexMatcher::new` fills. -/
structure Filled (ρ : Type) where
  ids : List RegexMatch := []
  regexes : List ρ := []
  goodRegexes : List String := []

/-- The body of the loop: an expression that does not compile is only logged. -/
def Filled.push (crate : RegexCrate ρ σ) (filled : Filled ρ) (m : RegexMatch) : Filled ρ :=
  match crate.compile m.regex with
  | some regex =>
      { ids := filled.ids ++ [m], regexes := filled.regexes ++ [regex]
        goodRegexes := filled.goodRegexes ++ [m.regex] }
  | none => filled

/-- `RegexMatcher`, with its vectors. -/
structure Vectors (ρ σ : Type) where
  ids : List RegexMatch
  regexSet : σ
  regexes : List ρ

/-- `RegexMatcher::new`, unless the set cannot be built. -/
def Vectors.new (crate : RegexCrate ρ σ) (matches_ : List RegexMatch) : Option (Vectors ρ σ) :=
  let filled := matches_.foldl (Filled.push crate) {}
  (crate.compileSet filled.goodRegexes).map fun regexSet =>
    { ids := filled.ids, regexSet, regexes := filled.regexes }

/-- The body of the loop of `find_matches`. -/
def Vectors.detectAt (crate : RegexCrate ρ σ) (vectors : Vectors ρ σ) (trigger : String)
    (index : Nat) : Option DetectedMatch :=
  match vectors.ids[index]?, vectors.regexes[index]? with
  | some m, some regex =>
      (crate.captures regex trigger).bind fun captures =>
        let fullMatch := captures.full.getD ""
        if fullMatch = "" then none
        else some
          { id := .regex m, trigger := fullMatch
            args := HashMap.insertEntries ∅ ((crate.captureNames regex).filterMap fun name? =>
              name?.bind fun name => (captures.name name).map fun value => (name, value)) }
  -- an inconsistent index is only logged
  | _, _ => none

/-- `RegexMatcher::find_matches`. -/
def Vectors.findMatches (crate : RegexCrate ρ σ) (vectors : Vectors ρ σ) (trigger : String) :
    List DetectedMatch :=
  (crate.setMatches vectors.regexSet trigger).filterMap (vectors.detectAt crate trigger)

/-- **The vectors are aligned**: at each index a match, its expression compiled, and its
expression in the set. -/
structure Filled.Aligned (crate : RegexCrate ρ σ) (filled : Filled ρ) (matches_ : List RegexMatch) :
    Prop where
  ids : filled.ids = matches_.filter fun m => (crate.compile m.regex).isSome
  goodRegexes : filled.goodRegexes = filled.ids.map (·.regex)
  regexes : filled.regexes.map some = filled.ids.map fun m => crate.compile m.regex

variable {crate : RegexCrate ρ σ} {matches_ : List RegexMatch}

/-- One more entry keeps them aligned, whether it compiles or not. -/
theorem Filled.Aligned.push {filled : Filled ρ} (h : filled.Aligned crate matches_)
    (m : RegexMatch) : (filled.push crate m).Aligned crate (matches_ ++ [m]) := by
  unfold Filled.push
  cases hcompile : crate.compile m.regex with
  | none =>
      refine ⟨?_, h.goodRegexes, h.regexes⟩
      rw [List.filter_append, h.ids]
      simp [hcompile]
  | some regex =>
      refine ⟨?_, ?_, ?_⟩
      · show filled.ids ++ [m] = _
        rw [List.filter_append, h.ids]
        simp [hcompile]
      · show filled.goodRegexes ++ [m.regex] = (filled.ids ++ [m]).map (·.regex)
        rw [List.map_append, h.goodRegexes]
        rfl
      · show (filled.regexes ++ [regex]).map some
          = (filled.ids ++ [m]).map fun m => crate.compile m.regex
        rw [List.map_append, List.map_append, h.regexes]
        simp [hcompile]

/-- **The loop fills them in step.** -/
theorem aligned_pushAll (crate : RegexCrate ρ σ) (matches_ : List RegexMatch) :
    (matches_.foldl (Filled.push crate) {}).Aligned crate matches_ := by
  induction matches_ using List.reverseRecOn with
  | nil => exact ⟨rfl, rfl, rfl⟩
  | append_singleton matches_ m ih =>
      rw [List.foldl_append]
      exact ih.push m

/-! ## §3. What is found. -/

/-- An ascending list of the indices at which a list satisfies `p` goes through the elements that
do, in their order. -/
theorem filterMap_indices {α β : Type} {as : List α} {p : α → Bool} {f : Nat → Option β}
    {g : α → Option β} {indices : List Nat} (hascending : indices.Pairwise (· < ·))
    (hmem : ∀ index, index ∈ indices ↔ ∃ a, as[index]? = some a ∧ p a)
    (hf : ∀ index a, as[index]? = some a → f index = g a) :
    indices.filterMap f = (as.filter p).filterMap g := by
  have hindices : indices = (List.range as.length).filter fun index => as[index]?.any p := by
    refine hascending.eq_of_mem_iff (List.pairwise_lt_range.filter _) fun index => ?_
    rw [hmem, List.mem_filter, List.mem_range, Option.any_eq_true]
    constructor
    · intro h
      obtain ⟨a, ha, hp⟩ := h
      exact ⟨(List.getElem?_eq_some_iff.mp ha).1, a, ha, hp⟩
    · intro h
      exact h.2
  rw [hindices]
  clear hindices hmem hascending
  -- along the list, from its end
  induction as using List.reverseRecOn with
  | nil => rfl
  | append_singleton as a ih =>
      have hbefore : (List.range as.length).filter (fun index => (as ++ [a])[index]?.any p)
          = (List.range as.length).filter fun index => as[index]?.any p := by
        refine List.filter_congr fun index hindex => ?_
        rw [List.getElem?_append_left (List.mem_range.mp hindex)]
      have hlast : (as ++ [a])[as.length]? = some a := by simp
      have hrest := ih fun index b hb => hf index b (by
        rw [List.getElem?_append_left (List.getElem?_eq_some_iff.mp hb).1]
        exact hb)
      rw [List.length_append, List.length_singleton, List.range_succ, List.filter_append,
        List.filterMap_append, hbefore, hrest, List.filter_append, List.filterMap_append]
      have heq : f as.length = g a := hf _ _ hlast
      congr 1
      by_cases hp : p a
      · simp [hp, List.filterMap_cons, heq]
      · simp [hp]

/-- What `RegexMatcher::new` returns, if it does. -/
theorem Vectors.aligned_of_new {vectors : Vectors ρ σ}
    (h : Vectors.new crate matches_ = some vectors) :
    ∃ filled : Filled ρ, filled.Aligned crate matches_ ∧ vectors.ids = filled.ids
      ∧ vectors.regexes = filled.regexes
      ∧ crate.compileSet filled.goodRegexes = some vectors.regexSet := by
  unfold Vectors.new at h
  obtain ⟨regexSet, hset, rfl⟩ := Option.map_eq_some_iff.mp h
  exact ⟨_, aligned_pushAll crate matches_, rfl, rfl, hset⟩

/-- **The set can be built**: every expression in it compiles. -/
theorem Vectors.new_isSome (hcrate : crate.Lawful) : (Vectors.new crate matches_).isSome := by
  have haligned := aligned_pushAll crate matches_
  unfold Vectors.new
  rw [Option.isSome_map]
  refine hcrate.compileSet_isSome _ fun pattern hpattern => ?_
  rw [haligned.goodRegexes, haligned.ids] at hpattern
  obtain ⟨m, hm, rfl⟩ := List.mem_map.mp hpattern
  exact (List.mem_filter.mp hm).2

/-- At the index of a match, the loop looks for this match. -/
theorem Vectors.detectAt_eq {vectors : Vectors ρ σ} {filled : Filled ρ}
    (haligned : filled.Aligned crate matches_) (hids : vectors.ids = filled.ids)
    (hregexes : vectors.regexes = filled.regexes) {trigger : String} {index : Nat} {m : RegexMatch}
    (hindex : vectors.ids[index]? = some m) :
    vectors.detectAt crate trigger index = crate.engine.detect m trigger := by
  have hcompile : (vectors.regexes[index]?).map some = some (crate.compile m.regex) := by
    rw [← List.getElem?_map, hregexes, haligned.regexes, List.getElem?_map, ← hids, hindex]
    rfl
  obtain ⟨regex, hregex, heq⟩ := Option.map_eq_some_iff.mp hcompile
  unfold Vectors.detectAt RegexEngine.detect RegexEngine.variables RegexCrate.engine
  simp only [hindex, hregex, ← heq, Option.bind_some, Option.map_some, Option.getD_some]

/-- **The vectors do what the matcher is to do.** -/
theorem Vectors.findMatches_eq (hcrate : crate.Lawful) {vectors : Vectors ρ σ}
    (h : Vectors.new crate matches_ = some vectors) (trigger : String) :
    vectors.findMatches crate trigger
      = (RegexMatcher.new crate.engine matches_).findMatches trigger := by
  obtain ⟨filled, haligned, hids, hregexes, hset⟩ := Vectors.aligned_of_new h
  have hnew : (RegexMatcher.new crate.engine matches_).ids = vectors.ids := by
    rw [hids, haligned.ids]
    rfl
  unfold Vectors.findMatches RegexMatcher.findMatches
  rw [hnew]
  refine filterMap_indices (hcrate.ascending _ _ _ hset) (fun index => ?_)
    fun index m hindex => Vectors.detectAt_eq haligned hids hregexes hindex
  rw [hcrate.mem_setMatches _ _ _ _ hset, haligned.goodRegexes, ← hids, List.getElem?_map]
  constructor
  · intro hfound
    obtain ⟨pattern, hpattern, hfinds⟩ := hfound
    obtain ⟨m, hm, rfl⟩ := Option.map_eq_some_iff.mp hpattern
    exact ⟨m, hm, hfinds⟩
  · intro hfound
    obtain ⟨m, hm, hfinds⟩ := hfound
    exact ⟨m.regex, by rw [hm]; rfl, hfinds⟩

/-! ## §4. Each hit with its own match. -/

/-- **A detected match is for an entry**: it names the entry, and holds what the entry's own
expression finds. -/
structure Detects (crate : RegexCrate ρ σ) (text : String) (m : RegexMatch)
    (detected : DetectedMatch) : Prop where
  id : detected.id = .regex m
  trigger : crate.leftmost m.regex text = some detected.trigger
  args : ∀ name value, detected.args.lookup name = some value
    ↔ crate.Captures m.regex text name value

/-- The expression of an entry compiles, and its leftmost match in the text is not empty. -/
def Hits (crate : RegexCrate ρ σ) (text : String) (m : RegexMatch) : Bool :=
  (crate.leftmost m.regex text).any (· ≠ "")

/-- The arguments are the named groups that take part. -/
theorem lookup_variables {pattern text : String} {regex : ρ} {captures : RegexCaptures}
    (hcompile : crate.compile pattern = some regex)
    (hcaptures : crate.captures regex text = some captures) (name value : String) :
    (crate.engine.variables pattern captures).lookup name = some value
      ↔ crate.Captures pattern text name value := by
  have hentry : ∀ name value, (name, value) ∈ (crate.engine.captureNames pattern).filterMap
      (fun name? => name?.bind fun name => (captures.name name).map fun value => (name, value))
        ↔ some name ∈ crate.captureNames regex ∧ captures.name name = some value := by
    intro name value
    simp [RegexCrate.engine, hcompile, List.mem_filterMap, Option.bind_eq_some_iff]
  unfold RegexEngine.variables
  rw [HashMap.lookup_insertEntries, AList.lookup_empty, Option.or_none, lastEntry_eq_some_iff]
  · rw [hentry]
    constructor
    · intro h
      exact ⟨regex, captures, hcompile, hcaptures, h⟩
    · intro h
      obtain ⟨regex', captures', hcompile', hcaptures', hname⟩ := h
      obtain rfl : regex = regex' := by rwa [hcompile, Option.some.injEq] at hcompile'
      obtain rfl : captures = captures' := by rwa [hcaptures, Option.some.injEq] at hcaptures'
      exact hname
  · intro value' h h'
    rw [hentry] at h h'
    rw [h.2, Option.some.injEq] at h'
    exact h'.2.symm

/-- An entry that is hit is detected, and no other. -/
theorem detect_cases (crate : RegexCrate ρ σ) (text : String) (m : RegexMatch) :
    (∃ detected, crate.engine.detect m text = some detected ∧ Hits crate text m = true
        ∧ Detects crate text m detected)
      ∨ crate.engine.detect m text = none ∧ Hits crate text m = false := by
  unfold RegexEngine.detect Hits
  cases hcompile : crate.compile m.regex with
  | none =>
      right
      simp [RegexCrate.engine, RegexCrate.leftmost, hcompile]
  | some regex =>
      have hengine : crate.engine.captures m.regex text = crate.captures regex text := by
        simp [RegexCrate.engine, hcompile]
      have hleftmost : crate.leftmost m.regex text
          = (crate.captures regex text).bind (·.full) := by
        simp [RegexCrate.leftmost, hcompile]
      rw [hengine, hleftmost]
      cases hcaptures : crate.captures regex text with
      | none =>
          right
          exact ⟨rfl, rfl⟩
      | some captures =>
          simp only [Option.bind_some]
          cases hfull : captures.full with
          | none =>
              right
              exact ⟨rfl, rfl⟩
          | some full =>
              by_cases hempty : full = ""
              · right
                simp [hempty]
              · left
                refine ⟨_, if_neg hempty, by simpa using hempty, rfl, ?_, ?_⟩
                · rw [hleftmost, hcaptures]
                  exact hfull
                · exact lookup_variables hcompile hcaptures

/-- The two tests before a match is looked for leave out no match that would be found. -/
theorem findMatches_new_eq (crate : RegexCrate ρ σ) (matches_ : List RegexMatch) (text : String) :
    (RegexMatcher.new crate.engine matches_).findMatches text
      = matches_.filterMap fun m => crate.engine.detect m text := by
  unfold RegexMatcher.findMatches RegexMatcher.new
  rw [List.filter_filter, List.filterMap_filter]
  refine List.filterMap_congr fun m _ => ?_
  cases hcompile : crate.compile m.regex with
  | none => simp [RegexEngine.detect, RegexCrate.engine, hcompile]
  | some regex =>
      cases hcaptures : crate.captures regex text with
      | none => simp [RegexEngine.detect, RegexCrate.engine, hcompile, hcaptures]
      | some captures =>
          rw [if_pos (by simp [RegexCrate.engine, RegexCrate.finds, hcompile, hcaptures])]

/-- **Every hit is paired with its own match.**  The matcher is built, whatever entries do not
compile; and then, in the order of the list, there is one detected match for each entry that is
hit. -/
theorem findMatches_paired (hcrate : crate.Lawful) (matches_ : List RegexMatch) (text : String) :
    ∃ vectors, Vectors.new crate matches_ = some vectors
      ∧ List.Forall₂ (Detects crate text) (matches_.filter (Hits crate text))
          (vectors.findMatches crate text) := by
  obtain ⟨vectors, hnew⟩ := Option.isSome_iff_exists.mp (Vectors.new_isSome hcrate)
  refine ⟨vectors, hnew, ?_⟩
  rw [Vectors.findMatches_eq hcrate hnew, findMatches_new_eq]
  clear hnew
  induction matches_ with
  | nil => exact .nil
  | cons m matches_ ih =>
      rcases detect_cases crate text m with ⟨detected, hdetect, hhits, hdetects⟩ | ⟨hnone, hmiss⟩
      · rw [List.filter_cons_of_pos hhits, List.filterMap_cons]
        simp only [hdetect]
        exact .cons hdetects ih
      · rw [List.filter_cons_of_neg (by simp [hmiss]), List.filterMap_cons]
        simp only [hnone]
        exact ih

/-- A crate whose sets try their expressions one after another. -/
def tryingCrate (compile : String → Option ρ) (captureNames : ρ → List (Option String))
    (captures : ρ → String → Option RegexCaptures) : RegexCrate ρ (List String) where
  compile
  compileSet patterns := if patterns.all fun p => (compile p).isSome then some patterns else none
  setMatches patterns text := (List.range patterns.length).filter fun index =>
    patterns[index]?.any fun p => ((compile p).bind fun regex => captures regex text).isSome
  captureNames
  captures

theorem lawful_tryingCrate {compile : String → Option ρ} {captureNames : ρ → List (Option String)}
    {captures : ρ → String → Option RegexCaptures} :
    (tryingCrate compile captureNames captures).Lawful where
  compileSet_isSome patterns h := by
    simpa [tryingCrate] using h
  ascending patterns set text _ := List.pairwise_lt_range.filter _
  mem_setMatches patterns set text index h := by
    obtain rfl : patterns = set := by
      unfold tryingCrate at h
      dsimp only at h
      split at h
      · exact Option.some.inj h
      · cases h
    have hmem : index ∈ (tryingCrate compile captureNames captures).setMatches patterns text
        ↔ index < patterns.length ∧ patterns[index]?.any (fun p =>
          (tryingCrate compile captureNames captures).finds text p) = true := by
      show index ∈ (List.range patterns.length).filter _ ↔ _
      rw [List.mem_filter, List.mem_range]
      rfl
    rw [hmem, Option.any_eq_true]
    constructor
    · intro h
      exact h.2
    · intro h
      obtain ⟨p, hp, hfinds⟩ := h
      exact ⟨(List.getElem?_eq_some_iff.mp hp).1, p, hp, hfinds⟩

/-- What the crate makes of `hello\((?P<name>.*?)\)` and `say` in one text; nothing else
compiles. -/
def helloCrate : RegexCrate String (List String) :=
  tryingCrate (fun pattern => if pattern = "hello\\((?P<name>.*?)\\)" ∨ pattern = "say" then
      some pattern else none)
    (fun regex => if regex = "say" then [none] else [none, some "name"])
    fun regex text =>
      if text = "say hello(mary)" then
        if regex = "say" then some ⟨some "say", fun _ => none⟩
        else some ⟨some "hello(mary)", fun name => if name = "name" then some "mary" else none⟩
      else none

/-- The second of three entries does not compile. -/
theorem findMatches_paired_hello :
    ∃ vectors, Vectors.new helloCrate [⟨{}, "say"⟩, ⟨{}, "("⟩, ⟨{}, "hello\\((?P<name>.*?)\\)"⟩]
        = some vectors
      ∧ List.Forall₂ (Detects helloCrate "say hello(mary)")
          (List.filter (Hits helloCrate "say hello(mary)")
            [⟨{}, "say"⟩, ⟨{}, "("⟩, ⟨{}, "hello\\((?P<name>.*?)\\)"⟩])
          (vectors.findMatches helloCrate "say hello(mary)") :=
  findMatches_paired lawful_tryingCrate _ "say hello(mary)"

end RegexMatcher

end Shinran
