/-
  Shinran.Render.Verbatim
  ───────────────────────
  **WHAT BECOMES OF THE OUTPUTS IN A BODY.**

  A body is literal text with references between.  The escapes `\{\{` and
  `\}\}` are meant for its literal text, but they are replaced after the
  outputs have been put in, in the whole text and twice.

    • `verbatim`            — the outputs as they are, between the literals
                              unescaped once,
    • `unescape_eq`         — unescaping is one scan for both escapes,
    • `LiteralEscapes`      — no escape is taken but inside a literal, and none
                              is left,
    • `rendersVerbatim_iff` — exactly then the rendering is verbatim,
    • `escape_altered`      — an output that holds an escape, and others.
-/
import Shinran.Render.CasingPanic
import Shinran.Windows

namespace Shinran

open Windows (taken rewritten)

/-! ## §1. Unescaping, in one scan. -/

/-- The two escapes. -/
def escapes : List (List Char) := ["\\\x7b\\\x7b".toList, "\\\x7d\\\x7d".toList]

def isEscape (w : List Char) : Bool := escapes.contains w

/-- What an escape stands for. -/
def dropBackslashes (w : List Char) : List Char := w.filter (· ≠ '\\')

/-- Both escapes replaced in one scan from left to right. -/
def unescapeOnce (text : List Char) : List Char := rewritten 4 isEscape dropBackslashes 0 text

theorem isEscape_iff {w : List Char} : isEscape w = true
    ↔ w = ['\\', '\x7b', '\\', '\x7b'] ∨ w = ['\\', '\x7d', '\\', '\x7d'] := by
  unfold isEscape escapes
  simp

theorem length_escape {w : List Char} (h : isEscape w = true) :
    w.length = 4 ∧ (dropBackslashes w).length + 2 = 4 := by
  rcases isEscape_iff.mp h with rfl | rfl
  · decide
  · decide

/-- An escape loses its backslash, which it begins with. -/
theorem head_escape {c : Char} {w : List Char} (h : isEscape (c :: w) = true) :
    ∃ d w', dropBackslashes (c :: w) = d :: w' ∧ d ≠ c := by
  rcases isEscape_iff.mp h with heq | heq
  · rw [heq, (List.cons.inj heq).1]
    exact ⟨'\x7b', ['\x7b'], by decide, by decide⟩
  · rw [heq, (List.cons.inj heq).1]
    exact ⟨'\x7d', ['\x7d'], by decide, by decide⟩

/-- The opening escapes replaced. -/
def openOnce (text : List Char) : List Char :=
  replaceFrom "\\\x7b\\\x7b".toList "\x7b\x7b".toList 0 text

/-- The closing escapes replaced. -/
def closeOnce (text : List Char) : List Char :=
  replaceFrom "\\\x7d\\\x7d".toList "\x7d\x7d".toList 0 text

theorem openOnce_cons {c : Char} {text : List Char}
    (h : ¬ ['\\', '\x7b', '\\', '\x7b'] <+: c :: text) :
    openOnce (c :: text) = c :: openOnce text := by
  unfold openOnce
  rw [replaceFrom, if_neg]
  rw [List.isPrefixOf_iff_prefix]
  exact h

theorem closeOnce_cons {c : Char} {text : List Char}
    (h : ¬ ['\\', '\x7d', '\\', '\x7d'] <+: c :: text) :
    closeOnce (c :: text) = c :: closeOnce text := by
  unfold closeOnce
  rw [replaceFrom, if_neg]
  rw [List.isPrefixOf_iff_prefix]
  exact h

theorem unescapeOnce_cons {c : Char} {text : List Char}
    (hopen : ¬ ['\\', '\x7b', '\\', '\x7b'] <+: c :: text)
    (hclose : ¬ ['\\', '\x7d', '\\', '\x7d'] <+: c :: text) :
    unescapeOnce (c :: text) = c :: unescapeOnce text := by
  refine Windows.rewritten_cons_of_not_hit ?_
  rw [← Bool.not_eq_true, isEscape_iff, not_or]
  exact ⟨fun h => hopen (h ▸ List.take_prefix 4 _), fun h => hclose (h ▸ List.take_prefix 4 _)⟩

/-- What is no opening brace in front has been there before. -/
theorem cons_eq_openOnce {c : Char} {rest : List Char} (hc : c ≠ '\x7b') : ∀ {text : List Char},
    c :: rest = openOnce text → ∃ text', text = c :: text' ∧ rest = openOnce text'
  | [], h => by cases h
  | d :: text, h => by
      by_cases hbegins : ['\\', '\x7b', '\\', '\x7b'] <+: d :: text
      · obtain ⟨text', heq⟩ := hbegins
        rw [← heq] at h
        exact absurd (List.cons.inj h).1 hc
      · rw [openOnce_cons hbegins] at h
        obtain ⟨rfl, hrest⟩ := List.cons.inj h
        exact ⟨text, rfl, hrest⟩

/-- Replacing the opening escapes makes no closing one. -/
theorem closing_of_openOnce {c : Char} {text : List Char}
    (h : ['\\', '\x7d', '\\', '\x7d'] <+: c :: openOnce text) :
    ['\\', '\x7d', '\\', '\x7d'] <+: c :: text := by
  obtain ⟨rest, heq⟩ := h
  obtain ⟨rfl, htail⟩ := List.cons.inj heq
  -- the three characters behind the backslash, one by one
  obtain ⟨text₁, rfl, hrest₁⟩ := cons_eq_openOnce (by decide : '\x7d' ≠ '\x7b') htail
  obtain ⟨text₂, rfl, hrest₂⟩ := cons_eq_openOnce (by decide : '\\' ≠ '\x7b') hrest₁
  obtain ⟨text₃, rfl, _⟩ := cons_eq_openOnce (by decide : '\x7d' ≠ '\x7b') hrest₂
  exact ⟨text₃, rfl⟩

/-- The two replacements, one after the other, are one scan. -/
theorem closeOnce_openOnce (text : List Char) :
    closeOnce (openOnce text) = unescapeOnce text := by
  -- on the length, as an escape is four characters of it
  induction hn : text.length using Nat.strong_induction_on generalizing text with
  | _ n ih =>
      cases text with
      | nil => rfl
      | cons c cs =>
          by_cases hopen : ['\\', '\x7b', '\\', '\x7b'] <+: c :: cs
          · obtain ⟨rest, heq⟩ := hopen
            have hlength := congrArg List.length heq
            rw [List.length_append, hn] at hlength
            rw [← heq]
            show closeOnce ('\x7b' :: '\x7b' :: openOnce rest)
              = '\x7b' :: '\x7b' :: unescapeOnce rest
            rw [closeOnce_cons (by simp), closeOnce_cons (by simp),
              ih rest.length (by simp at hlength; omega) rest rfl]
          by_cases hclose : ['\\', '\x7d', '\\', '\x7d'] <+: c :: cs
          · obtain ⟨rest, heq⟩ := hclose
            have hlength := congrArg List.length heq
            rw [List.length_append, hn] at hlength
            rw [← heq]
            show closeOnce (openOnce ('\\' :: '\x7d' :: '\\' :: '\x7d' :: rest))
              = '\x7d' :: '\x7d' :: unescapeOnce rest
            rw [openOnce_cons (by simp), openOnce_cons (by simp), openOnce_cons (by simp),
              openOnce_cons (by simp)]
            show '\x7d' :: '\x7d' :: closeOnce (openOnce rest) = _
            rw [ih rest.length (by simp at hlength; omega) rest rfl]
          · rw [openOnce_cons hopen, closeOnce_cons (mt closing_of_openOnce hclose),
              ih cs.length (by rw [← hn]; exact Nat.lt_succ_self _) cs rfl,
              unescapeOnce_cons hopen hclose]

/-- **Unescaping is one scan for both escapes.** -/
theorem unescape_eq (text : String) :
    unescapeVariableInections text = String.ofList (unescapeOnce text.toList) := by
  rw [← closeOnce_openOnce]
  unfold unescapeVariableInections replaceAll closeOnce openOnce
  simp only [String.toList_ofList]

/-! ## §2. Literals and outputs. -/

/-- The literal in front of the first reference, and every reference with the literal behind
it. -/
def segments : List VarRegex.Piece → List Char × List (Captures × List Char)
  | [] => ([], [])
  | .lit c :: pieces => (c :: (segments pieces).1, (segments pieces).2)
  | .ref caps :: pieces => ([], (caps, (segments pieces).1) :: (segments pieces).2)

/-- The outputs as they are, each with the literal behind it, unescaped once. -/
def verbatimAfter (outputs : String → String) (refs : List (Captures × List Char)) : String :=
  String.join (refs.map fun ref =>
    outputs ref.1.name ++ unescapeVariableInections (String.ofList ref.2))

/-- **What the outputs in a body are to read**: each as it is, between the literals of the body,
each of them unescaped once. -/
def verbatim [UnicodeTables] (outputs : String → String) (body : String) : String :=
  unescapeVariableInections (String.ofList (segments (VarRegex.pieces body)).1)
    ++ verbatimAfter outputs (segments (VarRegex.pieces body)).2

/-- A character, with the number of the literal it comes from; none for one of an output. -/
abbrev Sourced := Char × Option Nat

/-- The outputs put in, each with the literal behind it, the first of which has this number. -/
def sourcedAfter (outputs : String → String) : Nat → List (Captures × List Char) → List Sourced
  | _, [] => []
  | i, (caps, literal) :: refs =>
      (outputs caps.name).toList.map (·, none)
        ++ (literal.map (·, some i) ++ sourcedAfter outputs (i + 1) refs)

/-- The body with the outputs put in. -/
def sourced [UnicodeTables] (outputs : String → String) (body : String) : List Sourced :=
  (segments (VarRegex.pieces body)).1.map (·, some 0)
    ++ sourcedAfter outputs 1 (segments (VarRegex.pieces body)).2

/-- All characters come from one literal. -/
def inLiteral : List Sourced → Bool
  | (c, some i) :: w => ((c, some i) :: w).all fun c => c.2 == some i
  | _ => false

def spellsEscape (w : List Sourced) : Bool := isEscape (w.map (·.1))

/-- An escape that lies inside a literal. -/
def isLiteralEscape (w : List Sourced) : Bool := spellsEscape w && inLiteral w

/-- **Every escape that is taken from the body with its outputs lies inside a literal, and there
is none in the text that this leaves.** -/
structure LiteralEscapes [UnicodeTables] (outputs : String → String) (body : String) : Prop where
  inside : ∀ w ∈ taken 4 spellsEscape 0 (sourced outputs body), inLiteral w = true
  nothingLeft : ∀ escape ∈ escapes,
    ¬ escape <:+: unescapeOnce ((sourced outputs body).map (·.1))

/-! ## §3. The scan that takes literal escapes only. -/

theorem isEscape_of_literal {w : List Sourced} (h : isLiteralEscape w = true) :
    spellsEscape w = true := by
  unfold isLiteralEscape at h
  rw [Bool.and_eq_true] at h
  exact h.1

theorem length_spelled {w : List Sourced} (h : spellsEscape w = true) : w.length = 4 := by
  have hlength := (length_escape h).1
  rwa [List.length_map] at hlength

theorem inLiteral_iff {w : List Sourced} : inLiteral w = true
    ↔ w ≠ [] ∧ ∃ i, ∀ c ∈ w, c.2 = some i := by
  unfold inLiteral
  split
  · rename_i c i w
    simp only [List.all_eq_true, beq_iff_eq, ne_eq, reduceCtorEq, not_false_eq_true, true_and]
    constructor
    · intro h
      exact ⟨i, h⟩
    · intro h
      obtain ⟨j, hj⟩ := h
      obtain rfl : i = j := Option.some.inj (hj (c, some i) List.mem_cons_self)
      exact hj
  · rename_i hnone
    refine iff_of_false (by simp) fun h => ?_
    obtain ⟨hne, i, hi⟩ := h
    cases w with
    | nil => exact hne rfl
    | cons c w =>
        exact hnone c.1 i w (by rw [← hi c List.mem_cons_self])

theorem map_source (source : Option Nat) (text : List Char) :
    (text.map fun c => ((c, source) : Sourced)).map (·.1) = text := by
  rw [List.map_map]
  exact List.map_id text

/-- The body with the outputs put in, without its sources. -/
theorem map_sourced {scope : Scope} {outputs : String → String} : ∀ (i : Nat)
    (pieces : List VarRegex.Piece),
    (∀ caps, .ref caps ∈ pieces → scope.lookup caps.name = some (.single (outputs caps.name))) →
    ((segments pieces).1.map (·, some i)
      ++ sourcedAfter outputs (i + 1) (segments pieces).2).map (·.1)
        = (renderPieces scope pieces).1
  | _, [], _ => rfl
  | i, .lit c :: pieces, h => by
      have ih := map_sourced i pieces fun caps hmem => h caps (List.mem_cons_of_mem _ hmem)
      show c :: _ = c :: _
      rw [← ih]
      rfl
  | i, .ref caps :: pieces, h => by
      have ih := map_sourced (i + 1) pieces fun caps hmem => h caps (List.mem_cons_of_mem _ hmem)
      have houtput : (renderReference scope caps).1 = outputs caps.name := by
        unfold renderReference
        rw [h caps List.mem_cons_self]
      rw [renderPieces, ← ih, houtput]
      show (sourcedAfter outputs (i + 1) ((caps, (segments pieces).1) :: (segments pieces).2)).map
        (·.1) = _
      rw [sourcedAfter, List.map_append, map_source]

/-- The literals are numbered in order. -/
theorem le_of_mem_sourcedAfter {outputs : String → String} {c : Sourced} {j : Nat}
    (hc : c.2 = some j) : ∀ {i : Nat} {refs : List (Captures × List Char)},
    c ∈ sourcedAfter outputs i refs → i ≤ j
  | _, [], h => by cases h
  | i, (caps, literal) :: refs, h => by
      rw [sourcedAfter, List.mem_append, List.mem_append] at h
      rcases h with hvalue | hliteral | hrest
      · obtain ⟨_, _, rfl⟩ := List.mem_map.mp hvalue
        cases hc
      · obtain ⟨_, _, rfl⟩ := List.mem_map.mp hliteral
        exact Nat.le_of_eq (Option.some.inj hc)
      · exact Nat.le_of_succ_le (le_of_mem_sourcedAfter hc hrest)

/-- The scan of the literal escapes. -/
def unescapeLiterals (text : List Sourced) : List Sourced :=
  rewritten 4 isLiteralEscape (·.filter (·.1 ≠ '\\')) 0 text

theorem map_unescapeSourced (text : List Sourced) :
    (rewritten 4 spellsEscape (·.filter (·.1 ≠ '\\')) 0 text).map (·.1)
      = unescapeOnce (text.map (·.1)) := by
  refine Windows.rewritten_map (fun w => ?_) 0 text
  unfold dropBackslashes
  rw [List.filter_map]
  rfl

/-- An escape of a body begins with a backslash, and its replacement does not. -/
theorem head_spelled (c : Sourced) (w : List Sourced) (h : spellsEscape (c :: w) = true) :
    ∃ d w', (c :: w).filter (·.1 ≠ '\\') = d :: w' ∧ d.1 ≠ c.1 := by
  obtain ⟨d, w', hdrop, hne⟩ := head_escape h
  have hmap : ((c :: w).filter (·.1 ≠ '\\')).map (·.1) = d :: w' := by
    rw [← hdrop]
    unfold dropBackslashes
    rw [← List.map_cons, List.filter_map]
    rfl
  obtain ⟨d', w'', heq, rfl, _⟩ := List.map_eq_cons_iff.mp hmap
  exact ⟨d', w'', heq, hne⟩

/-- Inside one literal the two scans are the same. -/
theorem unescapeLiterals_literal (i : Nat) (literal : List Char) :
    (unescapeLiterals (literal.map (·, some i))).map (·.1) = unescapeOnce literal := by
  have hinside : ∀ w ∈ taken 4 spellsEscape 0 (literal.map (·, some i)),
      isLiteralEscape w = true := by
    intro w hw
    obtain ⟨hspells, hwithin⟩ := Windows.mem_taken hw
    unfold isLiteralEscape
    rw [Bool.and_eq_true]
    refine ⟨hspells, inLiteral_iff.mpr ⟨fun hnil => ?_, i, fun c hc => ?_⟩⟩
    · have hlength := length_spelled hspells
      rw [hnil] at hlength
      cases hlength
    · obtain ⟨_, _, rfl⟩ := List.mem_map.mp (hwithin.subset hc)
      rfl
  unfold unescapeLiterals
  rw [← (Windows.rewritten_eq_iff (fun _ => isEscape_of_literal) head_spelled (by decide) 0
    _).mpr hinside, map_unescapeSourced, map_source]

/-- A literal is scanned on its own: no escape that reaches beyond it lies inside a literal. -/
theorem unescapeLiterals_append {i : Nat} {rest : List Sourced}
    (hrest : ∀ c ∈ rest, c.2 ≠ some i) (literal : List Char) :
    unescapeLiterals (literal.map (·, some i) ++ rest)
      = unescapeLiterals (literal.map (·, some i)) ++ unescapeLiterals rest := by
  refine Windows.rewritten_append (Nat.zero_le _) fun pre post heq hpost hlength => ⟨?_, ?_⟩
  · rw [← Bool.not_eq_true]
    intro h
    have hfour := length_spelled (isEscape_of_literal h)
    omega
  · rw [← Bool.not_eq_true]
    intro h
    have hfour := length_spelled (isEscape_of_literal h)
    unfold isLiteralEscape at h
    rw [Bool.and_eq_true, inLiteral_iff] at h
    obtain ⟨_, _, j, hj⟩ := h
    rw [List.take_append, List.take_of_length_le (by omega)] at hj hfour
    -- its first character is of this literal, and its last one is not
    have hi : j = i := by
      obtain ⟨c, hc⟩ := List.exists_mem_of_ne_nil post hpost
      have hmem : c ∈ literal.map (·, some i) := by
        rw [heq]
        exact List.mem_append_right _ hc
      obtain ⟨_, _, rfl⟩ := List.mem_map.mp hmem
      exact (Option.some.inj (hj _ (List.mem_append_left _ hc))).symm
    cases hseam : rest.take (4 - post.length) with
    | nil =>
        rw [hseam, List.append_nil] at hfour
        omega
    | cons c w =>
        have hc : c ∈ rest.take (4 - post.length) := by
          rw [hseam]
          exact List.mem_cons_self
        exact hrest c (List.mem_of_mem_take hc) (hi ▸ hj c (List.mem_append_right _ hc))

/-- An output is copied. -/
theorem unescapeLiterals_output (rest : List Sourced) : ∀ output : List Char,
    unescapeLiterals (output.map (·, none) ++ rest)
      = output.map (·, none) ++ unescapeLiterals rest
  | [] => rfl
  | c :: output => by
      have hnot : isLiteralEscape
          (((c, none) :: (output.map (·, none) ++ rest) : List Sourced).take 4) = false := by
        unfold isLiteralEscape
        rw [List.take_succ_cons]
        simp [inLiteral]
      show unescapeLiterals ((c, none) :: (output.map (·, none) ++ rest))
        = (c, none) :: (output.map (·, none) ++ unescapeLiterals rest)
      rw [← unescapeLiterals_output rest output]
      exact Windows.rewritten_cons_of_not_hit hnot

/-- **Taking the literal escapes only writes the verbatim text.** -/
theorem unescapeLiterals_sourcedAfter (outputs : String → String) :
    ∀ (i : Nat) (refs : List (Captures × List Char)) (literal : List Char),
      (unescapeLiterals (literal.map (·, some i) ++ sourcedAfter outputs (i + 1) refs)).map (·.1)
        = unescapeOnce literal ++ (verbatimAfter outputs refs).toList
  | i, [], literal => by
      rw [sourcedAfter, List.append_nil, unescapeLiterals_literal]
      simp [verbatimAfter]
  | i, (caps, next) :: refs, literal => by
      have hnumbers : ∀ c ∈ sourcedAfter outputs (i + 1) ((caps, next) :: refs),
          c.2 ≠ some i := fun c hc heq => absurd (le_of_mem_sourcedAfter heq hc) (by omega)
      rw [unescapeLiterals_append hnumbers, List.map_append, unescapeLiterals_literal,
        sourcedAfter, unescapeLiterals_output, List.map_append, map_source,
        unescapeLiterals_sourcedAfter outputs (i + 1) refs next]
      unfold verbatimAfter
      simp [unescape_eq]

theorem unescapeLiterals_sourced [UnicodeTables] (outputs : String → String) (body : String) :
    (unescapeLiterals (sourced outputs body)).map (·.1) = (verbatim outputs body).toList := by
  unfold sourced verbatim
  rw [unescapeLiterals_sourcedAfter, unescape_eq]
  simp

/-! ## §4. Verbatim renderings. -/

theorem isEscape_mem {w : List Char} : isEscape w = true ↔ w ∈ escapes := by
  unfold isEscape
  rw [List.contains_iff_mem]

/-- Nothing is taken from a text without an escape. -/
theorem taken_isEscape_eq_nil {text : List Char} :
    taken 4 isEscape 0 text = [] ↔ ∀ escape ∈ escapes, ¬ escape <:+: text := by
  rw [Windows.taken_eq_nil_iff (fun w hw => (length_escape hw).1) (by decide)]
  simp only [isEscape_mem]

theorem length_unescapeOnce (text : List Char) :
    (unescapeOnce text).length + 2 * (taken 4 isEscape 0 text).length = text.length :=
  Windows.length_rewritten (by decide) (fun _ => length_escape) 0 text

/-- The scan of the literal escapes takes no more than that of all of them. -/
theorem length_unescapeLiterals (text : List Sourced) :
    (unescapeOnce (text.map (·.1))).length ≤ (unescapeLiterals text).length := by
  have hall := length_unescapeOnce (text.map (·.1))
  have hliterals : (unescapeLiterals text).length
      + 2 * (taken 4 isLiteralEscape 0 text).length = text.length := by
    refine Windows.length_rewritten (by decide) (fun w hw => ?_) 0 text
    have hspells := isEscape_of_literal hw
    refine ⟨length_spelled hspells, ?_⟩
    have hdrop := (length_escape hspells).2
    unfold dropBackslashes at hdrop
    rwa [List.filter_map, List.length_map] at hdrop
  have hle : (taken 4 isLiteralEscape 0 text).length ≤ (taken 4 spellsEscape 0 text).length :=
    Windows.length_taken_le (by decide) (fun _ => isEscape_of_literal) text
  have hmap : (taken 4 spellsEscape 0 text).map (List.map (·.1))
      = taken 4 isEscape 0 (text.map (·.1)) := Windows.taken_map (·.1) 0 text
  have hcount := congrArg List.length hmap
  rw [List.length_map] at hcount
  rw [List.length_map] at hall
  omega

/-- **Unescaping twice writes the verbatim text exactly if the escapes are literal.** -/
theorem unescapeTwice_iff [UnicodeTables] (outputs : String → String) (body : String) :
    unescapeOnce (unescapeOnce ((sourced outputs body).map (·.1)))
        = (verbatim outputs body).toList
      ↔ LiteralEscapes outputs body := by
  rw [← unescapeLiterals_sourced]
  have hsame : unescapeOnce ((sourced outputs body).map (·.1))
        = (unescapeLiterals (sourced outputs body)).map (·.1)
      ↔ ∀ w ∈ taken 4 spellsEscape 0 (sourced outputs body), isLiteralEscape w = true := by
    rw [← map_unescapeSourced]
    exact Windows.rewritten_eq_iff (fun _ => isEscape_of_literal) head_spelled (by decide) 0 _
  constructor
  · intro h
    -- the second unescaping takes nothing: the text is already as short as the verbatim one
    have hlength := congrArg List.length h
    rw [List.length_map] at hlength
    have hsecond := length_unescapeOnce (unescapeOnce ((sourced outputs body).map (·.1)))
    have hle := length_unescapeLiterals (sourced outputs body)
    have hnothing : taken 4 isEscape 0 (unescapeOnce ((sourced outputs body).map (·.1))) = [] :=
      List.length_eq_zero_iff.mp (by omega)
    have honce : unescapeOnce (unescapeOnce ((sourced outputs body).map (·.1)))
        = unescapeOnce ((sourced outputs body).map (·.1)) :=
      Windows.rewritten_of_taken_eq_nil hnothing
    rw [honce] at h
    refine ⟨fun w hw => ?_, taken_isEscape_eq_nil.mp hnothing⟩
    have hliteral := hsame.mp h w hw
    unfold isLiteralEscape at hliteral
    rw [Bool.and_eq_true] at hliteral
    exact hliteral.2
  · intro h
    have honce : unescapeOnce ((sourced outputs body).map (·.1))
        = (unescapeLiterals (sourced outputs body)).map (·.1) := by
      refine hsame.mpr fun w hw => ?_
      unfold isLiteralEscape
      rw [Bool.and_eq_true]
      exact ⟨(Windows.mem_taken hw).1, h.inside w hw⟩
    rw [← honce]
    exact Windows.rewritten_of_taken_eq_nil (taken_isEscape_eq_nil.mpr h.nothingLeft)

section
variable [UnicodeTables]

/-- A body without a reference is one literal. -/
theorem segments_of_not_isMatch {body : String} (h : VarRegex.isMatch body = false) :
    segments (VarRegex.pieces body) = (body.toList, []) := by
  have hrefs : ∀ caps, .ref caps ∉ VarRegex.pieces body := by
    intro caps hmem
    have hempty : VarRegex.captures body = [] := by
      unfold VarRegex.isMatch at h
      simpa using h
    rw [← mem_captures, hempty] at hmem
    cases hmem
  have hchars : ∀ text : List Char, (∀ caps, .ref caps ∉ VarRegex.piecesFrom 0 text) →
      segments (VarRegex.piecesFrom 0 text) = (text, []) := by
    intro text
    induction text with
    | nil => exact fun _ => rfl
    | cons c text ih =>
        intro hnone
        unfold VarRegex.piecesFrom at hnone ⊢
        cases hmatch : VarRegex.matchAt (c :: text) with
        | some found =>
            rw [hmatch] at hnone
            exact absurd List.mem_cons_self (hnone found.1)
        | none =>
            rw [hmatch] at hnone
            have htext := ih fun caps hmem => hnone caps (List.mem_cons_of_mem _ hmem)
            show (c :: (segments (VarRegex.piecesFrom 0 text)).1, _) = _
            rw [htext]
  exact hchars body.toList hrefs

/-- What is substituted, where every reference has an output. -/
theorem renderVariables_sourced {scope : Scope} {outputs : String → String} {body : String}
    (houtputs : ∀ caps ∈ VarRegex.captures body,
      scope.lookup caps.name = some (.single (outputs caps.name))) :
    renderVariables body scope
      = .ok (String.ofList (unescapeOnce ((sourced outputs body).map (·.1)))) := by
  simp only [mem_captures] at houtputs
  have hnone : (renderPieces scope (VarRegex.pieces body)).2 = none := by
    refine (renderPieces_snd_eq_none _).mpr fun caps hmem => ⟨_, houtputs caps hmem, ?_⟩
    intro results h
    cases h
  have htext : (sourced outputs body).map (·.1) = (renderPieces scope (VarRegex.pieces body)).1 :=
    map_sourced 0 _ houtputs
  unfold renderVariables
  cases hpieces : renderPieces scope (VarRegex.pieces body) with
  | mk text err =>
      rw [hpieces] at hnone htext
      obtain rfl : err = none := hnone
      show Except.ok (unescapeVariableInections (String.ofList text)) = _
      rw [unescape_eq, String.toList_ofList, htext]

/-- **When the outputs are substituted verbatim.**  Let the rendering of a template evaluate
every variable that its body refers to, each to a single output.

It renders to its literals, unescaped once, with the outputs between them exactly if it has no
reference, or if every escape that is taken from the body with its outputs lies inside a
literal, and none is left. -/
theorem rendersVerbatim_iff {ren : Renderer} {ctx : Context} {fuel : Nat} {orders : RenderOrder}
    {template : TextEffect} {scope : Scope} {outputs : String → String}
    (hscope : VarRegex.isMatch template.body = true → ∃ vars,
      templateOrder ctx (orders []) template = some (.ok vars)
        ∧ templateLoop ren ctx .none fuel orders vars = some (.ok scope))
    (houtputs : ∀ caps ∈ VarRegex.captures template.body,
      scope.lookup caps.name = some (.single (outputs caps.name))) :
    renderTemplate ren ctx .none (fuel + 1) orders template
        = some (.success (verbatim outputs template.body))
      ↔ VarRegex.isMatch template.body = false ∨ LiteralEscapes outputs template.body := by
  cases hmatch : VarRegex.isMatch template.body with
  | false =>
      refine iff_of_true ?_ (Or.inl rfl)
      have hbody : verbatim outputs template.body = unescapeVariableInections template.body := by
        unfold verbatim verbatimAfter
        rw [segments_of_not_isMatch hmatch]
        simp
      rw [renderTemplate_of_plain hmatch, hbody]
      rfl
  | true =>
      obtain ⟨vars, horder, hloop⟩ := hscope hmatch
      rw [renderTemplate_of_loop hmatch horder hloop (renderVariables_sourced houtputs),
        ← unescapeTwice_iff]
      show some (RenderResult.success (unescapeVariableInections _)) = _ ↔ _
      rw [Option.some.injEq, RenderResult.success.injEq, unescape_eq, String.toList_ofList,
        ← String.toList_inj, String.toList_ofList]
      simp

end

/-- An output that looks like a reference is left alone. -/
theorem rendersVerbatim_iff_reference :
    @renderTemplate .ascii (.answering "\x7b\x7bx\x7d\x7d") Context.default .none 1
      (fun _ => .canonical) echoed
        = some (.success (@verbatim .ascii (fun _ => "\x7b\x7bx\x7d\x7d") echoed.body)) := by
  have hcaps : @VarRegex.captures .ascii echoed.body = [⟨"x", none⟩] := by decide
  refine (@rendersVerbatim_iff .ascii _ _ 0 _ echoed
    ((∅ : Scope).insert "x" (.single "\x7b\x7bx\x7d\x7d")) (fun _ => "\x7b\x7bx\x7d\x7d")
    (fun _ => ⟨echoed.vars, rfl, rfl⟩) ?_).mpr
      (Or.inr (@LiteralEscapes.mk .ascii _ _ (by decide) (by decide)))
  intro caps hmem
  rw [hcaps, List.mem_singleton] at hmem
  rw [hmem]
  exact AList.lookup_insert _

/-! ## §5. Outputs and literals that are altered. -/

/-- **What is altered**: an escape in an output, one that a literal begins and an output ends,
and a literal from which the first unescaping leaves one. -/
theorem escape_altered :
    (@renderTemplate .ascii (.answering "\\\x7b\\\x7b") Context.default .none 1
        (fun _ => .canonical) echoed = some (.success "\x7b\x7b")
      ∧ @verbatim .ascii (fun _ => "\\\x7b\\\x7b") echoed.body = "\\\x7b\\\x7b")
    ∧ (@renderTemplate .ascii (.answering "\\\x7b") Context.default .none 1
        (fun _ => .canonical) { echoed with body := "\\\x7b" ++ echoed.body }
          = some (.success "\x7b\x7b")
      ∧ @verbatim .ascii (fun _ => "\\\x7b") ("\\\x7b" ++ echoed.body) = "\\\x7b\\\x7b")
    ∧ @renderTemplate .ascii (.answering "") Context.default .none 1
        (fun _ => .canonical) { echoed with body := "\\\x7b\\\\\x7b\\\x7b " ++ echoed.body }
          = some (.success "\x7b\x7b\x7b ")
      ∧ @verbatim .ascii (fun _ => "") ("\\\x7b\\\\\x7b\\\x7b " ++ echoed.body)
        = "\\\x7b\\\x7b\x7b " := by
  decide

end Shinran
