/-
  Shinran.Render.FirstLetter
  ──────────────────────────
  **WHAT CAPITALIZING LOSES.**

  A letter can have an uppercase form of several characters.  The two styles
  that capitalize keep the first of them and drop the others, while the style
  that uppercases the whole text keeps them all.

    • `capitals`               — the characters that a style capitalizes,
    • `keepsUppercase_iff`     — nothing is lost iff each of them has an
                                 uppercase form of one character,
    • `not_keepsUppercase_sharpS` — a text that loses a letter.
-/
import Shinran.Render.Template

namespace Shinran

open UnicodeTables (isWord toUppercase)

section
variable [UnicodeTables]

/-! ## §1. Capitals. -/

/-- The first character of every maximal run of word characters. -/
def wordStarts : (inWord : Bool) → List Char → List Char
  | _, [] => []
  | inWord, c :: cs =>
      if isWord c then (if inWord then [] else [c]) ++ wordStarts true cs
      else wordStarts false cs

/-- The characters of the text that the style capitalizes. -/
def capitals : CasingStyle → String → List Char
  | .capitalize, text => text.toList.head?.toList
  | .capitalizeWords, text => wordStarts false text.toList
  | .none, _ | .uppercase, _ => []

/-- The text comes out in the style, with the uppercase form that it had. -/
def KeepsUppercase (style : CasingStyle) (text : String) : Prop :=
  ∃ cased, applyCasing style text = some cased ∧ fullUppercase cased = fullUppercase text

/-- The characters of an uppercase form are in upper case. -/
def UppercaseStable : Prop := ∀ c, ∀ u ∈ toUppercase c, toUppercase u = [u]

/-! ## §2. What is lost. -/

theorem length_toUppercase_pos (c : Char) : 0 < (toUppercase c).length :=
  List.length_pos_iff.mpr (UnicodeTables.toUppercase_ne_nil c)

variable (hstable : UppercaseStable)
include hstable

theorem toUppercase_upperFirst (c : Char) : toUppercase (upperFirst c) = [upperFirst c] :=
  hstable c _ (List.head_mem _)

/-- One capital is its own uppercase form iff that has one character. -/
theorem toUppercase_upperFirst_eq_iff {c : Char} :
    toUppercase (upperFirst c) = toUppercase c ↔ (toUppercase c).length = 1 := by
  rw [toUppercase_upperFirst hstable]
  constructor
  · intro h
    rw [← h, List.length_singleton]
  · intro h
    obtain ⟨u, hu⟩ := List.length_eq_one_iff.mp h
    unfold upperFirst
    simp only [hu, List.head_cons]

/-- Capitals never add to the uppercase form. -/
theorem length_flatMap_capitalizeWords_le : ∀ (inWord : Bool) (cs : List Char),
    ((capitalizeWords inWord cs).flatMap toUppercase).length ≤ (cs.flatMap toUppercase).length
  | _, [] => Nat.le_refl 0
  | inWord, c :: cs => by
      have htail := fun b => length_flatMap_capitalizeWords_le b cs
      have hpos := length_toUppercase_pos c
      unfold capitalizeWords
      split
      · split
        · simpa [List.flatMap_cons] using htail true
        · simp only [List.flatMap_cons, List.length_append, toUppercase_upperFirst hstable,
            List.length_singleton]
          have := htail true
          omega
      · simpa [List.flatMap_cons] using htail false

/-- **Where no word loses a letter.** -/
theorem flatMap_capitalizeWords_eq_iff : ∀ (inWord : Bool) (cs : List Char),
    (capitalizeWords inWord cs).flatMap toUppercase = cs.flatMap toUppercase
      ↔ ∀ c ∈ wordStarts inWord cs, (toUppercase c).length = 1
  | _, [] => by simp [capitalizeWords, wordStarts]
  | inWord, c :: cs => by
      unfold capitalizeWords wordStarts
      split
      · rw [List.forall_mem_append, ← flatMap_capitalizeWords_eq_iff true cs]
        cases inWord with
        | true => simp [List.flatMap_cons]
        | false =>
            simp only [Bool.false_eq_true, if_false, List.flatMap_cons, List.forall_mem_singleton]
            rw [← toUppercase_upperFirst_eq_iff hstable]
            constructor
            · intro h
              -- what the first word loses, the others cannot make up for
              have hlength := congrArg List.length h
              have hle := length_flatMap_capitalizeWords_le hstable true cs
              have hpos := length_toUppercase_pos c
              simp only [List.length_append, toUppercase_upperFirst hstable,
                List.length_singleton] at hlength
              exact List.append_inj h (by simp [toUppercase_upperFirst hstable]; omega)
            · intro h
              rw [h.1, h.2]
      · rw [List.flatMap_cons, List.flatMap_cons, List.append_cancel_left_eq,
          flatMap_capitalizeWords_eq_iff false cs]

/-- **When capitalizing loses nothing.**  In any style, the text that comes out has the uppercase
form of the text that went in if and only if every character that the style capitalizes has an
uppercase form of one character. -/
theorem keepsUppercase_iff (style : CasingStyle) (text : String) (htext : text ≠ "") :
    KeepsUppercase style text ↔ ∀ c ∈ capitals style text, (toUppercase c).length = 1 := by
  have hupper : ∀ cased : String, fullUppercase cased = fullUppercase text
      ↔ cased.toList.flatMap toUppercase = text.toList.flatMap toUppercase := fun _ =>
    String.ofList_inj
  unfold KeepsUppercase
  simp only [hupper]
  cases style with
  | none => simp [applyCasing, capitals]
  | uppercase =>
      have hfixed : ∀ cs : List Char, (cs.flatMap toUppercase).flatMap toUppercase
          = cs.flatMap toUppercase := by
        intro cs
        rw [List.flatMap_assoc]
        refine List.flatMap_congr fun c _ => ?_
        exact (List.flatMap_congr (hstable c)).trans (List.flatMap_singleton' _)
      simp [applyCasing, capitals, hfixed]
  | capitalize =>
      obtain ⟨c, cs, hchars⟩ := List.exists_cons_of_ne_nil
        (fun h => htext (String.toList_eq_nil_iff.mp h))
      simp [applyCasing, capitals, hchars, ← toUppercase_upperFirst_eq_iff hstable]
  | capitalizeWords =>
      simp [applyCasing, capitals, flatMap_capitalizeWords_eq_iff hstable]

end

/-! ## §3. A letter of two characters. -/

theorem ne_sharpS {c : Char} (h : c.toNat < 128) : c ≠ 'ß' := by
  intro heq
  rw [heq] at h
  exact absurd h (by decide)

/-- ASCII, and one more letter. -/
@[reducible] def UnicodeTables.sharpS : UnicodeTables where
  isWord c := c.isAlphanum || c == '_' || c == 'ß'
  isSpace := isAsciiSpace
  toUppercase c := if c = 'ß' then ['S', 'S'] else [c.toUpper]
  isWord_ascii c h := by simp [ne_sharpS h]
  isSpace_ascii := UnicodeTables.ascii.isSpace_ascii
  not_word_of_space c h := by
    have hne : c ≠ 'ß' := by
      intro heq
      rw [heq] at h
      exact absurd h (by decide)
    have hword : (c.isAlphanum || c == '_') = false := UnicodeTables.ascii.not_word_of_space c h
    simp only [hword, Bool.false_or, beq_eq_false_iff_ne]
    exact hne
  toUppercase_ascii c h := if_neg (ne_sharpS h)
  toUppercase_ne_nil c := by
    split
    · simp
    · simp

theorem uppercaseStable_sharpS : @UppercaseStable .sharpS := by
  intro c u hu
  change u ∈ (if c = 'ß' then ['S', 'S'] else [c.toUpper]) at hu
  have hupper : u ≠ 'ß' ∧ u.isLower = false := by
    by_cases hc : c = 'ß'
    · obtain rfl : u = 'S' := by simpa [hc] using hu
      decide
    · obtain rfl : u = c.toUpper := by simpa [hc] using hu
      cases hlower : c.isLower with
      | true =>
          exact ascii_cases (p := fun c => c.isLower = true →
            c.toUpper ≠ 'ß' ∧ c.toUpper.isLower = false) (by decide) c (isLower_ascii hlower) hlower
      | false =>
          rw [toUpper_eq_self hlower]
          exact ⟨hc, hlower⟩
  show (if u = 'ß' then ['S', 'S'] else [u.toUpper]) = [u]
  rw [if_neg hupper.1, toUpper_eq_self hupper.2]

/-- Words that begin with ASCII letters. -/
theorem keepsUppercase_iff_words :
    @KeepsUppercase .sharpS .capitalizeWords "aß bc"
      ↔ ∀ c ∈ @capitals .sharpS .capitalizeWords "aß bc",
        (@toUppercase .sharpS c).length = 1 :=
  @keepsUppercase_iff .sharpS uppercaseStable_sharpS .capitalizeWords "aß bc" (by decide)

/-- **One `S` of two is lost.** -/
theorem not_keepsUppercase_sharpS :
    @applyCasing .sharpS .capitalize "ßa" = some "Sa"
      ∧ @applyCasing .sharpS .capitalizeWords "ßa" = some "Sa"
      ∧ @fullUppercase .sharpS "ßa" = "SSA"
      ∧ ¬ @KeepsUppercase .sharpS .capitalize "ßa"
      ∧ ¬ @KeepsUppercase .sharpS .capitalizeWords "ßa" := by
  have hcapital : @applyCasing .sharpS .capitalize "ßa" = some "Sa" := by decide
  have hwords : @applyCasing .sharpS .capitalizeWords "ßa" = some "Sa" := by decide
  have hupper : @fullUppercase .sharpS "ßa" = "SSA" := by decide
  refine ⟨hcapital, hwords, hupper, fun h => ?_, fun h => ?_⟩
  · obtain ⟨cased, hcased, heq⟩ := h
    obtain rfl : "Sa" = cased := Option.some.inj (hcapital.symm.trans hcased)
    exact absurd heq (by decide)
  · obtain ⟨cased, hcased, heq⟩ := h
    obtain rfl : "Sa" = cased := Option.some.inj (hwords.symm.trans hcased)
    exact absurd heq (by decide)

end Shinran
