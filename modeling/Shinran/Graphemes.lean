/-
  Shinran.Graphemes
  ─────────────────
  **EXTENDED GRAPHEME CLUSTERS.**

  Where Unicode text is cut into what a reader takes for characters.  Whether
  two characters are kept together depends on the one behind and on what the
  rules look back at: the class of the character before, and whether a run of
  regional indicators, a pictograph or a conjunct is under way (`Memory`).

    • `Memory.joins`        — the rules,
    • `clusters`            — the clusters of a text,
    • `Memory.push_of_boundary` — behind a boundary all is as at the start,
    • `length_clusters_append`  — so clusters are counted in parts,
    • `Memory.starts_le`    — a text has no more clusters behind another one
                              than it has alone,
    • `dropLast_eq_iff`     — taking clusters off the end, up to a boundary.
-/
import Mathlib.Data.List.Basic

namespace Graphemes

/-! ## §1. Character properties. -/

/-- `Grapheme_Cluster_Break`. -/
inductive ClusterBreak where
  | cr
  | lf
  | control
  | extend
  | zwj
  | regionalIndicator
  | prepend
  | spacingMark
  | l
  | v
  | t
  | lv
  | lvt
  | other
  deriving DecidableEq, Repr

/-- `Indic_Conjunct_Break`. -/
inductive ConjunctBreak where
  | none
  | consonant
  | extend
  | linker
  deriving DecidableEq, Repr

/-- The properties of characters, with what is known of them. -/
class GraphemeTables where
  clusterBreak : Char → ClusterBreak
  conjunctBreak : Char → ConjunctBreak
  /-- `Extended_Pictographic`. -/
  isPictographic : Char → Bool
  /-- The printable ASCII characters have no part in any rule. -/
  printable : ∀ c : Char, 32 ≤ c.toNat → c.toNat < 127 →
    clusterBreak c = .other ∧ conjunctBreak c = .none ∧ isPictographic c = false
  pictographic_other : ∀ c, isPictographic c = true → clusterBreak c = .other
  consonant_other : ∀ c, conjunctBreak c = .consonant → clusterBreak c = .other
  conjunct_extends : ∀ c, conjunctBreak c = .extend ∨ conjunctBreak c = .linker →
    clusterBreak c = .extend ∨ clusterBreak c = .zwj

/-- The tables cut down to ASCII and the combining diacritical marks. -/
@[reducible] def GraphemeTables.latin : GraphemeTables where
  clusterBreak c :=
    if c.toNat = 13 then .cr else if c.toNat = 10 then .lf
    else if c.toNat < 32 ∨ c.toNat = 127 then .control
    else if 0x300 ≤ c.toNat ∧ c.toNat ≤ 0x36f then .extend
    else .other
  conjunctBreak c := if 0x300 ≤ c.toNat ∧ c.toNat ≤ 0x36f then .extend else .none
  isPictographic _ := false
  printable c hlow hhigh := by
    refine ⟨?_, ?_, rfl⟩
    · simp only [show c.toNat ≠ 13 by omega, show c.toNat ≠ 10 by omega,
        show ¬ (c.toNat < 32 ∨ c.toNat = 127) by omega,
        show ¬ (0x300 ≤ c.toNat ∧ c.toNat ≤ 0x36f) by omega, if_false]
    · rw [if_neg (by omega)]
  pictographic_other _ h := by simp at h
  consonant_other c h := by
    split at h
    · cases h
    · cases h
  conjunct_extends c h := by
    have hmark : 0x300 ≤ c.toNat ∧ c.toNat ≤ 0x36f := by
      by_contra hnot
      rw [if_neg (by omega)] at h
      simp at h
    refine Or.inl ?_
    simp only [show c.toNat ≠ 13 by omega, show c.toNat ≠ 10 by omega,
      show ¬ (c.toNat < 32 ∨ c.toNat = 127) by omega, hmark, if_false, if_true, and_self]

namespace ClusterBreak

/-- There is a boundary on both sides of the character. -/
def isBreaking : ClusterBreak → Bool
  | .cr | .lf | .control => true
  | _ => false

/-- Two classes that are kept together wherever they meet: the parts of a Hangul syllable, what
extends the character before it, and what is prepended to the one behind it. -/
def together : ClusterBreak → ClusterBreak → Bool
  | .l, .l | .l, .v | .l, .lv | .l, .lvt => true
  | .v, .v | .v, .t | .lv, .v | .lv, .t => true
  | .t, .t | .lvt, .t => true
  | _, .extend | _, .zwj | _, .spacingMark => true
  | .prepend, _ => true
  | _, _ => false

end ClusterBreak

open GraphemeTables (clusterBreak conjunctBreak isPictographic)

variable [GraphemeTables]

def isRegional (c : Char) : Bool := clusterBreak c = .regionalIndicator

/-- The character may stand between the consonants of a conjunct. -/
def isConjunct (c : Char) : Bool := conjunctBreak c = .extend ∨ conjunctBreak c = .linker

/-! ## §2. What the rules look back at. -/

/-- What is remembered of the text in front. -/
@[ext] structure Memory where
  /-- The class of its last character; none at the start. -/
  last : Option ClusterBreak
  /-- It ends in an odd number of regional indicators. -/
  oddRegional : Bool
  /-- It ends in a pictograph, with any number of extending characters. -/
  pictograph : Bool
  /-- It ends in the same, and a joiner. -/
  joiner : Bool
  /-- It ends in a consonant, with any number of characters that may stand in a conjunct. -/
  consonant : Bool
  /-- It ends in the same, and there is a linker among them. -/
  linker : Bool
  regional_last : oddRegional = true → last = some .regionalIndicator
  pictograph_last : pictograph = true → last = some .other ∨ last = some .extend
  joiner_last : joiner = true → last = some .zwj
  consonant_last : consonant = true →
    last = some .other ∨ last = some .extend ∨ last = some .zwj
  linker_consonant : linker = true → consonant = true

namespace Memory

/-- Nothing in front. -/
def start : Memory where
  last := none
  oddRegional := false
  pictograph := false
  joiner := false
  consonant := false
  linker := false
  regional_last := by simp
  pictograph_last := by simp
  joiner_last := by simp
  consonant_last := by simp
  linker_consonant := by simp

/-- One more character. -/
def push (m : Memory) (c : Char) : Memory where
  last := some (clusterBreak c)
  oddRegional := isRegional c && !m.oddRegional
  pictograph := isPictographic c || (clusterBreak c = .extend && m.pictograph)
  joiner := clusterBreak c = .zwj && m.pictograph
  consonant := conjunctBreak c = .consonant || (isConjunct c && m.consonant)
  linker := (conjunctBreak c = .linker && m.consonant) || (isConjunct c && m.linker)
  regional_last h := by
    simp only [isRegional, Bool.and_eq_true, decide_eq_true_eq] at h
    rw [h.1]
  pictograph_last h := by
    simp only [Bool.or_eq_true, Bool.and_eq_true, decide_eq_true_eq] at h
    cases h with
    | inl hpict => exact Or.inl (congrArg some (GraphemeTables.pictographic_other c hpict))
    | inr hextend => exact Or.inr (congrArg some hextend.1)
  joiner_last h := by
    simp only [Bool.and_eq_true, decide_eq_true_eq] at h
    rw [h.1]
  consonant_last h := by
    simp only [isConjunct, Bool.or_eq_true, Bool.and_eq_true, decide_eq_true_eq] at h
    cases h with
    | inl hconsonant => exact Or.inl (congrArg some (GraphemeTables.consonant_other c hconsonant))
    | inr hconjunct =>
        exact Or.inr ((GraphemeTables.conjunct_extends c hconjunct.1).imp (congrArg some)
          (congrArg some))
  linker_consonant h := by
    simp only [isConjunct, Bool.or_eq_true, Bool.and_eq_true, decide_eq_true_eq] at h ⊢
    cases h with
    | inl hlinker => exact Or.inr ⟨Or.inr hlinker.1, hlinker.2⟩
    | inr hconjunct => exact Or.inr ⟨hconjunct.1, m.linker_consonant hconjunct.2⟩

/-- The text behind another one. -/
def after (m : Memory) (text : List Char) : Memory := text.foldl push m

/-- **The rules**: the character is kept together with the one in front of it. -/
def joins (m : Memory) (c : Char) : Bool :=
  match m.last with
  | none => false
  | some b =>
      if b = .cr ∧ clusterBreak c = .lf then true
      else if b.isBreaking || (clusterBreak c).isBreaking then false
      else
        b.together (clusterBreak c)
          || (m.linker && conjunctBreak c = .consonant)
          || (m.joiner && isPictographic c)
          || (m.oddRegional && isRegional c)

/-- How many clusters begin in the text, if it stands behind another one. -/
def starts : Memory → List Char → Nat
  | _, [] => 0
  | m, c :: text => (if m.joins c then 0 else 1) + starts (m.push c) text

/-- The text begins with a character that is kept together with the one in front. -/
def joinsHead (m : Memory) : List Char → Bool
  | [] => false
  | c :: _ => m.joins c

end Memory

/-- One more character in front of some clusters, as part of the first one if it is `joined`. -/
def attach (joined : Bool) (c : Char) : List (List Char) → List (List Char)
  | [] => [[c]]
  | cluster :: rest => if joined then (c :: cluster) :: rest else [c] :: cluster :: rest

/-- The clusters of a text whose first character begins one. -/
def clustersFrom : Memory → List Char → List (List Char)
  | _, [] => []
  | m, c :: text => attach ((m.push c).joinsHead text) c (clustersFrom (m.push c) text)

/-- The extended grapheme clusters of a text. -/
def clusters (text : List Char) : List (List Char) := clustersFrom .start text

/-- There is a boundary between two parts of a text. -/
def boundary (pre post : List Char) : Bool := !(Memory.start.after pre).joinsHead post

@[simp] theorem boundary_nil (pre : List Char) : boundary pre [] = true := rfl

@[simp] theorem boundary_cons (pre : List Char) (c : Char) (post : List Char) :
    boundary pre (c :: post) = !(Memory.start.after pre).joins c := rfl

/-- What is left of a text without its last `k` clusters. -/
def dropLast (k : Nat) (text : List Char) : List Char :=
  ((clusters text).take ((clusters text).length - k)).flatten

/-! ## §3. What does not depend on the text in front. -/

namespace Memory

theorem after_append (m : Memory) (pre post : List Char) :
    m.after (pre ++ post) = (m.after pre).after post := List.foldl_append

theorem starts_append : ∀ (m : Memory) (pre post : List Char),
    m.starts (pre ++ post) = m.starts pre + (m.after pre).starts post
  | m, [], post => by
      show m.starts post = 0 + m.starts post
      omega
  | m, c :: pre, post => by
      show _ + (m.push c).starts (pre ++ post)
        = _ + (m.push c).starts pre + ((m.push c).after pre).starts post
      rw [starts_append (m.push c) pre post]
      omega

/-- Nothing is under way. -/
structure Blank (m : Memory) : Prop where
  oddRegional : m.oddRegional = false
  pictograph : m.pictograph = false
  consonant : m.consonant = false

omit [GraphemeTables] in
theorem Blank.linker {m : Memory} (h : m.Blank) : m.linker = false := by
  cases hlinker : m.linker with
  | false => rfl
  | true =>
      have hconsonant := m.linker_consonant hlinker
      rw [h.consonant] at hconsonant
      cases hconsonant

/-- Where nothing is under way, the next character is as the first one. -/
theorem Blank.push_eq {m : Memory} (h : m.Blank) (c : Char) : m.push c = start.push c := by
  unfold push
  simp only [h.oddRegional, h.pictograph, h.consonant, h.linker, start]

/-- A character that has no part in any rule. -/
def Inert (c : Char) : Prop :=
  clusterBreak c = .other ∧ conjunctBreak c = .none ∧ isPictographic c = false

theorem Inert.push_eq {c : Char} (h : Inert c) (m : Memory) : m.push c = start.push c := by
  obtain ⟨hcluster, hconjunct, hpict⟩ := h
  unfold push
  simp [isRegional, isConjunct, hcluster, hconjunct, hpict]

/-- Nothing is under way behind such a character. -/
theorem Inert.blank {c : Char} (h : Inert c) (m : Memory) : (m.push c).Blank := by
  obtain ⟨hcluster, hconjunct, hpict⟩ := h
  constructor
  · simp [push, isRegional, hcluster]
  · simp [push, hcluster, hpict]
  · simp [push, isConjunct, hconjunct]

/-- A character that is kept together with whatever is in front of it, except behind a line
break or a control. -/
theorem joins_of_extend {m : Memory} {b : ClusterBreak} {c : Char} (hlast : m.last = some b)
    (hb : b.isBreaking = false) (hc : clusterBreak c = .extend ∨ clusterBreak c = .zwj) :
    m.joins c = true := by
  unfold joins
  rw [hlast]
  cases hc with
  | inl h =>
      rw [h]
      cases b <;> simp_all [ClusterBreak.isBreaking, ClusterBreak.together]
  | inr h =>
      rw [h]
      cases b <;> simp_all [ClusterBreak.isBreaking, ClusterBreak.together]

theorem joins_of_pictograph {m : Memory} {c : Char} (hm : m.pictograph = true)
    (hc : clusterBreak c = .extend ∨ clusterBreak c = .zwj) : m.joins c = true := by
  rcases m.pictograph_last hm with hlast | hlast
  · exact joins_of_extend hlast rfl hc
  · exact joins_of_extend hlast rfl hc

theorem joins_of_consonant {m : Memory} {c : Char} (hm : m.consonant = true)
    (hc : isConjunct c = true) : m.joins c = true := by
  have hclass := GraphemeTables.conjunct_extends c (by simpa [isConjunct] using hc)
  rcases m.consonant_last hm with hlast | hlast | hlast
  · exact joins_of_extend hlast rfl hclass
  · exact joins_of_extend hlast rfl hclass
  · exact joins_of_extend hlast rfl hclass

theorem joins_of_oddRegional {m : Memory} {c : Char} (hm : m.oddRegional = true)
    (hc : isRegional c = true) : m.joins c = true := by
  have hclass : clusterBreak c = .regionalIndicator := by simpa [isRegional] using hc
  simp [joins, m.regional_last hm, hm, hclass, ClusterBreak.isBreaking, isRegional]

/-- **Behind a boundary all is as at the start of a text.** -/
theorem push_of_boundary {m : Memory} {c : Char} (h : m.joins c = false) :
    m.push c = start.push c := by
  -- whatever is under way would have joined a character that goes on with it
  have hregional : isRegional c = true → m.oddRegional = false := fun hc =>
    Bool.eq_false_iff.mpr fun hm => by simp [joins_of_oddRegional hm hc] at h
  have hpict : clusterBreak c = .extend ∨ clusterBreak c = .zwj → m.pictograph = false :=
    fun hc => Bool.eq_false_iff.mpr fun hm => by simp [joins_of_pictograph hm hc] at h
  have hconsonant : isConjunct c = true → m.consonant = false := fun hc =>
    Bool.eq_false_iff.mpr fun hm => by simp [joins_of_consonant hm hc] at h
  have hlinker : isConjunct c = true → m.linker = false := fun hc =>
    Bool.eq_false_iff.mpr fun hm => by
      have hnone := hconsonant hc
      rw [m.linker_consonant hm] at hnone
      cases hnone
  ext1
  · rfl
  · show (isRegional c && !m.oddRegional) = (isRegional c && !false)
    cases hc : isRegional c with
    | false => rfl
    | true => rw [hregional hc]
  · show (isPictographic c || (clusterBreak c = .extend && m.pictograph))
      = (isPictographic c || (clusterBreak c = .extend && false))
    by_cases hc : clusterBreak c = .extend
    · rw [hpict (Or.inl hc)]
    · simp [hc]
  · show (decide (clusterBreak c = .zwj) && m.pictograph)
      = (decide (clusterBreak c = .zwj) && false)
    by_cases hc : clusterBreak c = .zwj
    · rw [hpict (Or.inr hc)]
    · simp [hc]
  · show (conjunctBreak c = .consonant || (isConjunct c && m.consonant))
      = (conjunctBreak c = .consonant || (isConjunct c && false))
    cases hc : isConjunct c with
    | false => rfl
    | true => rw [hconsonant hc]
  · show ((conjunctBreak c = .linker && m.consonant) || (isConjunct c && m.linker))
      = ((conjunctBreak c = .linker && false) || (isConjunct c && false))
    cases hc : isConjunct c with
    | false =>
        have hnot : conjunctBreak c ≠ .linker := fun hclass => by simp [isConjunct, hclass] at hc
        simp [hnot]
    | true => rw [hconsonant hc, hlinker hc]

/-! ## §4. More text in front never makes more clusters. -/

/-- The same in front, except that more may be under way. -/
structure Below (m m' : Memory) : Prop where
  last : m.last = m'.last
  oddRegional : m.oddRegional = m'.oddRegional
  pictograph : m.pictograph = true → m'.pictograph = true
  joiner : m.joiner = true → m'.joiner = true
  consonant : m.consonant = true → m'.consonant = true
  linker : m.linker = true → m'.linker = true

theorem Below.joins {m m' : Memory} (h : m.Below m') {c : Char} (hc : m.joins c = true) :
    m'.joins c = true := by
  unfold Memory.joins at hc ⊢
  rw [← h.last, ← h.oddRegional]
  cases hlast : m.last with
  | none => simp [hlast] at hc
  | some b =>
      simp only [hlast] at hc ⊢
      split
      · rfl
      · rename_i hcr
        rw [if_neg hcr] at hc
        split
        · rename_i hbreaking
          rw [if_pos hbreaking] at hc
          cases hc
        · rename_i hbreaking
          rw [if_neg hbreaking] at hc
          simp only [Bool.or_eq_true, Bool.and_eq_true] at hc ⊢
          rcases hc with ((htogether | hlinker) | hjoiner) | hregional
          · exact Or.inl (Or.inl (Or.inl htogether))
          · exact Or.inl (Or.inl (Or.inr ⟨h.linker hlinker.1, hlinker.2⟩))
          · exact Or.inl (Or.inr ⟨h.joiner hjoiner.1, hjoiner.2⟩)
          · exact Or.inr hregional

theorem Below.push {m m' : Memory} (h : m.Below m') (c : Char) :
    (m.push c).Below (m'.push c) where
  last := rfl
  oddRegional := by
    show (isRegional c && !m.oddRegional) = (isRegional c && !m'.oddRegional)
    rw [h.oddRegional]
  pictograph hm := by
    simp only [Memory.push, Bool.or_eq_true, Bool.and_eq_true] at hm ⊢
    exact hm.imp_right fun hextend => ⟨hextend.1, h.pictograph hextend.2⟩
  joiner hm := by
    simp only [Memory.push, Bool.and_eq_true] at hm ⊢
    exact ⟨hm.1, h.pictograph hm.2⟩
  consonant hm := by
    simp only [Memory.push, Bool.or_eq_true, Bool.and_eq_true] at hm ⊢
    exact hm.imp_right fun hconjunct => ⟨hconjunct.1, h.consonant hconjunct.2⟩
  linker hm := by
    simp only [Memory.push, Bool.or_eq_true, Bool.and_eq_true] at hm ⊢
    exact hm.imp (fun hlinker => ⟨hlinker.1, h.consonant hlinker.2⟩)
      fun hconjunct => ⟨hconjunct.1, h.linker hconjunct.2⟩

theorem Below.starts_le {m m' : Memory} (h : m.Below m') (text : List Char) :
    m'.starts text ≤ m.starts text := by
  induction text generalizing m m' with
  | nil => exact Nat.le_refl 0
  | cons c text ih =>
      have htail := ih (h.push c)
      show (if m'.joins c then 0 else 1) + _ ≤ (if m.joins c then 0 else 1) + _
      by_cases hc : m.joins c = true
      · rw [if_pos hc, if_pos (h.joins hc)]
        omega
      · rw [if_neg hc]
        split
        · omega
        · omega

/-- Two runs of regional indicators, of which one is even and one is odd. -/
structure Shifted (m m' : Memory) : Prop where
  last : m.last = some .regionalIndicator
  last' : m'.last = some .regionalIndicator
  even : m.oddRegional = false
  odd : m'.oddRegional = true

omit [GraphemeTables] in
/-- Behind a regional indicator nothing else is under way. -/
theorem nothing_of_regional {m : Memory} (h : m.last = some .regionalIndicator) :
    m.pictograph = false ∧ m.joiner = false ∧ m.consonant = false ∧ m.linker = false := by
  have hconsonant : m.consonant = false := by
    refine Bool.eq_false_iff.mpr fun hm => ?_
    have hlast := m.consonant_last hm
    simp [h] at hlast
  refine ⟨Bool.eq_false_iff.mpr fun hm => ?_, Bool.eq_false_iff.mpr fun hm => ?_, hconsonant,
    Bool.eq_false_iff.mpr fun hm => ?_⟩
  · have hlast := m.pictograph_last hm
    simp [h] at hlast
  · have hlast := m.joiner_last hm
    simp [h] at hlast
  · rw [m.linker_consonant hm] at hconsonant
    cases hconsonant

/-- The odd run takes the next indicator, the even one does not. -/
theorem Shifted.joins_regional {m m' : Memory} (h : Shifted m m') {c : Char}
    (hc : isRegional c = true) : m.joins c = false ∧ m'.joins c = true := by
  have hclass : clusterBreak c = .regionalIndicator := by simpa [isRegional] using hc
  refine ⟨?_, joins_of_oddRegional h.odd hc⟩
  obtain ⟨_, hjoiner, _, hlinker⟩ := nothing_of_regional h.last
  simp [joins, h.last, h.even, hclass, hjoiner, hlinker, ClusterBreak.isBreaking,
    ClusterBreak.together]

/-- Any other character ends the two runs alike. -/
theorem Shifted.joins_other {m m' : Memory} (h : Shifted m m') {c : Char}
    (hc : isRegional c = false) : m.joins c = m'.joins c ∧ m.push c = m'.push c := by
  obtain ⟨hpict, hjoiner, hconsonant, hlinker⟩ := nothing_of_regional h.last
  obtain ⟨hpict', hjoiner', hconsonant', hlinker'⟩ := nothing_of_regional h.last'
  constructor
  · unfold joins
    rw [h.last, h.last', hjoiner, hjoiner', hlinker, hlinker', hc]
    simp
  · unfold push
    simp only [hpict, hpict', hconsonant, hconsonant', hlinker, hlinker', hc, Bool.false_and]

/-- The run that is odd is ahead by one cluster at most, and never behind. -/
theorem Shifted.starts_le {m m' : Memory} (h : Shifted m m') (text : List Char) :
    m'.starts text ≤ m.starts text ∧ m.starts text ≤ m'.starts text + 1 := by
  induction text generalizing m m' with
  | nil => exact ⟨Nat.le_refl 0, Nat.zero_le _⟩
  | cons c text ih =>
      show (if m'.joins c then 0 else 1) + _ ≤ (if m.joins c then 0 else 1) + _
        ∧ (if m.joins c then 0 else 1) + _ ≤ (if m'.joins c then 0 else 1) + _ + 1
      cases hc : isRegional c with
      | true =>
          -- the runs change places
          have hshifted : Shifted (m'.push c) (m.push c) := by
            have hclass : clusterBreak c = .regionalIndicator := by simpa [isRegional] using hc
            refine ⟨congrArg some hclass, congrArg some hclass, ?_, ?_⟩
            · simp [push, h.odd]
            · simp [push, h.even, hc]
          obtain ⟨hle, hge⟩ := ih hshifted
          obtain ⟨hjoins, hjoins'⟩ := h.joins_regional hc
          simp only [hjoins, hjoins', if_true, Bool.false_eq_true, if_false]
          omega
      | false =>
          obtain ⟨hjoins, hpush⟩ := h.joins_other hc
          rw [hjoins, hpush]
          omega

/-- Behind more text, only a run of indicators may be shifted. -/
theorem below_push {m : Memory} {c : Char} (h : isRegional c = false ∨ m.oddRegional = false) :
    (start.push c).Below (m.push c) where
  last := rfl
  oddRegional := by
    show (isRegional c && !false) = (isRegional c && !m.oddRegional)
    rcases h with h | h
    · rw [h, Bool.false_and, Bool.false_and]
    · rw [h]
  pictograph hm := by
    simp only [push, start, Bool.and_false, Bool.or_false] at hm ⊢
    rw [hm, Bool.true_or]
  joiner hm := by simp [push, start] at hm
  consonant hm := by
    simp only [push, start, Bool.and_false, Bool.or_false] at hm ⊢
    rw [hm, Bool.true_or]
  linker hm := by simp [push, start] at hm

/-- Behind a character that is no regional indicator, more text in front makes no clusters. -/
theorem starts_push_le {m : Memory} {c : Char} (hc : isRegional c = false) (text : List Char) :
    (m.push c).starts text ≤ (start.push c).starts text :=
  (below_push (Or.inl hc)).starts_le text

/-- **A text has no more clusters behind another one than it has alone.** -/
theorem starts_le (m : Memory) (text : List Char) : m.starts text ≤ start.starts text := by
  cases text with
  | nil => exact Nat.le_refl 0
  | cons c text =>
      show (if m.joins c then 0 else 1) + (m.push c).starts text
        ≤ 1 + (start.push c).starts text
      cases hjoins : m.joins c with
      | false =>
          rw [push_of_boundary hjoins]
          exact Nat.le_refl _
      | true =>
          -- the run of indicators is shifted by one, or everything is as at the start
          cases hc : isRegional c && m.oddRegional with
          | true =>
              rw [Bool.and_eq_true] at hc
              have hclass : clusterBreak c = .regionalIndicator := by
                simpa [isRegional] using hc.1
              have hshifted : Shifted (m.push c) (start.push c) := by
                refine ⟨congrArg some hclass, congrArg some hclass, ?_, ?_⟩
                · simp [push, hc.2]
                · simp [push, start, hc.1]
              have hle := (hshifted.starts_le text).2
              rw [if_pos rfl]
              omega
          | false =>
              have hle := (below_push (m := m) (by
                rwa [Bool.and_eq_false_iff] at hc)).starts_le text
              rw [if_pos rfl]
              omega

end Memory

/-! ## §5. Clusters in parts. -/

omit [GraphemeTables] in
theorem flatten_attach (joined : Bool) (c : Char) (rest : List (List Char)) :
    (attach joined c rest).flatten = c :: rest.flatten := by
  unfold attach
  cases rest with
  | nil => rfl
  | cons cluster rest => cases joined <;> rfl

theorem flatten_clustersFrom : ∀ (m : Memory) (text : List Char),
    (clustersFrom m text).flatten = text
  | _, [] => rfl
  | m, c :: text => by
      rw [clustersFrom, flatten_attach, flatten_clustersFrom (m.push c) text]

/-- The clusters of a text are the text. -/
theorem flatten_clusters (text : List Char) : (clusters text).flatten = text :=
  flatten_clustersFrom .start text

theorem ne_nil_of_mem_clustersFrom : ∀ {m : Memory} {text cluster : List Char},
    cluster ∈ clustersFrom m text → cluster ≠ []
  | _, [], _, h => by cases h
  | m, c :: text, cluster, h => by
      have ih := fun cluster => @ne_nil_of_mem_clustersFrom (m.push c) text cluster
      rw [clustersFrom] at h
      cases hrest : clustersFrom (m.push c) text with
      | nil =>
          rw [hrest] at h
          rw [List.mem_singleton.mp h]
          simp
      | cons first rest =>
          rw [hrest] at h ih
          cases hjoined : (m.push c).joinsHead text with
          | true =>
              rw [hjoined] at h
              rcases List.mem_cons.mp h with heq | hmem
              · rw [heq]
                simp
              · exact ih cluster (List.mem_cons_of_mem _ hmem)
          | false =>
              rw [hjoined] at h
              rcases List.mem_cons.mp h with heq | hmem
              · rw [heq]
                simp
              · exact ih cluster hmem

theorem length_clustersFrom : ∀ (m : Memory) (c : Char) (text : List Char),
    (clustersFrom m (c :: text)).length = 1 + (m.push c).starts text
  | _, _, [] => rfl
  | m, c, d :: text => by
      have ih := length_clustersFrom (m.push c) d text
      rw [clustersFrom]
      show _ = 1 + ((if (m.push c).joins d then 0 else 1) + ((m.push c).push d).starts text)
      cases hrest : clustersFrom (m.push c) (d :: text) with
      | nil =>
          rw [hrest, List.length_nil] at ih
          omega
      | cons first rest =>
          rw [hrest, List.length_cons] at ih
          show (attach ((m.push c).joins d) c (first :: rest)).length = _
          cases (m.push c).joins d with
          | true =>
              simp only [attach, if_true, List.length_cons]
              omega
          | false =>
              simp only [attach, Bool.false_eq_true, if_false, List.length_cons]
              omega

/-- The clusters are counted by where they begin. -/
theorem length_clusters (text : List Char) :
    (clusters text).length = Memory.start.starts text := by
  cases text with
  | nil => rfl
  | cons c text => exact length_clustersFrom .start c text

theorem clustersFrom_append {post : List Char} : ∀ {m : Memory} {pre : List Char},
    (m.after pre).joinsHead post = false →
    clustersFrom m (pre ++ post) = clustersFrom m pre ++ clustersFrom (m.after pre) post
  | m, [], _ => rfl
  | m, c :: pre, h => by
      have ih := @clustersFrom_append post (m.push c) pre h
      show attach ((m.push c).joinsHead (pre ++ post)) c (clustersFrom (m.push c) (pre ++ post))
        = attach ((m.push c).joinsHead pre) c (clustersFrom (m.push c) pre)
          ++ clustersFrom ((m.push c).after pre) post
      rw [ih]
      cases pre with
      | nil =>
          -- the boundary is right behind this character
          rw [List.nil_append, show (m.push c).joinsHead post = false from h]
          show attach false c ([] ++ clustersFrom (m.push c) post)
            = [[c]] ++ clustersFrom (m.push c) post
          cases clustersFrom (m.push c) post <;> rfl
      | cons d pre =>
          cases hrest : clustersFrom (m.push c) (d :: pre) with
          | nil =>
              have hlength := length_clustersFrom (m.push c) d pre
              rw [hrest, List.length_nil] at hlength
              omega
          | cons first rest =>
              show attach ((m.push c).joins d) c ((first :: rest) ++ _)
                = attach ((m.push c).joins d) c (first :: rest) ++ _
              cases (m.push c).joins d <;> rfl

/-- **Clusters in parts**: at a boundary a text is cut into its clusters as two texts. -/
theorem clusters_append {pre post : List Char} (h : boundary pre post = true) :
    clusters (pre ++ post) = clusters pre ++ clusters post := by
  have hjoins : (Memory.start.after pre).joinsHead post = false := by
    simpa [boundary] using h
  unfold clusters
  rw [clustersFrom_append hjoins]
  cases post with
  | nil => rfl
  | cons d post =>
      rw [clustersFrom, clustersFrom, Memory.push_of_boundary hjoins]

/-! ## §6. Taking clusters off the end. -/

omit [GraphemeTables] in
theorem flatten_take_inj : ∀ {parts : List (List Char)}, (∀ part ∈ parts, part ≠ []) →
    ∀ {i j : Nat}, i ≤ parts.length → j ≤ parts.length →
      (parts.take i).flatten = (parts.take j).flatten → i = j
  | [], _, i, j, hi, hj, _ => by
      rw [List.length_nil] at hi hj
      omega
  | part :: parts, hne, 0, 0, _, _, _ => rfl
  | part :: parts, hne, 0, j + 1, _, _, h => by
      have hpart := hne part List.mem_cons_self
      simp [List.take_succ_cons, hpart] at h
  | part :: parts, hne, i + 1, 0, _, _, h => by
      have hpart := hne part List.mem_cons_self
      simp [List.take_succ_cons, hpart] at h
  | part :: parts, hne, i + 1, j + 1, hi, hj, h => by
      rw [List.take_succ_cons, List.take_succ_cons, List.flatten_cons, List.flatten_cons,
        List.append_cancel_left_eq] at h
      rw [List.length_cons] at hi hj
      rw [flatten_take_inj (fun p hp => hne p (List.mem_cons_of_mem _ hp)) (by omega) (by omega) h]

/-- **Taking clusters off the end** leaves the part in front of a boundary exactly if it takes as
many as there are behind it. -/
theorem dropLast_eq_iff {pre post : List Char} {k : Nat} (h : boundary pre post = true)
    (hk : k ≤ (clusters (pre ++ post)).length) :
    dropLast k (pre ++ post) = pre ↔ k = (clusters post).length := by
  have hlength : (clusters (pre ++ post)).length
      = (clusters pre).length + (clusters post).length := by
    rw [clusters_append h, List.length_append]
  have hpre : ((clusters (pre ++ post)).take (clusters pre).length).flatten = pre := by
    rw [clusters_append h, List.take_left, flatten_clusters]
  unfold dropLast
  constructor
  · intro heq
    have hle : (clusters pre).length ≤ (clusters (pre ++ post)).length := by omega
    have hcount : (clusters (pre ++ post)).length - k = (clusters pre).length :=
      flatten_take_inj (fun _ => ne_nil_of_mem_clustersFrom) (Nat.sub_le _ k) hle
        (heq.trans hpre.symm)
    omega
  · intro heq
    rw [show (clusters (pre ++ post)).length - k = (clusters pre).length by omega, hpre]

end Graphemes
