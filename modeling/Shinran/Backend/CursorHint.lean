/-
  Shinran.Backend.CursorHint
  ──────────────────────────
  **WHERE THE CURSOR HINT PUTS THE CURSOR** (`cursor.rs`).

  The moves to the left are counted in the body with its hints in place: its
  graphemes, less those in front of the first hint, less three.  That is right
  if the hint stands alone and is made of three graphemes.  But all hints are
  taken out, and a character on either side may form a grapheme with the hint.

    • `HintPositioned`      — the moves lead from the end to the hint,
    • `SingleHint`          — there is one hint, with a boundary on both sides,
    • `clusters_removeHints`— taking out a hint loses two graphemes at least,
    • `hintPositioned_iff`  — when the hint is positioned,
    • `secondHint_counted`  — two hints.
-/
import Shinran.Backend.Adapter
import Shinran.Graphemes

namespace Shinran

open Graphemes (GraphemeTables Memory clusters boundary dropLast isRegional)
open Graphemes.GraphemeTables (clusterBreak)

variable [GraphemeTables]

/-! ## §1. Hints. -/

/-- `s.graphemes(true).count()`. -/
def graphemeCount (s : String) : Nat := (clusters s.toList).length

omit [GraphemeTables] in
def hint : List Char := ['$', '|', '$']

omit [GraphemeTables] in
/-- The text without its hints. -/
def removeHints (text : List Char) : List Char := replaceFrom hint [] 0 text

/-- **The hint is positioned correctly**: the subtractions do not underflow, the body comes back
without its hints, and the moves stay in it; and they lead from its end to the place of the
first hint, if that is between two graphemes. -/
structure HintPositioned (overflowChecks : Bool) (body : String) (before : List Char) : Prop where
  noUnderflow : graphemeCount (String.ofList before) + 3 ≤ graphemeCount body
  positioned : ∃ moves, processCursorHint graphemeCount overflowChecks body
      = some (replaceAll body "$|$" "", some moves)
    ∧ moves ≤ graphemeCount (replaceAll body "$|$" "")
    ∧ ∀ rest, (replaceAll body "$|$" "").toList = before ++ rest → boundary before rest = true →
      dropLast moves (replaceAll body "$|$" "").toList = before

/-- There is no other hint, and the hint has a boundary on both sides. -/
structure SingleHint (before after : List Char) : Prop where
  noOther : beforeHint after = none
  front : boundary before (hint ++ after) = true
  back : boundary (before ++ hint) after = true

/-- How many graphemes of the body begin at the front edge of the hint or behind the hint. -/
def startsAround (before after : List Char) : Nat :=
  (Memory.start.after before).starts ['$']
    + (Memory.start.after (before ++ hint)).starts after

/-! ## §2. The first hint. -/

omit [GraphemeTables] in
theorem removeHints_cons {c : Char} {text : List Char} (h : ¬ hint <+: c :: text) :
    removeHints (c :: text) = c :: removeHints text := by
  unfold removeHints
  rw [replaceFrom, if_neg (by rwa [List.isPrefixOf_iff_prefix])]

omit [GraphemeTables] in
/-- The text is cut at its first hint, or it has none. -/
theorem beforeHint_spec : ∀ text : List Char,
    (beforeHint text = none ∧ removeHints text = text)
      ∨ ∃ before after, beforeHint text = some before ∧ text = before ++ (hint ++ after)
        ∧ removeHints text = before ++ removeHints after
  | [] => Or.inl ⟨rfl, rfl⟩
  | c :: text => by
      by_cases hbegins : hint <+: c :: text
      · obtain ⟨after, heq⟩ := hbegins
        rw [← heq]
        exact Or.inr ⟨[], after, rfl, rfl, rfl⟩
      · have hcons : beforeHint (c :: text) = (beforeHint text).map (c :: ·) := by
          rw [beforeHint]
          intro after hc htext
          exact hbegins ⟨after, by rw [hc, htext]; rfl⟩
        rw [hcons, removeHints_cons hbegins]
        rcases beforeHint_spec text with ⟨hnone, hsame⟩ | ⟨before, after, hsome, htext, hremove⟩
        · exact Or.inl ⟨by rw [hnone]; rfl, by rw [hsame]⟩
        · exact Or.inr ⟨c :: before, after, by rw [hsome]; rfl, by rw [htext]; rfl,
            by rw [hremove]; rfl⟩

omit [GraphemeTables] in
theorem removeHints_of_before {text before after : List Char} (h : beforeHint text = some before)
    (htext : text = before ++ (hint ++ after)) :
    removeHints text = before ++ removeHints after := by
  rcases beforeHint_spec text with ⟨hnone, _⟩ | ⟨before', after', hsome, htext', hremove⟩
  · rw [hnone] at h
    cases h
  · obtain rfl : before' = before := by rwa [hsome, Option.some.injEq] at h
    have hafter : hint ++ after' = hint ++ after :=
      List.append_cancel_left (htext'.symm.trans htext)
    rw [hremove, List.append_cancel_left hafter]

/-! ## §3. The graphemes around a hint. -/

theorem inert_dollar : Memory.Inert '$' := GraphemeTables.printable '$' (by decide) (by decide)

theorem inert_bar : Memory.Inert '|' := GraphemeTables.printable '|' (by decide) (by decide)

/-- What is kept together with such a character has been prepended to it. -/
theorem last_of_joins_dollar {m : Memory} (h : m.joins '$' = true) : m.last = some .prepend := by
  obtain ⟨hcluster, hconjunct, hpict⟩ := inert_dollar
  unfold Memory.joins at h
  cases hlast : m.last with
  | none => simp [hlast] at h
  | some b =>
      simp only [hlast, hcluster, hconjunct, hpict, isRegional] at h
      cases b <;> simp_all [Graphemes.ClusterBreak.isBreaking, Graphemes.ClusterBreak.together]

/-- Two characters of the hint are never kept together. -/
theorem not_joins_inert {b c : Char} (hb : Memory.Inert b) (hc : Memory.Inert c) (m : Memory) :
    (m.push b).joins c = false := by
  have hlast : (m.push b).last = some .other := congrArg some hb.1
  obtain ⟨hcluster, hconjunct, hpict⟩ := hc
  simp [Memory.joins, hlast, hcluster, hconjunct, hpict, isRegional,
    Graphemes.ClusterBreak.isBreaking, Graphemes.ClusterBreak.together]

/-- What is kept together with the hint in front of it extends it. -/
theorem class_of_dollar_joins {m : Memory} {c : Char} (h : (m.push '$').joins c = true) :
    clusterBreak c = .extend ∨ clusterBreak c = .zwj ∨ clusterBreak c = .spacingMark := by
  have hlast : (m.push '$').last = some .other := congrArg some inert_dollar.1
  have hblank := inert_dollar.blank m
  have hjoiner : (m.push '$').joiner = false := by
    refine Bool.eq_false_iff.mpr fun hm => ?_
    have hzwj := (m.push '$').joiner_last hm
    simp [hlast] at hzwj
  simp only [Memory.joins, hlast, hblank.linker, hjoiner, hblank.oddRegional] at h
  cases hc : clusterBreak c <;>
    simp_all [Graphemes.ClusterBreak.isBreaking, Graphemes.ClusterBreak.together]

/-- **What forms a grapheme with the hint on both sides forms one without it.** -/
theorem joins_of_both {m m' : Memory} {c : Char} (hfront : m.joins '$' = true)
    (hback : (m'.push '$').joins c = true) :
    m.joins c = true ∧ isRegional c = false ∧ c ≠ '$' := by
  have hclass := class_of_dollar_joins hback
  refine ⟨?_, ?_, fun heq => ?_⟩
  · unfold Memory.joins
    rw [last_of_joins_dollar hfront]
    rcases hclass with h | h | h
    · simp [h, Graphemes.ClusterBreak.isBreaking, Graphemes.ClusterBreak.together]
    · simp [h, Graphemes.ClusterBreak.isBreaking, Graphemes.ClusterBreak.together]
    · simp [h, Graphemes.ClusterBreak.isBreaking, Graphemes.ClusterBreak.together]
  · rcases hclass with h | h | h
    · simp [isRegional, h]
    · simp [isRegional, h]
    · simp [isRegional, h]
  · subst heq
    rw [inert_dollar.1] at hclass
    simp at hclass

theorem after_hint (m : Memory) : m.after hint = Memory.start.push '$' :=
  inert_dollar.push_eq _

theorem starts_hint (m : Memory) : m.starts hint = m.starts ['$'] + 2 := by
  show (if m.joins '$' then 0 else 1) + ((if (m.push '$').joins '|' then 0 else 1)
    + ((if ((m.push '$').push '|').joins '$' then 0 else 1) + 0))
      = (if m.joins '$' then 0 else 1) + 0 + 2
  rw [not_joins_inert inert_dollar inert_bar, not_joins_inert inert_bar inert_dollar]
  simp

/-- One, if there is a boundary. -/
def edge (pre post : List Char) : Nat := if boundary pre post = true then 1 else 0

theorem edge_le_one (pre post : List Char) : edge pre post ≤ 1 := by
  unfold edge
  split <;> omega

theorem edge_eq_one_iff {pre post : List Char} : edge pre post = 1 ↔ boundary pre post = true := by
  unfold edge
  split <;> simp_all

theorem edge_eq_zero_iff {pre post : List Char} :
    edge pre post = 0 ↔ boundary pre post = false := by
  unfold edge
  split <;> simp_all

theorem starts_dollar (before post : List Char) :
    (Memory.start.after before).starts ['$'] = edge before ('$' :: post) := by
  show (if (Memory.start.after before).joins '$' then 0 else 1) + 0 = _
  unfold edge boundary
  show _ = if (!(Memory.start.after before).joins '$') = true then 1 else 0
  cases (Memory.start.after before).joins '$' <;> rfl

/-- The graphemes that begin behind the hint: those of the text there, but for the first one if
that forms a grapheme with the hint. -/
theorem starts_after_hint (before after : List Char) :
    (Memory.start.after (before ++ hint)).starts after + 1
      = (clusters after).length + edge (before ++ hint) after := by
  rw [Graphemes.length_clusters]
  unfold edge boundary
  rw [Memory.after_append, after_hint]
  cases after with
  | nil => rfl
  | cons c after =>
      show (if (Memory.start.push '$').joins c then 0 else 1)
          + ((Memory.start.push '$').push c).starts after + 1
        = 1 + (Memory.start.push c).starts after
          + (if (!(Memory.start.push '$').joins c) = true then 1 else 0)
      rw [(inert_dollar.blank _).push_eq]
      cases (Memory.start.push '$').joins c with
      | true =>
          simp
          omega
      | false => simp

/-- The graphemes of a body with a hint. -/
theorem length_clusters_hint (before after : List Char) :
    (clusters (before ++ (hint ++ after))).length
      = (clusters before).length + 2 + startsAround before after := by
  unfold startsAround
  rw [Graphemes.length_clusters, Graphemes.length_clusters, Memory.starts_append,
    Memory.starts_append, starts_hint, Memory.after_append]
  omega

/-- The graphemes around the hint, with those of the text behind it. -/
theorem startsAround_eq (before after : List Char) :
    startsAround before after + 1
      = edge before (hint ++ after) + edge (before ++ hint) after + (clusters after).length := by
  have hfront := starts_dollar before ('|' :: '$' :: after)
  have hbehind := starts_after_hint before after
  unfold startsAround
  show _ = edge before ('$' :: '|' :: '$' :: after) + _ + _
  omega

/-- Without a boundary on either side of the hint, its neighbours are kept together without it. -/
theorem exists_joined {before after : List Char}
    (hfront : boundary before (hint ++ after) = false)
    (hback : boundary (before ++ hint) after = false) :
    ∃ c cs, after = c :: cs ∧ (Memory.start.after before).joins c = true
      ∧ isRegional c = false ∧ c ≠ '$' := by
  have hdollar : (Memory.start.after before).joins '$' = true := by
    rwa [show hint ++ after = '$' :: '|' :: '$' :: after from rfl, Graphemes.boundary_cons,
      Bool.not_eq_false'] at hfront
  cases after with
  | nil => cases hback
  | cons c cs =>
      rw [Graphemes.boundary_cons, Memory.after_append, after_hint, Bool.not_eq_false'] at hback
      exact ⟨c, cs, rfl, joins_of_both hdollar hback⟩

/-- **Without the hint no more graphemes begin behind its place** than around it. -/
theorem starts_le_startsAround {before after rest : List Char}
    (hrest : ∀ c cs, after = c :: cs → c ≠ '$' → ∃ cs', rest = c :: cs')
    (hle : (clusters rest).length ≤ (clusters after).length) :
    (Memory.start.after before).starts rest ≤ startsAround before after := by
  have haround := startsAround_eq before after
  have hall := Memory.starts_le (Memory.start.after before) rest
  rw [← Graphemes.length_clusters] at hall
  by_cases hnone : edge before (hint ++ after) = 0 ∧ edge (before ++ hint) after = 0
  · obtain ⟨c, cs, rfl, hjoins, hregional, hne⟩ :=
      exists_joined (edge_eq_zero_iff.mp hnone.1) (edge_eq_zero_iff.mp hnone.2)
    obtain ⟨cs', rfl⟩ := hrest c cs rfl hne
    have hpush := Memory.starts_push_le (m := Memory.start.after before) hregional cs'
    have hlength : (clusters (c :: cs')).length = 1 + (Memory.start.push c).starts cs' :=
      Graphemes.length_clustersFrom .start c cs'
    show (if (Memory.start.after before).joins c then 0 else 1) + _ ≤ _
    rw [if_pos hjoins]
    omega
  · -- with a boundary at the hint, there is room for one more
    omega

omit [GraphemeTables] in
theorem removeHints_head {c : Char} {cs : List Char} (hc : c ≠ '$') :
    ∃ cs', removeHints (c :: cs) = c :: cs' := by
  refine ⟨removeHints cs, removeHints_cons fun h => ?_⟩
  obtain ⟨rest, heq⟩ := h
  exact hc (List.cons.inj heq).1.symm

/-- **Taking out the hints** makes no graphemes, and loses two with every hint. -/
theorem clusters_removeHints (text : List Char) :
    (clusters (removeHints text)).length ≤ (clusters text).length
      ∧ (∀ before, beforeHint text = some before →
        (clusters (removeHints text)).length + 2 ≤ (clusters text).length) := by
  rcases beforeHint_spec text with ⟨hnone, hsame⟩ | ⟨before, after, hsome, htext, hremove⟩
  · rw [hsame, hnone]
    exact ⟨Nat.le_refl _, by simp⟩
  · have hlt : after.length < text.length := by
      rw [htext, List.length_append, List.length_append]
      have hthree : hint.length = 3 := rfl
      omega
    have ih := (clusters_removeHints after).1
    have hle : (Memory.start.after before).starts (removeHints after)
        ≤ startsAround before after := by
      refine starts_le_startsAround (fun c cs heq hc => ?_) ih
      rw [heq]
      exact removeHints_head hc
    have htwo : (clusters (removeHints text)).length + 2 ≤ (clusters text).length := by
      rw [hremove, htext, length_clusters_hint, Graphemes.length_clusters,
        Memory.starts_append, Graphemes.length_clusters]
      omega
    exact ⟨by omega, fun _ _ => htwo⟩
termination_by text.length

/-! ## §4. The moves. -/

/-- If the place of the hint is between two graphemes, there are as many of them behind it as
moves exactly if there is a single hint. -/
theorem startsAround_iff {before after : List Char}
    (h : boundary before (removeHints after) = true) :
    startsAround before after = (clusters (removeHints after)).length + 1
      ↔ SingleHint before after := by
  have haround := startsAround_eq before after
  rcases beforeHint_spec after with ⟨hnone, hsame⟩ | ⟨before', after', hsome, _⟩
  · rw [hsame]
    have hfront := edge_le_one before (hint ++ after)
    have hback := edge_le_one (before ++ hint) after
    constructor
    · intro heq
      refine ⟨hnone, ?_, ?_⟩
      · rw [← edge_eq_one_iff]
        omega
      · rw [← edge_eq_one_iff]
        omega
    · intro hsingle
      have hfront' := edge_eq_one_iff.mpr hsingle.front
      have hback' := edge_eq_one_iff.mpr hsingle.back
      omega
  · -- another hint is counted with the text behind the first one
    have htwo := (clusters_removeHints after).2 before' hsome
    refine iff_of_false (fun heq => ?_) fun hsingle => ?_
    · have hfront : edge before (hint ++ after) = 0 := by omega
      have hback : edge (before ++ hint) after = 0 := by omega
      rw [edge_eq_zero_iff] at hfront hback
      obtain ⟨c, cs, rfl, hjoins, _, hne⟩ := exists_joined hfront hback
      obtain ⟨cs', hcons⟩ := removeHints_head hne
      rw [hcons, Graphemes.boundary_cons, hjoins] at h
      cases h
    · rw [hsingle.noOther] at hsome
      cases hsome

section
variable {overflowChecks : Bool} {body : String} {before after : List Char}

omit [GraphemeTables] in
/-- What is left of a body when its hints are taken out. -/
theorem toList_replaceAll (hfirst : beforeHint body.toList = some before)
    (hbody : body.toList = before ++ (hint ++ after)) :
    (replaceAll body "$|$" "").toList = before ++ removeHints after := by
  rw [← removeHints_of_before hfirst hbody]
  exact String.toList_ofList

theorem graphemeCount_body (hbody : body.toList = before ++ (hint ++ after)) :
    graphemeCount body
      = graphemeCount (String.ofList before) + 2 + startsAround before after := by
  unfold graphemeCount
  rw [hbody, String.toList_ofList, length_clusters_hint]

/-- What `process_cursor_hint` makes of a body with a hint, unless it underflows. -/
theorem processCursorHint_eq (hfirst : beforeHint body.toList = some before)
    (hbody : body.toList = before ++ (hint ++ after)) (h : 1 ≤ startsAround before after) :
    processCursorHint graphemeCount overflowChecks body
      = some (replaceAll body "$|$" "", some (startsAround before after - 1)) := by
  have hsize := graphemeCount_body hbody
  have hfirstSub : usizeSub overflowChecks (graphemeCount body)
      (graphemeCount (String.ofList before)) = some (2 + startsAround before after) := by
    unfold usizeSub
    rw [if_pos (by omega)]
    congr 1
    omega
  have hsecondSub : usizeSub overflowChecks (2 + startsAround before after) 3
      = some (startsAround before after - 1) := by
    unfold usizeSub
    rw [if_pos (by omega)]
    congr 1
    omega
  unfold processCursorHint
  rw [hfirst]
  show ((usizeSub overflowChecks (graphemeCount body) (graphemeCount (String.ofList before))).bind
    fun moves => (usizeSub overflowChecks moves 3).bind fun moves =>
      some (replaceAll body "$|$" "", some moves)) = _
  rw [hfirstSub, Option.bind_some, hsecondSub, Option.bind_some]

/-- **The hint is positioned** if the graphemes around it, but for one, are those behind it. -/
theorem hintPositioned_iff_startsAround (hfirst : beforeHint body.toList = some before)
    (hbody : body.toList = before ++ (hint ++ after)) :
    HintPositioned overflowChecks body before
      ↔ 1 ≤ startsAround before after
        ∧ startsAround before after ≤ graphemeCount (replaceAll body "$|$" "") + 1
        ∧ (boundary before (removeHints after) = true →
          startsAround before after = (clusters (removeHints after)).length + 1) := by
  have hout := toList_replaceAll hfirst hbody
  have hsize := graphemeCount_body hbody
  have hcount : graphemeCount (replaceAll body "$|$" "")
      = (clusters (before ++ removeHints after)).length := by
    unfold graphemeCount
    rw [hout]
  constructor
  · intro h
    obtain ⟨hunderflow, moves, heq, hmoves, hplace⟩ := h
    have hone : 1 ≤ startsAround before after := by omega
    rw [processCursorHint_eq hfirst hbody hone, Option.some.injEq, Prod.mk.injEq,
      Option.some.injEq] at heq
    refine ⟨hone, by omega, fun hboundary => ?_⟩
    have hdrop := hplace _ hout hboundary
    rw [hout, Graphemes.dropLast_eq_iff hboundary (by omega)] at hdrop
    omega
  · intro h
    obtain ⟨hone, hle, hplace⟩ := h
    refine ⟨by omega, _, processCursorHint_eq hfirst hbody hone, by omega, ?_⟩
    intro rest hrest hboundary
    rw [hout, List.append_cancel_left_eq] at hrest
    subst hrest
    rw [hout, Graphemes.dropLast_eq_iff hboundary (by omega)]
    have heq := hplace hboundary
    omega

/-- **When the cursor hint is positioned correctly.**

Let the place of the first hint in the result be between two graphemes.  Then there has to be
a single hint, with boundaries between it and the text on both sides.

Let it be inside a grapheme of the result.  Then of the graphemes of the body there has to be
one at least that begins at the front edge of the hint or behind it; and no more than one above
those of the result. -/
theorem hintPositioned_iff (hfirst : beforeHint body.toList = some before)
    (hbody : body.toList = before ++ (hint ++ after)) :
    HintPositioned overflowChecks body before
      ↔ (boundary before (removeHints after) = true → SingleHint before after)
        ∧ (boundary before (removeHints after) = false →
          1 ≤ startsAround before after
            ∧ startsAround before after ≤ graphemeCount (replaceAll body "$|$" "") + 1) := by
  rw [hintPositioned_iff_startsAround hfirst hbody]
  constructor
  · intro h
    obtain ⟨hone, hle, hplace⟩ := h
    exact ⟨fun hboundary => (startsAround_iff hboundary).mp (hplace hboundary),
      fun _ => ⟨hone, hle⟩⟩
  · intro h
    obtain ⟨hbetween, hinside⟩ := h
    cases hboundary : boundary before (removeHints after) with
    | false =>
        obtain ⟨hone, hle⟩ := hinside hboundary
        exact ⟨hone, hle, by simp⟩
    | true =>
        have hplace := (startsAround_iff hboundary).mpr (hbetween hboundary)
        have hcount : graphemeCount (replaceAll body "$|$" "")
            = (clusters before).length + (clusters (removeHints after)).length := by
          unfold graphemeCount
          rw [toList_replaceAll hfirst hbody, Graphemes.clusters_append hboundary,
            List.length_append]
        exact ⟨by omega, by omega, fun _ => hplace⟩

end

omit [GraphemeTables] in
/-- A tag with a single hint in it. -/
theorem hintPositioned_iff_tag :
    @HintPositioned .latin true "<b>$|$</b>" ['<', 'b', '>'] :=
  (@hintPositioned_iff .latin true "<b>$|$</b>" ['<', 'b', '>'] ['<', '/', 'b', '>'] rfl rfl).mpr
    ⟨fun _ => @SingleHint.mk .latin _ _ (by decide) (by decide) (by decide),
      fun h => absurd h (by decide)⟩

omit [GraphemeTables] in
/-- **A second hint is counted**: the cursor is to go back by four graphemes, of two.  And an
accent behind the hint is counted with it. -/
theorem secondHint_counted :
    (@processCursorHint (@graphemeCount .latin) true "a$|$b$|$" = some ("ab", some 4)
      ∧ ¬ @HintPositioned .latin true "a$|$b$|$" ['a'])
    ∧ @processCursorHint (@graphemeCount .latin) true "$|$\u0301x" = some ("\u0301x", some 1)
      ∧ ¬ @HintPositioned .latin true "$|$\u0301x" [] := by
  refine ⟨⟨by decide, fun h => ?_⟩, by decide, fun h => ?_⟩
  · have hcount := ((@hintPositioned_iff_startsAround .latin true "a$|$b$|$" ['a']
      ['b', '$', '|', '$'] rfl rfl).mp h).2.1
    exact absurd hcount (by decide)
  · have hplace := ((@hintPositioned_iff_startsAround .latin true "$|$\u0301x" []
      ['\u0301', 'x'] rfl rfl).mp h).2.2 (by decide)
    exact absurd hplace (by decide)

end Shinran
