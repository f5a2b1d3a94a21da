/-
  Shinran.Backend.CasePropagation
  ───────────────────────────────
  **THE CASINGS OF A TRIGGER.**

  A match that propagates the case is for every casing of its triggers.  The
  lookup undoes the casing of ASCII letters only, while the casing style is
  read from letters of all alphabets.

    • `Renders`              — what `check_trigger` returns the rendering of,
    • `renders_capitalized_iff`, `renders_uppercased_iff` — the two casings,
    • `casings_reach_iff`    — when both reach the match,
    • `accent_unreached`     — a casing that does not.
-/
import Shinran.Backend.Adapter

namespace Shinran

/-! ## §1. ASCII letters. -/

theorem toLower_eq_self {c : Char} (h : c.isUpper = false) : c.toLower = c := by
  unfold Char.toLower
  rw [dif_neg]
  simpa [isUpper_eq] using h

theorem isUpper_ascii {c : Char} (h : c.isUpper) : c.toNat < 128 := by
  simp only [isUpper_eq, decide_eq_true_eq, UInt32.le_iff_toNat_le] at h
  have hle : c.val.toNat ≤ 90 := h.2
  show c.val.toNat < 128
  omega

/-- Beyond ASCII, nothing is changed by lowercasing ASCII. -/
theorem toLower_of_not_ascii {c : Char} (h : ¬ c.toNat < 128) : c.toLower = c := by
  refine toLower_eq_self ?_
  cases hupper : c.isUpper with
  | false => rfl
  | true => exact absurd (isUpper_ascii hupper) h

theorem toLower_toUpper {c : Char} (hascii : c.toNat < 128) (h : c.isUpper = false) :
    c.toUpper.toLower = c :=
  ascii_cases (p := fun c => c.isUpper = false → c.toUpper.toLower = c) (by decide) c hascii h

theorem toLower_ascii {c : Char} (hascii : c.toNat < 128) : c.toLower.toNat < 128 :=
  ascii_cases (p := fun c => c.toLower.toNat < 128) (by decide) c hascii

theorem toUpper_ne_self {c : Char} (hascii : c.toNat < 128) (h : c.isAlpha)
    (hupper : c.isUpper = false) : c.toUpper ≠ c :=
  ascii_cases (p := fun c => c.isAlpha = true → c.isUpper = false → c.toUpper ≠ c) (by decide) c
    hascii h hupper

section
variable [CaseTables]

open CaseTables (isAlphabetic isUppercase toLowercase)
open UnicodeTables (toUppercase)

/-! ## §2. Casings. -/

/-- The first letter uppercased. -/
def capitalizeFirst : List Char → List Char
  | [] => []
  | c :: cs => if isAlphabetic c then toUppercase c ++ cs else c :: capitalizeFirst cs

/-- The text with its first letter uppercased. -/
def capitalized (trigger : String) : String := String.ofList (capitalizeFirst trigger.toList)

/-- `str::to_uppercase`. -/
def uppercased (trigger : String) : String :=
  String.ofList (trigger.toList.flatMap toUppercase)

/-- The text with only those characters uppercased that are not ASCII. -/
def uppercasedBeyondAscii (trigger : String) : String :=
  String.ofList (trigger.toList.flatMap fun c => if c.toNat < 128 then [c] else toUppercase c)

/-- A trigger without uppercase characters, whose letters have one uppercase form each, which
has the letter as its lowercase form. -/
structure SimplyCased (trigger : String) : Prop where
  noUppercase : ∀ c ∈ trigger.toList, isUppercase c = false
  letter : ∀ c ∈ trigger.toList, isAlphabetic c = true →
    ∃ u, toUppercase c = [u] ∧ toLowercase u = [c]

/-- What is known of the uppercase form of a character. -/
structure UpperForm (c u : Char) : Prop where
  toUppercase : toUppercase c = [u]
  toLower : u.toLower = if c.toNat < 128 then c else u
  isAlphabetic : isAlphabetic u = isAlphabetic c
  isUppercase : isUppercase u = true ↔ u ≠ c

theorem isUpper_eq_false {c : Char} (h : isUppercase c = false) : c.isUpper = false := by
  cases hupper : c.isUpper with
  | false => rfl
  | true => rw [← CaseTables.isUppercase_ascii c (isUpper_ascii hupper), h] at hupper; cases hupper

/-- **Every character of a simply cased trigger has an uppercase form.** -/
theorem SimplyCased.exists_upperForm {trigger : String} (h : SimplyCased trigger) {c : Char}
    (hc : c ∈ trigger.toList) : ∃ u, UpperForm c u := by
  have hupper := h.noUppercase c hc
  cases halpha : isAlphabetic c with
  | false =>
      -- what is not a letter does not change
      refine ⟨c, CaseTables.toUppercase_of_not_isAlphabetic c halpha, ?_, rfl, by simp [hupper]⟩
      rw [toLower_eq_self (isUpper_eq_false hupper), ite_self]
  | true =>
      obtain ⟨u, hu, hlower⟩ := h.letter c hc halpha
      have huppercase : isUppercase u = true ↔ u ≠ c := by
        constructor
        · rintro hu' rfl
          rw [hupper] at hu'
          cases hu'
        · exact fun hne => CaseTables.isUppercase_of_toUppercase c u hu hne hlower
      refine ⟨u, hu, ?_, ?_, huppercase⟩
      · split_ifs with hascii
        · have hu' := UnicodeTables.toUppercase_ascii c hascii
          obtain rfl : u = c.toUpper := by simpa using hu.symm.trans hu'
          exact toLower_toUpper hascii (isUpper_eq_false hupper)
        · -- the lowercase form of an ASCII character would be ASCII
          refine toLower_of_not_ascii fun hu' => hascii ?_
          obtain rfl : u.toLower = c := by
            simpa using (CaseTables.toLowercase_ascii u hu').symm.trans hlower
          exact toLower_ascii hu'
      · by_cases hne : u = c
        · rw [hne]
        · rw [halpha]
          exact CaseTables.isAlphabetic_of_isUppercase u (huppercase.mpr hne)

/-! ## §3. The keys under which the casings are looked up. -/

section Keys

variable {trigger : String}

/-- Lowercasing ASCII undoes the uppercasing of ASCII letters only. -/
theorem SimplyCased.toAsciiLowercase_uppercased (h : SimplyCased trigger) :
    toAsciiLowercase (uppercased trigger) = uppercasedBeyondAscii trigger := by
  unfold toAsciiLowercase uppercased uppercasedBeyondAscii
  rw [String.toList_ofList, List.map_flatMap]
  refine congrArg String.ofList (List.flatMap_congr fun c hc => ?_)
  obtain ⟨u, hu⟩ := h.exists_upperForm hc
  rw [hu.toUppercase, List.map_singleton, hu.toLower]
  split_ifs <;> rfl

/-- The first letter, and what the text is with that letter uppercased. -/
theorem exists_first {first : Char} {rest : List Char} : ∀ {chars : List Char},
    chars.filter isAlphabetic = first :: rest →
      ∃ pre post, chars = pre ++ first :: post ∧ (∀ c ∈ pre, isAlphabetic c = false)
        ∧ post.filter isAlphabetic = rest
        ∧ capitalizeFirst chars = pre ++ (toUppercase first ++ post)
  | [], h => by cases h
  | c :: chars, h => by
      cases halpha : isAlphabetic c with
      | true =>
          rw [List.filter_cons_of_pos halpha] at h
          cases h
          exact ⟨[], chars, rfl, by simp, rfl, by simp [capitalizeFirst, halpha]⟩
      | false =>
          rw [List.filter_cons_of_neg (by simp [halpha])] at h
          obtain ⟨pre, post, rfl, hpre, hpost, hcapital⟩ := exists_first h
          refine ⟨c :: pre, post, rfl, ?_, hpost, ?_⟩
          · rw [List.forall_mem_cons]
            exact ⟨halpha, hpre⟩
          · simp [capitalizeFirst, halpha, hcapital]

theorem map_toLower_eq_self {chars : List Char} (h : ∀ c ∈ chars, isUppercase c = false) :
    chars.map Char.toLower = chars := by
  rw [List.map_congr_left fun c hc => toLower_eq_self (isUpper_eq_false (h c hc))]
  exact List.map_id' chars

/-- So it does with the first letter. -/
theorem SimplyCased.toAsciiLowercase_capitalized (h : SimplyCased trigger) {first : Char}
    {rest : List Char} (hletters : letters trigger = first :: rest) :
    toAsciiLowercase (capitalized trigger)
      = if first.toNat < 128 then trigger else capitalized trigger := by
  obtain ⟨pre, post, hchars, _, _, hcapital⟩ := exists_first hletters
  have hupper := h.noUppercase
  rw [hchars, List.forall_mem_append, List.forall_mem_cons] at hupper
  obtain ⟨hpre, _, hpost⟩ := hupper
  obtain ⟨u, hu⟩ := h.exists_upperForm (c := first) (by simp [hchars])
  unfold toAsciiLowercase capitalized
  rw [String.toList_ofList, hcapital, hu.toUppercase, List.map_append, List.map_append,
    List.map_singleton, hu.toLower, map_toLower_eq_self hpre, map_toLower_eq_self hpost]
  split_ifs
  · exact (congrArg String.ofList hchars.symm).trans String.ofList_toList
  · rfl

theorem filter_flatMap_toUppercase {chars : List Char} (h : ∀ c ∈ chars, ∃ u, UpperForm c u) :
    (chars.flatMap toUppercase).filter isAlphabetic
      = (chars.filter isAlphabetic).flatMap toUppercase := by
  induction chars with
  | nil => rfl
  | cons c chars ih =>
      rw [List.forall_mem_cons] at h
      obtain ⟨⟨u, hu⟩, htail⟩ := h
      rw [List.flatMap_cons, List.filter_append, ih htail, hu.toUppercase]
      cases halpha : isAlphabetic c with
      | true => simp [halpha, hu.isAlphabetic, hu.toUppercase]
      | false => simp [halpha, hu.isAlphabetic]

/-- Uppercasing keeps letters and other characters apart. -/
theorem SimplyCased.letters_uppercased (h : SimplyCased trigger) :
    letters (uppercased trigger) = (letters trigger).flatMap toUppercase := by
  unfold letters uppercased
  rw [String.toList_ofList]
  exact filter_flatMap_toUppercase fun c hc => h.exists_upperForm hc

theorem letters_capitalized {first : Char} {rest : List Char}
    (hletters : letters trigger = first :: rest) {u : Char}
    (hu : UpperForm first u) : letters (capitalized trigger) = u :: rest := by
  obtain ⟨pre, post, hchars, hpre, hpost, hcapital⟩ := exists_first hletters
  have halpha : isAlphabetic first = true :=
    (List.mem_filter.mp (hletters ▸ List.mem_cons_self : first ∈ letters trigger)).2
  unfold letters capitalized
  rw [String.toList_ofList, hcapital, hu.toUppercase, List.filter_append, List.filter_append,
    hpost, List.filter_eq_nil_iff.mpr fun c hc => by simp [hpre c hc]]
  simp [hu.isAlphabetic, halpha]

end Keys

/-! ## §4. What the casings reach. -/

namespace RendererAdapter

variable {adapter : RendererAdapter} {m : TriggerMatch} {trigger : String} {effect : TextEffect}

/-- What `check_trigger` returns once a text has been rendered with the casing style. -/
def returned (adapter : RendererAdapter) (fuel : Nat) (orders : RenderOrder)
    (style : CasingStyle) (effect : TextEffect) : Except BackendFailure (Option String) := do
  let body ← outcome (renderTemplate adapter.runtime.renderer adapter.context style fuel orders
    effect)
  match adapter.processCursorHint body with
  | some (body, _) => .ok (some body)
  | none => .error .panicked

/-- For the typed text `check_trigger` finds `m`, and what it returns is the text of `m`, rendered
with the casing style. -/
def Renders (adapter : RendererAdapter) (typed : String) (m : TriggerMatch)
    (style : CasingStyle) : Prop :=
  ∃ match_ effect, adapter.detect typed = some match_ ∧ match_.id = .trigger m
    ∧ m.baseMatch.effect = .text effect
    ∧ (∀ argOrder, prepareRender argOrder match_.id (some typed) match_.args = .ok (effect, style))
    ∧ ∀ fuel orders argOrder,
      adapter.checkTrigger fuel orders argOrder typed = adapter.returned fuel orders style effect

/-- **What `check_trigger` returns** for the match that it finds. -/
theorem checkTrigger_of_detect {typed : String} {match_ : DetectedMatch} {style : CasingStyle}
    (hdetect : adapter.detect typed = some match_) {argOrder : ArgOrder}
    (hprepare : prepareRender argOrder match_.id (some typed) match_.args = .ok (effect, style))
    (fuel : Nat) (orders : RenderOrder) :
    adapter.checkTrigger fuel orders argOrder typed
      = adapter.returned fuel orders style effect := by
  unfold checkTrigger
  rw [hdetect]
  show adapter.expand fuel orders argOrder typed match_ = _
  unfold expand render
  rw [hprepare]
  rfl

omit [CaseTables] in
/-- Without captured groups the template is the text of the match. -/
theorem augment_empty (argOrder : ArgOrder) : augment argOrder ∅ effect = effect := by
  have hiter : argOrder.iter [] = [] := List.perm_nil.mp (argOrder.perm [])
  show ({ effect with vars := (argOrder.iter []).foldl _ effect.vars } : TextEffect) = effect
  rw [hiter]
  rfl

/-- A text reaches the match that it finds, and no other. -/
theorem renders_iff (hpropagate : m.propagateCase = true)
    (heffect : m.baseMatch.effect = .text effect) {typed : String} {style : CasingStyle} :
    adapter.Renders typed m style
      ↔ (adapter.triggerMap.lookup typed).or (adapter.triggerMap.lookup (toAsciiLowercase typed))
          = some m ∧ style = calculateCasingStyle typed (some m.uppercaseStyle) := by
  unfold Renders
  rw [detect_eq]
  constructor
  · intro h
    obtain ⟨match_, _, hdetect, hid, _, hprepare, _⟩ := h
    cases hfound : (adapter.triggerMap.lookup typed).or
        (adapter.triggerMap.lookup (toAsciiLowercase typed)) with
    | none =>
        -- a regex match belongs to no trigger match
        rw [hfound] at hdetect
        obtain ⟨regexMatch, _, _, hregex⟩ := RegexMatcher.mem_findMatches
          (List.mem_of_head? hdetect)
        cases hid.symm.trans hregex
    | some found =>
        rw [hfound] at hdetect
        cases hdetect
        cases hid
        obtain ⟨_, _, _, _, hstyle⟩ := prepareRender_ok_iff.mp (hprepare .canonical)
        refine ⟨rfl, hstyle.trans ?_⟩
        simp [MatchRef.casingStyle, hpropagate]
  · intro h
    obtain ⟨hfound, rfl⟩ := h
    rw [hfound]
    have hprepare : ∀ argOrder, prepareRender argOrder (.trigger m) (some typed) ∅
        = .ok (effect, calculateCasingStyle typed (some m.uppercaseStyle)) := by
      intro argOrder
      refine prepareRender_ok_iff.mpr ⟨.inl hpropagate, effect, heffect, ?_, ?_⟩
      · exact (augment_empty argOrder).symm
      · simp [MatchRef.casingStyle, hpropagate]
    refine ⟨_, effect, rfl, rfl, heffect, hprepare, fun fuel orders argOrder => ?_⟩
    have hdetect : adapter.detect typed = some { id := .trigger m, trigger := typed } := by
      rw [detect_eq, hfound]
      rfl
    exact checkTrigger_of_detect hdetect (hprepare argOrder) fuel orders

/-- The style that a first capital asks for. -/
def capitalStyle (m : TriggerMatch) : CasingStyle :=
  if m.uppercaseStyle = .capitalizeWords then .capitalizeWords else .capitalize

theorem calculateCasingStyle_of_letters {typed : String} {first second : Char}
    {rest : List Char} (hletters : letters typed = first :: second :: rest) :
    calculateCasingStyle typed (some m.uppercaseStyle)
      = if isUppercase first then if isUppercase second then .uppercase else capitalStyle m
        else .none := by
  unfold calculateCasingStyle capitalStyle
  rw [hletters]
  cases m.uppercaseStyle <;> rfl

section Casings

variable {first second : Char} {rest : List Char}
  (hpropagate : m.propagateCase = true) (heffect : m.baseMatch.effect = .text effect)
  (hcased : SimplyCased trigger) (hletters : letters trigger = first :: second :: rest)
  (hfiled : adapter.triggerMap.lookup trigger = some m)

include hcased hletters

theorem isUppercase_letters : isUppercase first = false ∧ isUppercase second = false := by
  have hmem : ∀ c ∈ letters trigger, isUppercase c = false := fun c hc =>
    hcased.noUppercase c (List.mem_filter.mp hc).1
  rw [hletters] at hmem
  exact ⟨hmem first (by simp), hmem second (by simp)⟩

theorem exists_upperForm_letters : (∃ u, UpperForm first u) ∧ ∃ v, UpperForm second v := by
  have hmem : ∀ c ∈ letters trigger, ∃ u, UpperForm c u := fun c hc =>
    hcased.exists_upperForm (List.mem_filter.mp hc).1
  rw [hletters] at hmem
  exact ⟨hmem first (by simp), hmem second (by simp)⟩

/-- An ASCII letter that is not uppercase has another form. -/
theorem upperForm_ne {u : Char} (hu : UpperForm first u) (hascii : first.toNat < 128) :
    u ≠ first := by
  have halpha : isAlphabetic first = true :=
    (List.mem_filter.mp (hletters ▸ List.mem_cons_self : first ∈ letters trigger)).2
  obtain rfl : u = first.toUpper := by
    simpa using hu.toUppercase.symm.trans (UnicodeTables.toUppercase_ascii first hascii)
  rw [CaseTables.isAlphabetic_ascii first hascii] at halpha
  exact toUpper_ne_self hascii halpha
    (isUpper_eq_false (isUppercase_letters hcased hletters).1)

include hpropagate heffect

/-- **The trigger in capitals** reaches its match if that is filed under what is left of the
capitals, and its second letter has a capital. -/
theorem renders_uppercased_iff (hascii : first.toNat < 128)
    (hother : uppercased trigger ≠ trigger →
      adapter.triggerMap.lookup (uppercased trigger) = none) :
    adapter.Renders (uppercased trigger) m .uppercase
      ↔ toUppercase second ≠ [second]
        ∧ adapter.triggerMap.lookup (uppercasedBeyondAscii trigger) = some m := by
  obtain ⟨⟨u, hu⟩, v, hv⟩ := exists_upperForm_letters hcased hletters
  have hupper : letters (uppercased trigger) = u :: v :: rest.flatMap toUppercase := by
    rw [hcased.letters_uppercased, hletters, List.flatMap_cons, List.flatMap_cons,
      hu.toUppercase, hv.toUppercase]
    rfl
  have hne := upperForm_ne hcased hletters hu hascii
  have hchanged : uppercased trigger ≠ trigger := by
    intro heq
    rw [heq, hletters] at hupper
    exact hne (List.cons.inj hupper).1.symm
  rw [renders_iff hpropagate heffect, hcased.toAsciiLowercase_uppercased, hother hchanged,
    Option.none_or, calculateCasingStyle_of_letters hupper, if_pos (hu.isUppercase.mpr hne),
    and_comm]
  refine and_congr_left fun _ => ?_
  rw [hv.toUppercase]
  by_cases hv' : v = second
  · have hcapital : CasingStyle.uppercase ≠ capitalStyle m := by
      unfold capitalStyle
      split_ifs <;> simp
    simp [hv', (isUppercase_letters hcased hletters).2, hcapital]
  · simp [hv.isUppercase.mpr hv', hv']

include hfiled

/-- The trigger as it is. -/
theorem renders_trigger : adapter.Renders trigger m .none := by
  refine (renders_iff hpropagate heffect).mpr ⟨by rw [hfiled, Option.some_or], ?_⟩
  rw [calculateCasingStyle_of_letters hletters, (isUppercase_letters hcased hletters).1]
  rfl

/-- **The trigger with a capital** reaches its match if its first letter is ASCII. -/
theorem renders_capitalized_iff
    (hother : capitalized trigger ≠ trigger →
      adapter.triggerMap.lookup (capitalized trigger) = none) :
    adapter.Renders (capitalized trigger) m (capitalStyle m) ↔ first.toNat < 128 := by
  obtain ⟨⟨u, hu⟩, _⟩ := exists_upperForm_letters hcased hletters
  have hcapital : letters (capitalized trigger) = u :: second :: rest :=
    letters_capitalized hletters hu
  have hlower := hcased.toAsciiLowercase_capitalized hletters
  rw [renders_iff hpropagate heffect, hlower, calculateCasingStyle_of_letters hcapital,
    (isUppercase_letters hcased hletters).2]
  by_cases hascii : first.toNat < 128
  · have hne := upperForm_ne hcased hletters hu hascii
    have hchanged : capitalized trigger ≠ trigger := by
      intro heq
      rw [heq, hletters] at hcapital
      exact hne (List.cons.inj hcapital).1.symm
    rw [if_pos hascii, hother hchanged, Option.none_or]
    simp [hascii, hfiled, hu.isUppercase.mpr hne]
  · -- the capital is looked up twice, to no avail unless it is the trigger itself
    refine iff_of_false ?_ hascii
    rintro ⟨hfound, hstyle⟩
    rw [if_neg hascii] at hfound
    by_cases heq : capitalized trigger = trigger
    · rw [heq, hletters] at hcapital
      cases hcapital
      rw [(isUppercase_letters hcased hletters).1] at hstyle
      unfold capitalStyle at hstyle
      split_ifs at hstyle
    · rw [hother heq] at hfound
      cases hfound

/-- **When all casings reach the match.**  For the trigger itself, the trigger with its first
letter uppercased and the trigger in capitals, `check_trigger` returns the text of the match in
their three styles if and only if the first letter is ASCII, the second letter has a capital, and
the match is filed also under the trigger with only its characters beyond ASCII uppercased. -/
theorem casings_reach_iff
    (hother : ∀ typed, typed = capitalized trigger ∨ typed = uppercased trigger →
      typed ≠ trigger → adapter.triggerMap.lookup typed = none) :
    (adapter.Renders trigger m .none
        ∧ adapter.Renders (capitalized trigger) m (capitalStyle m)
        ∧ adapter.Renders (uppercased trigger) m .uppercase)
      ↔ first.toNat < 128 ∧ toUppercase second ≠ [second]
        ∧ adapter.triggerMap.lookup (uppercasedBeyondAscii trigger) = some m := by
  have hcapital := renders_capitalized_iff hpropagate heffect hcased hletters hfiled
    (hother _ (.inl rfl))
  rw [hcapital, and_iff_right (renders_trigger hpropagate heffect hcased hletters hfiled)]
  refine and_congr_right fun hascii => ?_
  exact renders_uppercased_iff hpropagate heffect hcased hletters hascii (hother _ (.inr rfl))

end Casings

end RendererAdapter

end

/-! ## §5. Two triggers. -/

/-- A match that propagates the case. -/
def propagatingMatch (trigger body : String) : TriggerMatch where
  baseMatch := { effect := .text { body := body } }
  triggers := [trigger]
  propagateCase := true

/-- The adapter for one such match. -/
def propagatingAdapter (trigger body : String) : RendererAdapter :=
  .ofCollection ⟨⟨fun _ => true, fun _ _ => false, fun _ => [], fun _ _ => none⟩, (·.length), true,
      .answering ""⟩ 1000000000
    { triggerMatches := [propagatingMatch trigger body], regexMatches := [], globalVars := [] }

/-- The tables with one letter beyond ASCII, in its two forms. -/
@[reducible] def CaseTables.acute : CaseTables where
  toUnicodeTables :=
    { isWord c := c.isAlphanum || c == '_' || c == 'é' || c == 'É'
      isSpace := isAsciiSpace
      toUppercase c := if c = 'é' then ['É'] else [c.toUpper]
      isWord_ascii c hc := by
        have hlower : c ≠ 'é' := by rintro rfl; revert hc; decide
        have hupper : c ≠ 'É' := by rintro rfl; revert hc; decide
        show (c.isAlphanum || c == '_' || c == 'é' || c == 'É') = (c.isAlphanum || c == '_')
        rw [beq_eq_false_iff_ne.mpr hlower, beq_eq_false_iff_ne.mpr hupper, Bool.or_false,
          Bool.or_false]
      isSpace_ascii := UnicodeTables.ascii.isSpace_ascii
      not_word_of_space c h := by
        have hlower : c ≠ 'é' := by rintro rfl; revert h; decide
        have hupper : c ≠ 'É' := by rintro rfl; revert h; decide
        have hword : (c.isAlphanum || c == '_') = false :=
          UnicodeTables.ascii.not_word_of_space c h
        show (c.isAlphanum || c == '_' || c == 'é' || c == 'É') = false
        rw [hword, beq_eq_false_iff_ne.mpr hlower, beq_eq_false_iff_ne.mpr hupper]
        rfl
      toUppercase_ascii c hc := if_neg (by rintro rfl; revert hc; decide)
      toUppercase_ne_nil c := by split_ifs <;> simp }
  isAlphabetic c := c.isAlpha || c == 'é' || c == 'É'
  isUppercase c := c.isUpper || c == 'É'
  toLowercase c := if c = 'É' then ['é'] else [c.toLower]
  isAlphabetic_ascii c hc := by
    have hlower : c ≠ 'é' := by rintro rfl; revert hc; decide
    have hupper : c ≠ 'É' := by rintro rfl; revert hc; decide
    rw [beq_eq_false_iff_ne.mpr hlower, beq_eq_false_iff_ne.mpr hupper, Bool.or_false,
      Bool.or_false]
  isUppercase_ascii c hc := by
    have hupper : c ≠ 'É' := by rintro rfl; revert hc; decide
    rw [beq_eq_false_iff_ne.mpr hupper, Bool.or_false]
  toLowercase_ascii c hc := if_neg (by rintro rfl; revert hc; decide)
  isAlphabetic_of_isUppercase c h := by
    rw [Bool.or_eq_true] at h
    cases h with
    | inl h => simp [isAlpha_eq, h]
    | inr h => simp [h]
  toUppercase_of_not_isAlphabetic c h := by
    simp only [isAlpha_eq, Bool.or_eq_false_iff, beq_eq_false_iff_ne] at h
    show (if c = 'é' then ['É'] else [c.toUpper]) = [c]
    rw [if_neg h.1.2, toUpper_eq_self h.1.1.2]
  isUppercase_of_toUppercase c u h hne _ := by
    have hu : (if c = 'é' then ['É'] else [c.toUpper]) = [u] := h
    split_ifs at hu
    · cases hu
      decide
    · cases hu
      cases hlower : c.isLower with
      | true => simp [isUpper_toUpper hlower]
      | false => exact absurd (toUpper_eq_self hlower) hne

/-- **A casing beyond ASCII is not reached**: the trigger with its first letter uppercased is
filed under no key that is looked up. -/
theorem accent_unreached :
    @SimplyCased .acute "éa" ∧ @letters .acute "éa" = ['é', 'a']
      ∧ (propagatingAdapter "éa" "already").triggerMap.lookup "éa"
        = some (propagatingMatch "éa" "already")
      ∧ @capitalized .acute "éa" = "Éa" ∧ @uppercased .acute "éa" = "ÉA"
      ∧ (propagatingAdapter "éa" "already").triggerMap.lookup "Éa" = none
      ∧ (propagatingAdapter "éa" "already").triggerMap.lookup "ÉA" = none
      ∧ @RendererAdapter.checkTrigger .acute (propagatingAdapter "éa" "already") 1
        (fun _ => .canonical) .canonical "Éa" = .ok none
      ∧ ¬ (@RendererAdapter.Renders .acute (propagatingAdapter "éa" "already") "éa"
            (propagatingMatch "éa" "already") .none
          ∧ @RendererAdapter.Renders .acute (propagatingAdapter "éa" "already") "Éa"
            (propagatingMatch "éa" "already") .capitalize
          ∧ @RendererAdapter.Renders .acute (propagatingAdapter "éa" "already") "ÉA"
            (propagatingMatch "éa" "already") .uppercase) := by
  have hletters : ∀ c ∈ "éa".toList, c = 'é' ∨ c = 'a' := by simp
  refine ⟨@SimplyCased.mk .acute _ ?_ ?_, rfl, rfl, rfl, rfl, rfl, rfl, rfl, ?_⟩
  · intro c hc
    obtain rfl | rfl := hletters c hc <;> rfl
  · intro c hc _
    obtain rfl | rfl := hletters c hc
    · exact ⟨'É', rfl, rfl⟩
    · exact ⟨'A', rfl, rfl⟩
  · rintro ⟨_, ⟨match_, _, hdetect, _⟩, _⟩
    have hnone : (propagatingAdapter "éa" "already").detect "Éa" = none := rfl
    rw [hnone] at hdetect
    cases hdetect

theorem casings_reach_iff_alh :
    @RendererAdapter.Renders .ascii (propagatingAdapter "alh" "although") "alh"
        (propagatingMatch "alh" "although") .none
      ∧ @RendererAdapter.Renders .ascii (propagatingAdapter "alh" "although") "Alh"
        (propagatingMatch "alh" "although") .capitalize
      ∧ @RendererAdapter.Renders .ascii (propagatingAdapter "alh" "although") "ALH"
        (propagatingMatch "alh" "although") .uppercase := by
  have hcased : @SimplyCased .ascii "alh" := by
    have hletters : ∀ c ∈ "alh".toList, c = 'a' ∨ c = 'l' ∨ c = 'h' := by simp
    refine @SimplyCased.mk .ascii _ ?_ ?_
    · intro c hc
      obtain rfl | rfl | rfl := hletters c hc <;> rfl
    · intro c hc _
      obtain rfl | rfl | rfl := hletters c hc
      · exact ⟨'A', rfl, rfl⟩
      · exact ⟨'L', rfl, rfl⟩
      · exact ⟨'H', rfl, rfl⟩
  refine (@RendererAdapter.casings_reach_iff .ascii (propagatingAdapter "alh" "although")
    (propagatingMatch "alh" "although") "alh" { body := "although" } 'a' 'l' ['h'] rfl rfl hcased
    rfl rfl ?_).mpr ⟨by decide, by decide, rfl⟩
  rintro typed (rfl | rfl) _ <;> rfl

end Shinran
