/-
  Shinran.Render.Unescaping
  ─────────────────────────
  **UNESCAPING A TEXT FOR THE SECOND TIME.**

  `render_template` unescapes the text that `render_variables` has unescaped
  before.  That makes a difference exactly if the first unescaping leaves an
  escape.  It takes the escaped braces of a run in pairs, so one is left of an
  odd run, and it is joined to the backslash behind it and to the brace that
  the next escape stands for.

    • `OddRun`                  — such a run, with what follows it,
    • `escape_left_iff`         — exactly an odd run leaves an escape,
    • `unescape_idempotent_iff` — so it is that a second unescaping changes,
    • `unescapedOnce_iff`       — what this means for a body with references.
-/
import Shinran.Render.Verbatim

namespace Shinran

/-! ## §1. Runs of escaped braces. -/

/-- The characters that are escaped. -/
def braces : List Char := ['\x7b', '\x7d']

/-- A brace with a backslash in front of it, so many times. -/
def escaped (brace : Char) : Nat → List Char
  | 0 => []
  | n + 1 => '\\' :: brace :: escaped brace n

/-- **An odd run of escaped braces**, with a backslash and an escape behind it. -/
def OddRun (brace : Char) (text : List Char) : Prop :=
  ∃ pre k post, text = pre ++ (escaped brace (2 * k + 1) ++ '\\' :: (escaped brace 2 ++ post))
    -- the run begins here
    ∧ ¬ ['\\', brace] <:+ pre

variable {brace : Char} {text : List Char}

@[simp] theorem escaped_zero : escaped brace 0 = [] := rfl

@[simp] theorem escaped_succ (n : Nat) :
    escaped brace (n + 1) = '\\' :: brace :: escaped brace n := rfl

theorem escaped_add (m n : Nat) : escaped brace (m + n) = escaped brace m ++ escaped brace n := by
  induction m with
  | zero => simp
  | succ m ih => rw [Nat.succ_add, escaped_succ, escaped_succ, ih]; rfl

theorem ne_backslash (hbrace : brace ∈ braces) : brace ≠ '\\' := by
  rintro rfl
  exact absurd hbrace (by decide)

/-! ## §2. What the scan does at the head of a text. -/

/-- An escape that the text begins with is taken. -/
theorem unescapeOnce_escaped (hbrace : brace ∈ braces) :
    unescapeOnce (escaped brace 2 ++ text) = brace :: brace :: unescapeOnce text := by
  unfold braces at hbrace
  rcases List.mem_pair.mp hbrace with rfl | rfl
  · rfl
  · rfl

/-- A character that no escape begins with is copied. -/
theorem unescapeOnce_copied {c : Char}
    (h : ∀ brace ∈ braces, ¬ escaped brace 2 <+: c :: text) :
    unescapeOnce (c :: text) = c :: unescapeOnce text :=
  unescapeOnce_cons (h _ (by decide)) (h _ (by decide))

/-- So is one that has a backslash in the place of a brace behind it. -/
theorem unescapeOnce_of_backslash {c : Char}
    (h : (c :: text)[1]? = some '\\' ∨ (c :: text)[3]? = some '\\') :
    unescapeOnce (c :: text) = c :: unescapeOnce text := by
  refine unescapeOnce_copied fun brace hbrace hprefix => ?_
  obtain ⟨rest, heq⟩ := hprefix
  rw [← heq] at h
  exact ne_backslash hbrace (by simpa using h)

/-- So is one that is no backslash. -/
theorem unescapeOnce_of_ne {c : Char} (hc : c ≠ '\\') :
    unescapeOnce (c :: text) = c :: unescapeOnce text := by
  refine unescapeOnce_copied fun brace _ h => hc ?_
  obtain ⟨_, heq⟩ := h
  exact (List.cons.inj heq).1.symm

/-- What the scan finds at the head of a text: its end, an escape, or a character to copy. -/
theorem scan_cases (text : List Char) :
    text = []
      ∨ (∃ brace ∈ braces, ∃ rest, text = escaped brace 2 ++ rest)
      ∨ ∃ c rest, text = c :: rest ∧ ∀ brace ∈ braces, ¬ escaped brace 2 <+: c :: rest := by
  cases text with
  | nil => exact Or.inl rfl
  | cons c rest =>
      by_cases h : ∀ brace ∈ braces, ¬ escaped brace 2 <+: c :: rest
      · exact Or.inr (Or.inr ⟨c, rest, rfl, h⟩)
      · simp only [not_forall, not_not] at h
        obtain ⟨brace, hbrace, rest', heq⟩ := h
        exact Or.inr (Or.inl ⟨brace, hbrace, rest', heq.symm⟩)

/-- What the scan writes first is copied, or it is the brace of an escape. -/
theorem unescapeOnce_eq_cons {c : Char} {out : List Char} (h : unescapeOnce text = c :: out) :
    (∃ rest, text = c :: rest ∧ out = unescapeOnce rest)
      ∨ (∃ rest, text = escaped c 2 ++ rest ∧ out = c :: unescapeOnce rest) := by
  rcases scan_cases text with rfl | ⟨brace, hbrace, rest, rfl⟩ | ⟨d, rest, rfl, hnot⟩
  · cases h
  · rw [unescapeOnce_escaped hbrace] at h
    obtain ⟨rfl, rfl⟩ := List.cons.inj h
    exact Or.inr ⟨rest, rfl, rfl⟩
  · rw [unescapeOnce_copied hnot] at h
    obtain ⟨rfl, rfl⟩ := List.cons.inj h
    exact Or.inl ⟨rest, rfl, rfl⟩

/-! ## §3. An odd run leaves an escape. -/

/-- A text is scanned in parts where a run begins. -/
theorem unescapeOnce_append {pre rest : List Char} (hpre : ¬ ['\\', brace] <:+ pre) :
    unescapeOnce (pre ++ '\\' :: brace :: rest)
      = unescapeOnce pre ++ unescapeOnce ('\\' :: brace :: rest) := by
  refine Windows.rewritten_append (Nat.zero_le _) fun front post heq hne hlength => ⟨?_, ?_⟩
  · rw [← Bool.not_eq_true]
    intro h
    have hfour := (length_escape h).1
    omega
  · rw [← Bool.not_eq_true, isEscape_iff]
    intro h
    -- the escape would begin with the last one to three characters of the first part
    match post, hne, hlength with
    | [c], _, _ => simp at h
    | [c, d], _, _ =>
        have hrun : [c, d] = ['\\', brace] := by
          simp only [List.cons_append, List.nil_append, List.take_succ_cons, List.take_zero,
            List.cons.injEq, and_true] at h ⊢
          rcases h with ⟨rfl, rfl, _, rfl⟩ | ⟨rfl, rfl, _, rfl⟩
          · exact ⟨rfl, rfl⟩
          · exact ⟨rfl, rfl⟩
        exact hpre ⟨front, by rw [heq, hrun]⟩
    | [c, d, e], _, _ => simp at h

/-- The scan takes a run of escaped braces in pairs. -/
theorem suffix_unescapeOnce_even (hbrace : brace ∈ braces) (rest : List Char) : ∀ k : Nat,
    unescapeOnce rest <:+ unescapeOnce (escaped brace (2 * k) ++ rest)
  | 0 => List.suffix_refl _
  | k + 1 => by
      rw [Nat.mul_succ, Nat.add_comm, escaped_add, List.append_assoc,
        unescapeOnce_escaped hbrace]
      have ih := suffix_unescapeOnce_even hbrace rest k
      exact (ih.trans (List.suffix_cons _ _)).trans (List.suffix_cons _ _)

/-- The escaped brace that is left, the backslash and the brace of the next escape. -/
theorem unescapeOnce_odd (hbrace : brace ∈ braces) (post : List Char) :
    unescapeOnce (escaped brace 1 ++ '\\' :: (escaped brace 2 ++ post))
      = escaped brace 2 ++ brace :: unescapeOnce post := by
  show unescapeOnce ('\\' :: brace :: '\\' :: (escaped brace 2 ++ post)) = _
  rw [unescapeOnce_of_backslash (Or.inr rfl), unescapeOnce_of_ne (ne_backslash hbrace),
    unescapeOnce_of_backslash (Or.inl rfl), unescapeOnce_escaped hbrace]
  rfl

theorem escape_left_of_oddRun (hbrace : brace ∈ braces) (h : OddRun brace text) :
    escaped brace 2 <:+: unescapeOnce text := by
  obtain ⟨pre, k, post, rfl, hpre⟩ := h
  have hscan : unescapeOnce
        (pre ++ (escaped brace (2 * k + 1) ++ '\\' :: (escaped brace 2 ++ post)))
      = unescapeOnce pre
        ++ unescapeOnce (escaped brace (2 * k + 1) ++ '\\' :: (escaped brace 2 ++ post)) :=
    unescapeOnce_append hpre
  have hodd : escaped brace 2 <+: unescapeOnce
      (escaped brace 1 ++ '\\' :: (escaped brace 2 ++ post)) := by
    rw [unescapeOnce_odd hbrace]
    exact List.prefix_append _ _
  have heven := suffix_unescapeOnce_even hbrace
    (escaped brace 1 ++ '\\' :: (escaped brace 2 ++ post)) k
  rw [← List.append_assoc, ← escaped_add] at heven
  rw [hscan]
  exact (hodd.isInfix.trans heven.isInfix).trans (List.suffix_append _ _).isInfix

/-! ## §4. Nothing else does. -/

/-- A run behind an escape is one of the whole text, and may go on from the escape. -/
theorem OddRun.escaped_append {b : Char} (hb : b ∈ braces) (h : OddRun brace text) :
    OddRun brace (escaped b 2 ++ text) := by
  obtain ⟨pre, k, post, rfl, hpre⟩ := h
  by_cases hjoins : ['\\', brace] <:+ escaped b 2 ++ pre
  · have hrun : b = brace ∧ pre = [] := by
      simp only [escaped_succ, escaped_zero, List.cons_append, List.nil_append,
        List.suffix_cons_iff, List.cons.injEq, reduceCtorEq, and_false, false_or,
        true_and] at hjoins
      rcases hjoins with ⟨rfl, rfl⟩ | ⟨heq, _⟩ | hsuffix
      · exact ⟨rfl, rfl⟩
      · exact absurd heq.symm (ne_backslash hb)
      · exact absurd hsuffix hpre
    obtain ⟨rfl, rfl⟩ := hrun
    exact ⟨[], k + 1, post, rfl, by simp⟩
  · exact ⟨escaped b 2 ++ pre, k, post, by rw [List.append_assoc], hjoins⟩

/-- A run behind a character that is copied is one of the whole text. -/
theorem OddRun.cons {c : Char} (hcopied : ∀ b ∈ braces, ¬ escaped b 2 <+: c :: text)
    (hbrace : brace ∈ braces) (h : OddRun brace text) : OddRun brace (c :: text) := by
  obtain ⟨pre, k, post, rfl, hpre⟩ := h
  refine ⟨c :: pre, k, post, rfl, fun hjoins => ?_⟩
  rcases List.suffix_cons_iff.mp hjoins with heq | hsuffix
  · obtain ⟨rfl, rfl⟩ := List.cons.inj heq
    -- the character would belong to the run, and begin an escape
    exact hcopied brace hbrace ⟨_, rfl⟩
  · exact hpre hsuffix

/-- An escape that a copied character begins is what an odd run leaves. -/
theorem oddRun_of_escape_begun {c : Char} (hcopied : ∀ b ∈ braces, ¬ escaped b 2 <+: c :: text)
    (hbrace : brace ∈ braces) (h : escaped brace 2 <+: c :: unescapeOnce text) :
    OddRun brace (c :: text) := by
  obtain ⟨out, heq⟩ := h
  obtain ⟨rfl, hbehind⟩ := List.cons.inj heq
  -- the brace and the second backslash are copied as well
  rcases unescapeOnce_eq_cons hbehind.symm with ⟨rest, rfl, hrest⟩ | ⟨_, _, hescape⟩
  · rcases unescapeOnce_eq_cons hrest.symm with ⟨rest', rfl, hrest'⟩ | ⟨_, _, hescape⟩
    · rcases unescapeOnce_eq_cons hrest'.symm with ⟨rest'', rfl, _⟩ | ⟨post, rfl, _⟩
      · exact absurd ⟨rest'', rfl⟩ (hcopied brace hbrace)
      · exact ⟨[], 0, post, rfl, by simp⟩
    · exact absurd (List.cons.inj hescape).1 (ne_backslash hbrace)
  · exact absurd (List.cons.inj hescape).1.symm (ne_backslash hbrace)

theorem oddRun_of_escape_left (hbrace : brace ∈ braces) (text : List Char)
    (h : escaped brace 2 <:+: unescapeOnce text) : OddRun brace text := by
  -- along the scan, which takes an escape or copies a character
  induction hn : text.length using Nat.strong_induction_on generalizing text with
  | _ n ih =>
      rcases scan_cases text with rfl | ⟨b, hb, rest, rfl⟩ | ⟨c, rest, rfl, hcopied⟩
      · exact absurd (List.infix_nil.mp h) (by simp)
      · rw [unescapeOnce_escaped hb] at h
        have hrest : escaped brace 2 <:+: unescapeOnce rest := by
          have hne : ¬ '\\' = b := fun heq => ne_backslash hb heq.symm
          simpa [List.infix_cons_iff, hne] using h
        exact (ih rest.length (by rw [← hn]; simp; omega) rest hrest rfl).escaped_append hb
      · rw [unescapeOnce_copied hcopied] at h
        rcases List.infix_cons_iff.mp h with hprefix | hrest
        · exact oddRun_of_escape_begun hcopied hbrace hprefix
        · exact (ih rest.length (by rw [← hn]; simp) rest hrest rfl).cons hcopied hbrace

/-- **Exactly an odd run leaves an escape.** -/
theorem escape_left_iff (hbrace : brace ∈ braces) :
    escaped brace 2 <:+: unescapeOnce text ↔ OddRun brace text :=
  ⟨oddRun_of_escape_left hbrace text, escape_left_of_oddRun hbrace⟩

theorem nothingLeft_iff :
    (∀ escape ∈ escapes, ¬ escape <:+: unescapeOnce text)
      ↔ ∀ brace ∈ braces, ¬ OddRun brace text := by
  have hescapes : escapes = braces.map (escaped · 2) := rfl
  rw [hescapes, List.forall_mem_map]
  exact forall₂_congr fun _ hbrace => not_congr (escape_left_iff hbrace)

/-! ## §5. Unescaping twice. -/

/-- A text is left alone iff it has no escape. -/
theorem unescapeOnce_eq_self_iff :
    unescapeOnce text = text ↔ ∀ escape ∈ escapes, ¬ escape <:+: text := by
  rw [← taken_isEscape_eq_nil]
  constructor
  · intro h
    -- every escape that is taken would make the text shorter
    have hlength := length_unescapeOnce text
    rw [h] at hlength
    exact List.length_eq_zero_iff.mp (by omega)
  · exact Windows.rewritten_of_taken_eq_nil

theorem unescape_twice_iff (text : List Char) :
    unescapeVariableInections (unescapeVariableInections (String.ofList text))
        = unescapeVariableInections (String.ofList text)
      ↔ ∀ brace ∈ braces, ¬ OddRun brace text := by
  rw [← nothingLeft_iff, ← unescapeOnce_eq_self_iff, unescape_eq, unescape_eq,
    ← String.toList_inj]
  simp only [String.toList_ofList]

/-- **When unescaping is idempotent.**  For every text: unescaping it for the second time changes
nothing if and only if the text has no odd run of escaped braces with a backslash and an escape
behind it. -/
theorem unescape_idempotent_iff (text : String) :
    unescapeVariableInections (unescapeVariableInections text) = unescapeVariableInections text
      ↔ ∀ brace ∈ braces, ¬ OddRun brace text.toList := by
  have htwice := unescape_twice_iff text.toList
  rwa [String.ofList_toList] at htwice

/-- A body whose literal is an odd run, with a blank behind it. -/
def oddBody : String := "\\\x7b\\\\\x7b\\\x7b "

/-- **A literal that comes out in two ways**: unescaping it for the second time makes another text
of it, and so the same literal is rendered differently with a reference behind it. -/
theorem not_idempotent_oddBody :
    unescapeVariableInections (unescapeVariableInections oddBody)
        ≠ unescapeVariableInections oddBody
      ∧ @renderTemplate .ascii (.answering "") Context.default .none 1 (fun _ => .canonical)
          { echoed with body := oddBody } = some (.success "\\\x7b\\\x7b\x7b ")
      ∧ @renderTemplate .ascii (.answering "") Context.default .none 1 (fun _ => .canonical)
          { echoed with body := oddBody ++ echoed.body } = some (.success "\x7b\x7b\x7b ") := by
  decide

/-- **What this means for rendering.**  Let the variables of a template with a reference be
evaluated, and every reference have an output.  The body with its outputs is unescaped as a body
without a reference is, that is, once, if and only if it has no odd run. -/
theorem unescapedOnce_iff [UnicodeTables] {ren : Renderer} {ctx : Context} {fuel : Nat}
    {orders : RenderOrder} {template : TextEffect} {vars : List Variable} {scope : Scope}
    {substituted : List Char} (hmatch : VarRegex.isMatch template.body = true)
    (horder : templateOrder ctx (orders []) template = some (.ok vars))
    (hloop : templateLoop ren ctx .none fuel orders vars = some (.ok scope))
    (houtputs : renderPieces scope (VarRegex.pieces template.body) = (substituted, none)) :
    renderTemplate ren ctx .none (fuel + 1) orders template
        = some (finishBody .none (String.ofList substituted))
      ↔ ∀ brace ∈ braces, ¬ OddRun brace substituted := by
  have hbody : renderVariables template.body scope
      = .ok (unescapeVariableInections (String.ofList substituted)) := by
    unfold renderVariables
    rw [houtputs]
  rw [renderTemplate_of_loop hmatch horder hloop hbody, ← unescape_twice_iff]
  show some (RenderResult.success (unescapeVariableInections (unescapeVariableInections _)))
    = some (.success (unescapeVariableInections _)) ↔ _
  rw [Option.some.injEq, RenderResult.success.injEq]

/-- Whether the escapes of a body are literal, without unescaping it. -/
theorem literalEscapes_iff [UnicodeTables] {outputs : String → String} {body : String} :
    LiteralEscapes outputs body
      ↔ (∀ w ∈ Windows.taken 4 spellsEscape 0 (sourced outputs body), inLiteral w = true)
        ∧ ∀ brace ∈ braces, ¬ OddRun brace ((sourced outputs body).map (·.1)) := by
  rw [← nothingLeft_iff]
  exact ⟨fun h => ⟨h.inside, h.nothingLeft⟩, fun h => ⟨h.1, h.2⟩⟩

end Shinran
