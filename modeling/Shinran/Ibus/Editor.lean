/-
  Shinran.Ibus.Editor
  ───────────────────
  **THE ENGINE AS A CHARACTER EDITOR.**

  `Editor` is what the edit buffer is for: a list of characters with a cursor
  between two of them.  The engine counts its cursor in characters and uses it
  as an offset into bytes, which is the same as long as the characters in front
  of the offset take one byte each (`Aligned`).

    • `processKeyEvent_refines` — an aligned step does what the editor does,
    • `run_refines`             — so does a run whose steps are all aligned,
    • `wideText_panics`         — a run of two keys that is not aligned.
-/
import Mathlib.Algebra.Order.Ring.Int
import Shinran.Ibus.Engine

namespace Shinran

open Offsets

/-! ## §1. The editor. -/

/-- A text with a cursor, which is never behind its end. -/
structure Editor where
  text : List Char := []
  cursor : Nat := 0
  cursor_le : cursor ≤ text.length := by simp

/-- What a key does to the text. -/
inductive EditKey where
  | insert (character : Char)
  | backSpace
  | delete
  | left
  | right
  | nothing
  deriving DecidableEq, Repr

namespace Editor

/-- The text in front of the cursor, and behind it. -/
def before (editor : Editor) : List Char := editor.text.take editor.cursor

def after (editor : Editor) : List Char := editor.text.drop editor.cursor

/-- Insert at the cursor, and step behind what is inserted. -/
def insert (editor : Editor) (character : Char) : Editor where
  text := editor.before ++ character :: editor.after
  cursor := editor.cursor + 1
  cursor_le := by
    have := editor.cursor_le
    simp only [before, after, List.length_append, List.length_take, List.length_cons,
      List.length_drop]
    omega

/-- Remove the character in front of the cursor, if there is one. -/
def backSpace (editor : Editor) : Editor where
  text := editor.text.take (editor.cursor - 1) ++ editor.after
  cursor := editor.cursor - 1
  cursor_le := by
    have := editor.cursor_le
    simp only [after, List.length_append, List.length_take, List.length_drop]
    omega

/-- Remove the character behind the cursor, if there is one. -/
def delete (editor : Editor) : Editor where
  text := editor.before ++ editor.text.drop (editor.cursor + 1)
  cursor := editor.cursor
  cursor_le := by
    have := editor.cursor_le
    simp only [before, List.length_append, List.length_take, List.length_drop]
    omega

def left (editor : Editor) : Editor where
  text := editor.text
  cursor := editor.cursor - 1
  cursor_le := by
    have := editor.cursor_le
    omega

def right (editor : Editor) : Editor where
  text := editor.text
  cursor := min (editor.cursor + 1) editor.text.length
  cursor_le := Nat.min_le_right _ _

def apply (editor : Editor) : EditKey → Editor
  | .insert character => editor.insert character
  | .backSpace => editor.backSpace
  | .delete => editor.delete
  | .left => editor.left
  | .right => editor.right
  | .nothing => editor

/-- One key after another. -/
def run (editor : Editor) (keys : List EditKey) : Editor := keys.foldl apply editor

theorem text_eq (editor : Editor) : editor.text = editor.before ++ editor.after :=
  (List.take_append_drop _ _).symm

end Editor

/-! ## §2. Keys that edit. -/

/-- The press of a key other than Return and Escape. -/
def KeyEvent.IsEdit (event : KeyEvent) : Prop :=
  event.isRelease = false ∧ Keysym.new event.keyval ≠ .return_
    ∧ Keysym.new event.keyval ≠ .escape

instance (event : KeyEvent) : Decidable event.IsEdit :=
  inferInstanceAs (Decidable (_ ∧ _ ∧ _))

/-- What the key is for. -/
def KeyEvent.editKey (keyChar : UInt32 → Option Char) (event : KeyEvent) : EditKey :=
  match Keysym.new event.keyval with
  | .backSpace => .backSpace
  | .delete => .delete
  | .left => .left
  | .right => .right
  | .return_ | .escape => .nothing
  | .other =>
      match keyChar event.keyval with
      | none => .nothing
      | some character => if isInserted character then .insert character else .nothing

/-- The engine holds what the editor holds. -/
structure Refines (engine : ShinranEngine) (editor : Editor) : Prop where
  text : engine.text.toList = editor.text
  cursor : engine.cursorPos.toNat = editor.cursor

/-- The first `n` characters take one byte each. -/
def Narrow (text : String) (n : Nat) : Prop := ∀ c ∈ text.toList.take n, c.utf8Size = 1

instance (text : String) (n : Nat) : Decidable (Narrow text n) :=
  List.decidableBAll (fun c : Char => c.utf8Size = 1) (text.toList.take n)

/-- The cursor of the engine, counted in characters, is the offset that the key needs: the
characters in front of the one that is inserted or removed take one byte each, and so do all
characters if the cursor is at their end and moves right.  A text in which the cursor moves
has less than 2^31 bytes. -/
def Aligned (engine : ShinranEngine) : EditKey → Prop
  | .insert _ => Narrow engine.text engine.cursorPos.toNat
      ∧ engine.cursorPos.toNat + 1 < 2 ^ 32
  | .backSpace => Narrow engine.text (engine.cursorPos.toNat - 1)
  | .delete => Narrow engine.text engine.cursorPos.toNat
  | .left => byteLength engine.text < 2 ^ 31
  | .right => byteLength engine.text < 2 ^ 31
      ∧ (engine.cursorPos.toNat < engine.text.toList.length
        ∨ Narrow engine.text engine.cursorPos.toNat ∧ engine.cursorPos.toNat + 1 < 2 ^ 31)
  | .nothing => True

instance (engine : ShinranEngine) : (key : EditKey) → Decidable (Aligned engine key)
  | .insert _ => inferInstanceAs (Decidable (_ ∧ _))
  | .backSpace => inferInstanceAs (Decidable (Narrow _ _))
  | .delete => inferInstanceAs (Decidable (Narrow _ _))
  | .left => inferInstanceAs (Decidable (_ < _))
  | .right => inferInstanceAs (Decidable (_ ∧ (_ ∨ _ ∧ _)))
  | .nothing => inferInstanceAs (Decidable True)

/-! ## §3. Offsets of the cursor. -/

/-- In front of narrow characters, positions are offsets. -/
theorem Narrow.total_take {text : String} {n : Nat} (h : Narrow text n)
    (hn : n ≤ text.toList.length) : total Char.utf8Size (text.toList.take n) = n := by
  rw [(total_eq_length_iff Char.utf8Size_pos _).mpr h, List.length_take, Nat.min_eq_left hn]

theorem byteLength_eq (text : String) (n : Nat) :
    byteLength text = total Char.utf8Size (text.toList.take n)
      + total Char.utf8Size (text.toList.drop n) := by
  rw [byteLength, ← total_append, List.take_append_drop]

theorem length_le_byteLength (text : String) : text.toList.length ≤ byteLength text :=
  length_le_total Char.utf8Size_pos _

/-- Behind narrow characters only, the end of the text is at its length. -/
theorem Narrow.lt_length {text : String} {n : Nat} (h : Narrow text n)
    (hn : n ≤ text.toList.length) (hlt : n < byteLength text) : n < text.toList.length := by
  by_cases hend : n < text.toList.length
  · exact hend
  · have hbytes := byteLength_eq text n
    rw [h.total_take hn, List.drop_eq_nil_of_le (Nat.le_of_not_lt hend), total_nil] at hbytes
    omega

/-- Removing the character at a position behind narrow ones. -/
theorem removeChar_eq {ε : Type} {text : String} {n : Nat} (h : Narrow text n)
    (hn : n < text.toList.length) :
    removeChar (ε := ε) text n
      = .ok (String.ofList (text.toList.take n ++ text.toList.drop (n + 1))) := by
  have hremove := removeAt_eq Char.utf8Size_pos (text.toList.take n)
    (text.toList.drop (n + 1)) (text.toList[n])
  -- the position is the offset of the character that starts there
  rw [h.total_take (Nat.le_of_lt hn), List.getElem_cons_drop, List.take_append_drop] at hremove
  simp [removeChar, hremove]

section Step

variable {ε : Type} {engine : ShinranEngine} {editor : Editor}

theorem Refines.cursor_le (h : Refines engine editor) :
    engine.cursorPos.toNat ≤ engine.text.toList.length := by
  rw [h.cursor, h.text]
  exact editor.cursor_le

theorem insertCharacter_refines (h : Refines engine editor) {character : Char}
    (haligned : Aligned engine (.insert character)) :
    ∃ engine', engine.insertCharacter (ε := ε) character = .ok engine'
      ∧ Refines engine' (editor.insert character) := by
  obtain ⟨hnarrow, hbound⟩ := haligned
  have htotal := hnarrow.total_take h.cursor_le
  have hlength := byteLength_eq engine.text engine.cursorPos.toNat
  have hbefore : engine.text.toList.take engine.cursorPos.toNat = editor.before := by
    rw [h.text, h.cursor, Editor.before]
  have hafter : engine.text.toList.drop engine.cursorPos.toNat = editor.after := by
    rw [h.text, h.cursor, Editor.after]
  have hcursor : (engine.cursorPos + 1).toNat = editor.cursor + 1 := by
    rw [UInt32.toNat_add, h.cursor]
    rw [h.cursor] at hbound
    simp only [UInt32.reduceToNat]
    omega
  unfold ShinranEngine.insertCharacter
  -- `String::insert` inside of the text, `String::push` at its end
  by_cases hpos : engine.cursorPos.toNat < byteLength engine.text
  · have hinsert := insertAt_eq Char.utf8Size_pos
      (engine.text.toList.take engine.cursorPos.toNat)
      (engine.text.toList.drop engine.cursorPos.toNat) character
    rw [htotal, List.take_append_drop] at hinsert
    refine ⟨_, by simp only [hpos, if_true, insertChar, hinsert, bind, Except.bind]; rfl, ?_,
      hcursor⟩
    show (String.ofList _).toList = _
    rw [String.toList_ofList, hbefore, hafter]
    rfl
  · -- the offset is the end of the text, so nothing is behind the cursor
    have hnil : engine.text.toList.drop engine.cursorPos.toNat = [] := by
      have hle := length_le_total Char.utf8Size_pos
        (engine.text.toList.drop engine.cursorPos.toNat)
      rw [← List.length_eq_zero_iff]
      omega
    refine ⟨_, by simp only [hpos, if_false, bind, Except.bind]; rfl, ?_, hcursor⟩
    show (engine.text.push character).toList = editor.before ++ character :: editor.after
    rw [String.toList_push, ← hafter, hnil, h.text, editor.text_eq, ← hafter, hnil]
    simp

/-- Moving the cursor clamps at the ends of the text, as long as nothing overflows. -/
theorem moveCursor_eq {offset : Int32} (hlength : byteLength engine.text < 2 ^ 31)
    (hcursor : engine.cursorPos.toNat < 2 ^ 31)
    (hlower : -2 ^ 31 ≤ engine.cursorPos.toNat + offset.toInt)
    (hupper : engine.cursorPos.toNat + offset.toInt < 2 ^ 31) :
    ∃ cursorPos, engine.moveCursor (ε := ε) offset = .ok { engine with cursorPos := cursorPos }
      ∧ (cursorPos.toNat : Int)
        = max 0 (min (engine.cursorPos.toNat + offset.toInt) (byteLength engine.text)) := by
  have hlen : (Int32.ofNat (byteLength engine.text)).toInt = byteLength engine.text :=
    Int32.toInt_ofNat_of_lt hlength
  -- no step of the arithmetic wraps around
  have hpos : (engine.cursorPos.toInt32 + offset).toInt
      = engine.cursorPos.toNat + offset.toInt := by
    have hcast : engine.cursorPos.toInt32.toInt = engine.cursorPos.toNat := by
      rw [← UInt32.ofNat_toNat (x := engine.cursorPos), UInt32.toInt32_ofNat',
        Int32.toInt_ofNat_of_lt hcursor, UInt32.ofNat_toNat]
    rw [Int32.toInt_add, hcast]
    exact Int.bmod_eq_of_le (by omega) (by omega)
  have hnat : ∀ x : Int32, 0 ≤ x.toInt → (x.toUInt32.toNat : Int) = x.toInt := by
    intro x hx
    rw [Int32.toNat_toUInt32_of_le (Int32.le_iff_toInt_le.mpr (by simpa using hx)),
      Int32.toNatClampNeg, Int.toNat_of_nonneg hx]
  have hzero : (0 : Int32).toInt = 0 := by decide
  unfold ShinranEngine.moveCursor
  dsimp only
  rw [if_neg (by rw [Int32.lt_iff_toInt_lt, hlen, hzero]; omega)]
  refine ⟨_, rfl, ?_⟩
  -- the three branches of `clamp`
  simp only [Int32.lt_iff_toInt_lt, hlen, hpos, hzero]
  split
  · rw [hnat _ (Int.le_of_eq hzero.symm), hzero]
    omega
  · split
    · rw [hnat _ (by rw [hlen]; omega), hlen]
      omega
    · rw [hnat _ (by rw [hpos]; omega), hpos]
      omega

theorem moveLeft_refines (h : Refines engine editor) (haligned : Aligned engine .left) :
    ∃ engine', engine.moveCursor (ε := ε) (-1) = .ok engine' ∧ Refines engine' editor.left := by
  have hlength : byteLength engine.text < 2 ^ 31 := haligned
  have hle := length_le_byteLength engine.text
  have hcursor := h.cursor_le
  have hminus : (-1 : Int32).toInt = -1 := by decide
  obtain ⟨cursorPos, hmove, hpos⟩ := @moveCursor_eq ε engine (-1)
    hlength (by omega) (by omega) (by omega)
  refine ⟨_, hmove, h.text, ?_⟩
  show cursorPos.toNat = editor.cursor - 1
  rw [hminus, h.cursor] at hpos
  rw [h.cursor] at hcursor
  omega

theorem moveRight_refines (h : Refines engine editor) (haligned : Aligned engine .right) :
    ∃ engine', engine.moveCursor (ε := ε) 1 = .ok engine' ∧ Refines engine' editor.right := by
  obtain ⟨hlength, hend⟩ := haligned
  have hle := length_le_byteLength engine.text
  have hcursor := h.cursor_le
  have hone : (1 : Int32).toInt = 1 := by decide
  have hbound : engine.cursorPos.toNat + 1 < 2 ^ 31 := by
    cases hend with
    | inl hlt => omega
    | inr hend => exact hend.2
  obtain ⟨cursorPos, hmove, hpos⟩ := @moveCursor_eq ε engine 1
    hlength (by omega) (by omega) (by omega)
  refine ⟨_, hmove, h.text, ?_⟩
  show cursorPos.toNat = min (editor.cursor + 1) editor.text.length
  rw [hone] at hpos
  rw [← h.cursor, ← h.text]
  -- a clamp by bytes is one by characters, if no character in front is wide
  cases hend with
  | inl hlt => omega
  | inr hend =>
      have hbytes := fun hlt => hend.1.lt_length hcursor hlt
      omega

theorem backSpace_refines (h : Refines engine editor)
    (haligned : Aligned engine .backSpace) (hpos : 0 < engine.cursorPos) :
    ∃ text, removeChar (ε := ε) engine.text (engine.cursorPos.toNat - 1) = .ok text
      ∧ Refines { engine with text := text, cursorPos := engine.cursorPos - 1 }
        editor.backSpace := by
  have hcursor := h.cursor_le
  have hpos' : 0 < engine.cursorPos.toNat := UInt32.lt_iff_toNat_lt.mp hpos
  have hone : (1 : UInt32) ≤ engine.cursorPos := UInt32.le_iff_toNat_le.mpr hpos'
  refine ⟨_, removeChar_eq haligned (by omega), ?_, ?_⟩
  · show (String.ofList _).toList = _
    rw [String.toList_ofList, Nat.sub_add_cancel hpos', h.text, h.cursor]
    rfl
  · show (engine.cursorPos - 1).toNat = editor.cursor - 1
    rw [UInt32.toNat_sub_of_le _ _ hone, h.cursor]
    rfl

theorem delete_refines (h : Refines engine editor) (haligned : Aligned engine .delete)
    (hpos : engine.cursorPos.toNat < engine.text.toList.length) :
    ∃ text, removeChar (ε := ε) engine.text engine.cursorPos.toNat = .ok text
      ∧ Refines { engine with text := text } editor.delete := by
  refine ⟨_, removeChar_eq haligned hpos, ?_, h.cursor⟩
  show (String.ofList _).toList = _
  rw [String.toList_ofList, h.text, h.cursor]
  rfl

/-- A key that finds nothing to remove leaves the editor as it is. -/
theorem Refines.backSpace_of_zero (h : Refines engine editor) (hpos : ¬ 0 < engine.cursorPos) :
    Refines engine editor.backSpace := by
  have hzero : engine.cursorPos.toNat = 0 := by
    have hnot : ¬ 0 < engine.cursorPos.toNat := fun hlt =>
      hpos (UInt32.lt_iff_toNat_lt.mpr hlt)
    omega
  have hcursor : editor.cursor = 0 := h.cursor ▸ hzero
  constructor
  · rw [h.text]
    simp [Editor.backSpace, Editor.after, hcursor]
  · rw [h.cursor]
    simp [Editor.backSpace, hcursor]

theorem Refines.delete_of_end (h : Refines engine editor)
    (hpos : engine.text.toList.length ≤ engine.cursorPos.toNat) :
    Refines engine editor.delete := by
  rw [h.text, h.cursor] at hpos
  constructor
  · rw [h.text]
    simp [Editor.delete, Editor.before, List.take_of_length_le hpos,
      List.drop_eq_nil_of_le (Nat.le_succ_of_le hpos)]
  · exact h.cursor

/-- **A step refines the editor**: an aligned key is handled without a panic, and does what
the editor does. -/
theorem processKeyEvent_refines (keyChar : UInt32 → Option Char) (backend : Backend ε)
    (h : Refines engine editor) {event : KeyEvent} (hedit : event.IsEdit)
    (haligned : Aligned engine (event.editKey keyChar)) :
    ∃ handled, engine.processKeyEvent keyChar backend event = .ok handled
      ∧ Refines handled.engine (editor.apply (event.editKey keyChar)) := by
  obtain ⟨hpress, hreturn, hescape⟩ := hedit
  -- noting that a key has been pressed changes neither the text nor the cursor
  have h' : Refines { engine with newKeyPressed := true } editor := ⟨h.text, h.cursor⟩
  unfold ShinranEngine.processKeyEvent
  rw [hpress, if_neg Bool.false_ne_true]
  unfold KeyEvent.editKey at haligned ⊢
  -- one case for each kind of key; Return and Escape are no edits
  cases hkey : Keysym.new event.keyval with
  | return_ => exact absurd hkey hreturn
  | escape => exact absurd hkey hescape
  | backSpace =>
      simp only [hkey] at haligned ⊢
      by_cases hpos : 0 < engine.cursorPos
      · obtain ⟨text, hremove, hrefines⟩ := backSpace_refines (ε := ε) h' haligned hpos
        rw [if_pos hpos, hremove]
        exact ⟨_, rfl, hrefines⟩
      · rw [if_neg hpos]
        exact ⟨_, rfl, h'.backSpace_of_zero hpos⟩
  | delete =>
      simp only [hkey] at haligned ⊢
      have hle := length_le_byteLength engine.text
      by_cases hpos : engine.cursorPos.toNat < byteLength engine.text
      · have hlt : engine.cursorPos.toNat < engine.text.toList.length :=
          haligned.lt_length h.cursor_le hpos
        obtain ⟨text, hremove, hrefines⟩ := delete_refines (ε := ε) h' haligned hlt
        rw [if_pos hpos, hremove]
        exact ⟨_, rfl, hrefines⟩
      · rw [if_neg hpos]
        exact ⟨_, rfl, h'.delete_of_end (Nat.le_trans hle (Nat.le_of_not_lt hpos))⟩
  | left =>
      simp only [hkey] at haligned ⊢
      obtain ⟨engine', hmove, hrefines⟩ := moveLeft_refines (ε := ε) h' haligned
      rw [hmove]
      exact ⟨_, rfl, hrefines⟩
  | right =>
      simp only [hkey] at haligned ⊢
      obtain ⟨engine', hmove, hrefines⟩ := moveRight_refines (ε := ε) h' haligned
      rw [hmove]
      exact ⟨_, rfl, hrefines⟩
  | other =>
      simp only [hkey] at haligned ⊢
      cases hchar : keyChar event.keyval with
      | none => exact ⟨_, rfl, h'⟩
      | some character =>
          simp only [hchar] at haligned ⊢
          by_cases hinserted : isInserted character
          · rw [if_pos hinserted] at haligned ⊢
            obtain ⟨engine', hinsert, hrefines⟩ := insertCharacter_refines (ε := ε) h' haligned
            rw [if_pos hinserted, hinsert]
            exact ⟨_, rfl, hrefines⟩
          · rw [if_neg hinserted, if_neg hinserted]
            exact ⟨_, rfl, h'⟩

end Step

/-! ## §4. Runs. -/

section Run

variable {ε : Type} (keyChar : UInt32 → Option Char) (backend : Backend ε)

/-- Every key finds the cursor of the engine where the key needs it. -/
def AlignedRun : ShinranEngine → List KeyEvent → Prop
  | _, [] => True
  | engine, event :: events => Aligned engine (event.editKey keyChar)
      ∧ ∀ handled ∈ (engine.processKeyEvent keyChar backend event).toOption,
          AlignedRun handled.engine events

instance decidableAlignedRun : (engine : ShinranEngine) → (events : List KeyEvent) →
    Decidable (AlignedRun keyChar backend engine events)
  | _, [] => inferInstanceAs (Decidable True)
  | engine, event :: events =>
      have (handled : Handled) : Decidable (AlignedRun keyChar backend handled.engine events) :=
        decidableAlignedRun handled.engine events
      inferInstanceAs (Decidable (Aligned engine (event.editKey keyChar)
        ∧ ∀ handled ∈ (engine.processKeyEvent keyChar backend event).toOption,
            AlignedRun keyChar backend handled.engine events))

/-- What the keys do to the text, one after another. -/
def editKeys (events : List KeyEvent) : List EditKey := events.map (·.editKey keyChar)

variable {keyChar backend}

/-- The keys of an aligned run are handled as the editor handles them, up to any key. -/
theorem AlignedRun.refines {engine : ShinranEngine} {editor : Editor} {events pre : List KeyEvent}
    (h : Refines engine editor) (hedit : ∀ event ∈ events, event.IsEdit)
    (haligned : AlignedRun keyChar backend engine events) (hpre : pre <+: events) :
    ∃ engine', engine.run keyChar backend pre = .ok engine'
      ∧ Refines engine' (editor.run (editKeys keyChar pre)) := by
  -- key by key, from the states that the engine and the editor have got to
  induction pre generalizing engine editor events with
  | nil => exact ⟨engine, rfl, h⟩
  | cons event pre ih =>
      obtain ⟨rest, rfl⟩ := hpre
      obtain ⟨hstep, hrest⟩ := haligned
      obtain ⟨handled, hhandled, hrefines⟩ :=
        processKeyEvent_refines keyChar backend h (hedit _ List.mem_cons_self) hstep
      rw [hhandled] at hrest
      unfold ShinranEngine.run
      rw [hhandled]
      exact ih hrefines (fun event hmem => hedit event (List.mem_cons_of_mem _ hmem))
        (hrest handled rfl) (List.prefix_append pre rest)

/-- What all characters of the text have, they keep under a key whose character has it. -/
theorem Editor.forall_mem_apply {P : Char → Prop} {editor : Editor} {key : EditKey}
    (htext : ∀ c ∈ editor.text, P c) (hkey : ∀ c, key = .insert c → P c) :
    ∀ c ∈ (editor.apply key).text, P c := by
  intro c hc
  cases key with
  | insert character =>
      cases List.mem_append.mp hc with
      | inl hbefore => exact htext c (List.mem_of_mem_take hbefore)
      | inr hafter =>
          cases List.mem_cons.mp hafter with
          | inl heq => exact hkey c (heq ▸ rfl)
          | inr hafter => exact htext c (List.mem_of_mem_drop hafter)
  | backSpace =>
      cases List.mem_append.mp hc with
      | inl hbefore => exact htext c (List.mem_of_mem_take hbefore)
      | inr hafter => exact htext c (List.mem_of_mem_drop hafter)
  | delete =>
      cases List.mem_append.mp hc with
      | inl hbefore => exact htext c (List.mem_of_mem_take hbefore)
      | inr hafter => exact htext c (List.mem_of_mem_drop hafter)
  | left => exact htext c hc
  | right => exact htext c hc
  | nothing => exact htext c hc

theorem Editor.length_apply_le (editor : Editor) (key : EditKey) :
    (editor.apply key).text.length ≤ editor.text.length + 1 := by
  have hcursor := editor.cursor_le
  cases key <;>
    simp only [apply, insert, backSpace, delete, left, right, before, after, List.length_append,
      List.length_take, List.length_drop, List.length_cons] <;> omega

/-- In a short text of narrow characters, every key is aligned. -/
theorem Refines.aligned {engine : ShinranEngine} {editor : Editor} (h : Refines engine editor)
    (hnarrow : ∀ c ∈ editor.text, c.utf8Size = 1) (hlength : editor.text.length + 1 < 2 ^ 31)
    (key : EditKey) : Aligned engine key := by
  have hcursor := h.cursor_le
  have htake : ∀ n, Narrow engine.text n := fun n c hc =>
    hnarrow c (h.text ▸ List.mem_of_mem_take hc)
  have hbytes : byteLength engine.text = editor.text.length := by
    rw [byteLength, h.text]
    exact (total_eq_length_iff Char.utf8Size_pos _).mpr hnarrow
  rw [h.text] at hcursor
  cases key with
  | insert character => exact ⟨htake _, by omega⟩
  | backSpace => exact htake _
  | delete => exact htake _
  | left =>
      show byteLength engine.text < 2 ^ 31
      omega
  | right => exact ⟨by omega, .inr ⟨htake _, by omega⟩⟩
  | nothing => trivial

/-- **Keys for one-byte characters are aligned**, as long as there are not too many of them. -/
theorem alignedRun_of_narrow {engine : ShinranEngine} {editor : Editor} {events : List KeyEvent}
    (h : Refines engine editor) (hedit : ∀ event ∈ events, event.IsEdit)
    (hnarrow : ∀ c ∈ editor.text, c.utf8Size = 1)
    (hkeys : ∀ c, .insert c ∈ editKeys keyChar events → c.utf8Size = 1)
    (hlength : editor.text.length + events.length < 2 ^ 31) :
    AlignedRun keyChar backend engine events := by
  induction events generalizing engine editor with
  | nil => trivial
  | cons event events ih =>
      rw [List.length_cons] at hlength
      have hstep := h.aligned hnarrow (by omega) (event.editKey keyChar)
      refine ⟨hstep, ?_⟩
      intro handled hhandled
      obtain ⟨handled', hhandled', hrefines⟩ :=
        processKeyEvent_refines keyChar backend h (hedit _ List.mem_cons_self) hstep
      rw [hhandled'] at hhandled
      cases hhandled
      -- one key adds one character at most, and it is narrow
      have hle := editor.length_apply_le (event.editKey keyChar)
      refine ih hrefines (fun event hmem => hedit event (List.mem_cons_of_mem _ hmem))
        (Editor.forall_mem_apply hnarrow ?_) ?_ (by omega)
      · intro c hc
        exact hkeys c (List.mem_cons.mpr (.inl hc.symm))
      · intro c hc
        exact hkeys c (List.mem_cons_of_mem _ hc)

/-- **The engine refines the editor**: in every run of keys in which each finds the cursor
where it needs it, no key panics, and after each key the text and the cursor are those of the
editor, with the cursor not behind the last character. -/
theorem run_refines {events pre : List KeyEvent} (hedit : ∀ event ∈ events, event.IsEdit)
    (haligned : AlignedRun keyChar backend {} events) (hpre : pre <+: events) :
    ∃ engine, ShinranEngine.run keyChar backend {} pre = .ok engine
      ∧ engine.text.toList = (Editor.run {} (editKeys keyChar pre)).text
      ∧ engine.cursorPos.toNat = (Editor.run {} (editKeys keyChar pre)).cursor
      ∧ engine.cursorPos.toNat ≤ engine.text.toList.length := by
  have hfresh : Refines {} {} := ⟨rfl, rfl⟩
  obtain ⟨engine, hrun, hrefines⟩ := haligned.refines hfresh hedit hpre
  exact ⟨engine, hrun, hrefines.text, hrefines.cursor, hrefines.cursor_le⟩

end Run

/-! ## §5. Two runs. -/

/-- The keysyms of Latin-1 are its characters. -/
def latin1Char (keyval : UInt32) : Option Char :=
  if keyval < 0x100 then some (Char.ofNat keyval.toNat) else none

/-- A backend without matches. -/
def noMatches : Backend Unit where
  checkTrigger _ := .ok none
  fuzzyMatch _ := []

/-- `a`, `b`, Left, `é`, BackSpace: the wide character is removed again in front of `b`. -/
def wideInside : List KeyEvent := [⟨0x61, 0, 0⟩, ⟨0x62, 0, 0⟩, ⟨0xff51, 0, 0⟩, ⟨0xe9, 0, 0⟩,
  ⟨0xff08, 0, 0⟩]

theorem run_refines_wideInside :
    ∃ engine, ShinranEngine.run latin1Char noMatches {} wideInside = .ok engine
      ∧ engine.text.toList = (Editor.run {} (editKeys latin1Char wideInside)).text
      ∧ engine.cursorPos.toNat = (Editor.run {} (editKeys latin1Char wideInside)).cursor
      ∧ engine.cursorPos.toNat ≤ engine.text.toList.length :=
  run_refines (by decide) (by decide) (List.prefix_refl wideInside)

/-- Behind `é` the cursor is one character on, but two bytes. -/
def wideText : List KeyEvent := [⟨0xe9, 0, 0⟩, ⟨0x61, 0, 0⟩]

/-- **A wide character in front of the cursor**: the second of two keys panics, where the
editor holds both characters. -/
theorem wideText_panics :
    (∀ event ∈ wideText, event.IsEdit)
      ∧ ShinranEngine.run latin1Char noMatches {} wideText = .error (.notACharBoundary 1)
      ∧ (Editor.run {} (editKeys latin1Char wideText)).text = ['é', 'a'] := by
  decide

end Shinran
