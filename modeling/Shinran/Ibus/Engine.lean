/-
  Shinran.Ibus.Engine
  ───────────────────
  **THE EDIT BUFFER OF THE IBUS ENGINE** (`shinran_ibus::engine`).

  The engine receives key events and keeps the text typed so far, with a
  cursor.  The text is UTF-8, and the cursor is used as an offset into it.

  A key event is handled by changing the engine and then by sending signals,
  the first of which that fails ends the handler; no signal changes the
  engine.  `Effect` lists what is sent, in order.  Arithmetic wraps around.
-/
import Shinran.Offsets

namespace Shinran

/-! ## §1. Strings as bytes. -/

/-- What ends a handler at once. -/
inductive EnginePanic (ε : Type) where
  /-- `String::insert` or `String::remove` at an offset where no character starts. -/
  | notACharBoundary (offset : Nat)
  /-- `Ord::clamp` with bounds in the wrong order. -/
  | invalidClamp
  /-- `unwrap` of the error that the backend returned. -/
  | checkTrigger (error : ε)
  deriving DecidableEq

variable {ε : Type}

/-- `String::len`. -/
def byteLength (text : String) : Nat := Offsets.total Char.utf8Size text.toList

/-- `String::insert`. -/
def insertChar (text : String) (offset : Nat) (character : Char) :
    Except (EnginePanic ε) String :=
  match Offsets.insertAt Char.utf8Size text.toList offset character with
  | some chars => .ok (String.ofList chars)
  | none => .error (.notACharBoundary offset)

/-- `String::remove`. -/
def removeChar (text : String) (offset : Nat) : Except (EnginePanic ε) String :=
  match Offsets.removeAt Char.utf8Size text.toList offset with
  | some chars => .ok (String.ofList chars)
  | none => .error (.notACharBoundary offset)

/-! ## §2. Keys. -/

structure KeyEvent where
  keyval : UInt32
  keycode : UInt32 := 0
  state : UInt32 := 0
  deriving DecidableEq, Repr

/-- `ibus_constants::RELEASE_MASK`. -/
def releaseMask : UInt32 := 0x40000000

def KeyEvent.isRelease (event : KeyEvent) : Bool := event.state &&& releaseMask ≠ 0

/-- The keysyms on which the engine acts, and all others. -/
inductive Keysym where
  | return_
  | escape
  | backSpace
  | delete
  | left
  | right
  | other
  deriving DecidableEq, Repr

/-- `Keysym::new`, as far as the engine tells keysyms apart. -/
def Keysym.new (keyval : UInt32) : Keysym :=
  if keyval = 0xff0d ∨ keyval = 0xff8d then .return_ -- `Return`, `KP_Enter`
  else if keyval = 0xff1b then .escape
  else if keyval = 0xff08 then .backSpace
  else if keyval = 0xffff ∨ keyval = 0xff9f then .delete -- `Delete`, `KP_Delete`
  else if keyval = 0xff51 ∨ keyval = 0xff96 then .left -- `Left`, `KP_Left`
  else if keyval = 0xff53 ∨ keyval = 0xff98 then .right -- `Right`, `KP_Right`
  else .other

/-- The characters that are inserted: graphic ASCII, and the upper half of Latin-1. -/
def isInserted (character : Char) : Bool :=
  (0x21 ≤ character.toNat && character.toNat ≤ 0x7e)
    || (0xa0 ≤ character.toNat && character.toNat ≤ 0xff)

/-! ## §3. The engine. -/

structure ShinranEngine where
  text : String := ""
  cursorPos : UInt32 := 0
  newKeyPressed : Bool := false
  deriving DecidableEq, Repr

/-- What the engine asks of the backend. -/
structure Backend (ε : Type) where
  checkTrigger : String → Except ε (Option String)
  fuzzyMatch : String → List (String × UInt16)

inductive Effect where
  | forwardKeyEvent (event : KeyEvent)
  | updatePreeditText (text : String) (underlined cursorPos : UInt32) (visible : Bool)
  | updateLookupTable (candidates : List String) (visible : Bool)
  | commitText (text : String)
  | exit
  deriving DecidableEq, Repr

/-- What a handler leaves behind. -/
structure Handled where
  engine : ShinranEngine
  effects : List Effect := []
  deriving DecidableEq, Repr

namespace ShinranEngine

/-- `text_length`. -/
def textLength (text : String) : UInt32 := .ofNat text.toList.length

/-- `update_text`. -/
def updateText (engine : ShinranEngine) (backend : Backend ε) : List Effect :=
  let candidates := backend.fuzzyMatch engine.text
  .updatePreeditText engine.text (textLength engine.text) engine.cursorPos
      (engine.text ≠ "")
    :: if candidates.isEmpty then []
      else [.updateLookupTable ((candidates.take 5).map (·.1)) true]

/-- `clear_text`, up to the update. -/
def cleared (engine : ShinranEngine) : ShinranEngine :=
  { engine with text := "", cursorPos := 0 }

/-- `move_cursor`. -/
def moveCursor (engine : ShinranEngine) (offset : Int32) :
    Except (EnginePanic ε) ShinranEngine :=
  let textLen := Int32.ofNat (byteLength engine.text)
  let pos := engine.cursorPos.toInt32 + offset
  if textLen < 0 then .error .invalidClamp
  else
    let clamped := if pos < 0 then 0 else if textLen < pos then textLen else pos
    .ok { engine with cursorPos := clamped.toUInt32 }

/-- The branch of `process_key_event` for a character. -/
def insertCharacter (engine : ShinranEngine) (character : Char) :
    Except (EnginePanic ε) ShinranEngine := do
  let pos := engine.cursorPos.toNat
  let text ←
    if pos < byteLength engine.text then insertChar engine.text pos character
    else .ok (engine.text.push character)
  .ok { engine with text := text, cursorPos := engine.cursorPos + 1 }

/-- `process_key_event`, which always returns `Ok(true)`; `keyChar` is `Keysym::key_char`. -/
def processKeyEvent (keyChar : UInt32 → Option Char) (backend : Backend ε)
    (engine : ShinranEngine) (event : KeyEvent) : Except (EnginePanic ε) Handled :=
  if event.isRelease then
    -- releases of keys that were pressed before the first press are passed along
    .ok ⟨engine, if engine.newKeyPressed then [] else [.forwardKeyEvent event]⟩
  else
    let engine := { engine with newKeyPressed := true }
    match Keysym.new event.keyval with
    | .return_ =>
        if engine.text ≠ "" then
          match backend.checkTrigger engine.text with
          | .error err => .error (.checkTrigger err)
          | .ok output => .ok ⟨engine.cleared, engine.cleared.updateText backend
              ++ (output.map Effect.commitText).toList ++ [.exit]⟩
        else .ok ⟨engine, [.exit]⟩
    | .escape => .ok ⟨engine.cleared, engine.cleared.updateText backend ++ [.exit]⟩
    | .backSpace =>
        if 0 < engine.cursorPos then do
          let text ← removeChar engine.text (engine.cursorPos.toNat - 1)
          let engine := { engine with text := text, cursorPos := engine.cursorPos - 1 }
          .ok ⟨engine, engine.updateText backend⟩
        else .ok ⟨engine, []⟩
    | .delete =>
        let pos := engine.cursorPos.toNat
        if pos < byteLength engine.text then do
          let text ← removeChar engine.text pos
          let engine := { engine with text := text }
          .ok ⟨engine, engine.updateText backend⟩
        else .ok ⟨engine, []⟩
    | .left => do
        let engine ← engine.moveCursor (-1)
        .ok ⟨engine, engine.updateText backend⟩
    | .right => do
        let engine ← engine.moveCursor 1
        .ok ⟨engine, engine.updateText backend⟩
    | .other =>
        match keyChar event.keyval with
        | none => .ok ⟨engine, []⟩
        | some character =>
            if isInserted character then do
              let engine ← engine.insertCharacter character
              .ok ⟨engine, engine.updateText backend⟩
            else .ok ⟨engine, []⟩

/-- Handling events one after another. -/
def run (keyChar : UInt32 → Option Char) (backend : Backend ε) :
    ShinranEngine → List KeyEvent → Except (EnginePanic ε) ShinranEngine
  | engine, [] => .ok engine
  | engine, event :: events =>
      match engine.processKeyEvent keyChar backend event with
      | .error panic => .error panic
      | .ok handled => run keyChar backend handled.engine events

end ShinranEngine

end Shinran
