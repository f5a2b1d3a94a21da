/-
  Shinran.Wayland.Balance
  ───────────────────────
  **PRESSES AND RELEASES ARE BALANCED.**

  The release of a key has to go where its press went.  The context has a table
  of the keys whose presses it kept, and nothing else to tell them apart.

    • `Balanced`           — the table against what was pressed and forwarded,
    • `balanced_step`      — what keeps it right,
    • `release_forwarded_iff` — the virtual keyboard sees a release iff it saw
                                the press,
    • `repeat_leaves_key_down` — a press that is forwarded late.
-/
import Mathlib.Logic.Function.Basic
import Shinran.Wayland.Timers

namespace Shinran.Wayland

open Machine (Run latest latest_append latest_singleton)
open InputContext (scancodeOffset)

variable {κ σ ε : Type} {xkb : Xkb κ σ} {backend : Backend ε} {context context' : InputContext κ σ}
  {loopHandle : TokenMap Timer} {seatIndex : SeatIndex} {handled : Handled κ σ} {key : UInt32}

/-! ## §1. Slots. -/

section Slots

variable {α : Type} [DecidableEq α]

/-- The occurrences of an element when another one takes the place of a third. -/
theorem count_replace {as : List α} {a b : α} (h : a ∈ as) (c : α) :
    (as.replace a b).count c + (if c = a then 1 else 0)
      = as.count c + (if c = b then 1 else 0) := by
  induction as with
  | nil => cases h
  | cons d as ih =>
      by_cases hd : d = a
      · subst hd
        simp only [List.replace_cons_self, List.count_cons, beq_iff_eq, eq_comm (a := c)]
        omega
      · have hmem : a ∈ as := by
          rcases List.mem_cons.mp h with heq | hmem
          · exact absurd heq.symm hd
          · exact hmem
        have hne : (a == d) = false := by simpa using Ne.symm hd
        have hrest := ih hmem
        rw [List.replace_cons, hne]
        simp only [List.count_cons]
        omega

variable {as : List α} {a b c : α}

theorem mem_replace_iff (h : a ∈ as) (hb : c ≠ b) (hcount : as.count a ≤ 1) :
    c ∈ as.replace a b ↔ c ∈ as ∧ c ≠ a := by
  have hreplace := count_replace (b := b) h c
  rw [if_neg hb] at hreplace
  rw [← List.count_pos_iff, ← List.count_pos_iff]
  by_cases hc : c = a
  · subst hc
    rw [if_pos rfl] at hreplace
    constructor
    · intro hpos
      omega
    · rintro ⟨_, hne⟩
      exact absurd rfl hne
  · rw [if_neg hc] at hreplace
    constructor
    · intro hpos
      exact ⟨by omega, hc⟩
    · rintro ⟨hpos, _⟩
      omega

/-- Where an element is put in the place of another, the rest stays. -/
theorem mem_replace_or_iff (h : a ∈ as) (hc : c ≠ a) :
    c ∈ as.replace a b ↔ c ∈ as ∨ c = b := by
  have hreplace := count_replace (b := b) h c
  rw [if_neg hc] at hreplace
  rw [← List.count_pos_iff, ← List.count_pos_iff]
  by_cases heq : c = b
  · rw [if_pos heq] at hreplace
    exact iff_of_true (by omega) (Or.inr heq)
  · rw [if_neg heq] at hreplace
    rw [or_iff_left heq]
    omega

/-- An element that is put in once, and was not there before, is there once. -/
theorem count_replace_le_one (h : a ∈ as) (hc : c ≠ a) (hnew : b ∉ as)
    (hcount : as.count c ≤ 1) : (as.replace a b).count c ≤ 1 := by
  have hreplace := count_replace (b := b) h c
  rw [if_neg hc] at hreplace
  by_cases heq : c = b
  · have hzero : as.count c = 0 := by
      rw [List.count_eq_zero, heq]
      exact hnew
    rw [if_pos heq] at hreplace
    omega
  · rw [if_neg heq] at hreplace
    omega

end Slots

/-! ## §2. Histories. -/

/-- What an event does to a key of the seat. -/
def physicalState (seatIndex : SeatIndex) (key : UInt32) (event : Event) : Option KeyState :=
  event.key?.bind fun k => if k.1 = seatIndex ∧ k.2.1 = key then some k.2.2 else none

/-- What became of the keys of a seat last. -/
def physical (seatIndex : SeatIndex) (history : List Event) (key : UInt32) : Option KeyState :=
  latest (physicalState seatIndex key) history

/-- What the virtual keyboard of the seat was last told of its keys. -/
def forwarded (seatIndex : SeatIndex) (requests : List (SeatIndex × Request)) (key : UInt32) :
    Option KeyState :=
  latest (fun keyEvent : UInt32 × KeyState => if keyEvent.1 = key then some keyEvent.2 else none)
    (keyEvents (requestsOf seatIndex requests))

theorem physical_append_key {history : List Event} {event : Event} {keyState : KeyState}
    (h : event.key? = some (seatIndex, key, keyState)) :
    physical seatIndex (history ++ [event])
      = Function.update (physical seatIndex history) key (some keyState) := by
  funext key'
  rw [physical, latest_append, latest_singleton, physicalState, h]
  by_cases heq : key' = key
  · subst heq
    simp
  · simp [Function.update_of_ne heq, Ne.symm heq, physical]

theorem physical_append_other {history : List Event} {event : Event}
    (h : ∀ k ∈ event.key?, k.1 ≠ seatIndex) :
    physical seatIndex (history ++ [event]) = physical seatIndex history := by
  funext key
  have hnone : physicalState seatIndex key event = none := by
    unfold physicalState
    cases hk : event.key? with
    | none => rfl
    | some k => simp [h k hk]
  rw [physical, latest_append, latest_singleton, hnone]
  rfl

theorem forwarded_append_nil {requests more : List (SeatIndex × Request)}
    (h : keyEvents (requestsOf seatIndex more) = []) :
    forwarded seatIndex (requests ++ more) = forwarded seatIndex requests := by
  funext key
  rw [forwarded, requestsOf_append, keyEvents_append, h, List.append_nil]
  rfl

theorem forwarded_append_key {requests more : List (SeatIndex × Request)} {keyState : KeyState}
    (h : keyEvents (requestsOf seatIndex more) = [(key, keyState)]) :
    forwarded seatIndex (requests ++ more)
      = Function.update (forwarded seatIndex requests) key (some keyState) := by
  funext key'
  rw [forwarded, requestsOf_append, keyEvents_append, h, latest_append, latest_singleton]
  by_cases heq : key' = key
  · subst heq
    simp
  · simp [Function.update_of_ne heq, Ne.symm heq, forwarded]

/-! ## §3. The table of keys. -/

/-- **The invariant**: the keys of the table are held, and the virtual keyboard has seen the
presses of the other keys that are held, and of no others.  The key that is being repeated is in
the table. -/
structure Balanced (physical forwarded : UInt32 → Option KeyState)
    (context : InputContext κ σ) : Prop where
  forwarded_iff : ∀ key, forwarded key = some .pressed ↔
    physical key = some .pressed ∧ key + scancodeOffset ∉ context.pressed
  held : ∀ key, key + scancodeOffset ∈ context.pressed → key + scancodeOffset ≠ 0 →
    physical key = some .pressed
  code_ne : ∀ key, physical key = some .pressed → key + scancodeOffset ≠ 0
  once : ∀ keycode, keycode ≠ 0 → context.pressed.count keycode ≤ 1
  repeating : ∀ repeating, context.repeatTimer = some repeating →
    repeating.keycode ≠ 0 ∧ repeating.keycode ∈ context.pressed

/-- Pressing a key adds it to the keys that are held. -/
theorem update_pressed_iff {states : UInt32 → Option KeyState} {key' : UInt32} :
    Function.update states key (some .pressed) key' = some .pressed
      ↔ key' = key ∨ states key' = some .pressed := by
  by_cases heq : key' = key
  · rw [heq, Function.update_self]
    simp
  · rw [Function.update_of_ne heq]
    simp [heq]

/-- Releasing it takes it away. -/
theorem update_released_iff {states : UInt32 → Option KeyState} {key' : UInt32} :
    Function.update states key (some .released) key' = some .pressed
      ↔ key' ≠ key ∧ states key' = some .pressed := by
  by_cases heq : key' = key
  · rw [heq, Function.update_self]
    simp
  · rw [Function.update_of_ne heq]
    simp [heq]

theorem code_inj {key key' : UInt32} : key + scancodeOffset = key' + scancodeOffset ↔ key = key' :=
  UInt32.add_left_inj _

namespace Balanced

variable {physical forwarded : UInt32 → Option KeyState}

/-- The timer of a context repeats no other key than before. -/
def KeepsKey (context context' : InputContext κ σ) : Prop :=
  ∀ repeating, context'.repeatTimer = some repeating →
    ∃ repeating', context.repeatTimer = some repeating' ∧ repeating'.keycode = repeating.keycode

/-- What is repeated stays in the table. -/
theorem repeating_of_keepsKey (h : Balanced physical forwarded context)
    (hpressed : context'.pressed = context.pressed) (hkeeps : KeepsKey context context') :
    ∀ repeating, context'.repeatTimer = some repeating →
      repeating.keycode ≠ 0 ∧ repeating.keycode ∈ context'.pressed := by
  intro repeating ht
  obtain ⟨repeating', ht', hsame⟩ := hkeeps repeating ht
  rw [hpressed, ← hsame]
  exact h.repeating repeating' ht'

theorem code_ne_press (h : Balanced physical forwarded context)
    (hcode : key + scancodeOffset ≠ 0) :
    ∀ key', Function.update physical key (some .pressed) key' = some .pressed →
      key' + scancodeOffset ≠ 0 := by
  intro key' hheld
  rcases update_pressed_iff.mp hheld with rfl | hbefore
  · exact hcode
  · exact h.code_ne key' hbefore

theorem code_ne_release (h : Balanced physical forwarded context) :
    ∀ key', Function.update physical key (some .released) key' = some .pressed →
      key' + scancodeOffset ≠ 0 :=
  fun key' hheld => h.code_ne key' (update_released_iff.mp hheld).2

/-- The press of a key is kept. -/
theorem press_kept (h : Balanced physical forwarded context)
    (hcode : key + scancodeOffset ≠ 0) (hup : physical key ≠ some .pressed)
    (hslot : 0 ∈ context.pressed)
    (hpressed : context'.pressed = context.pressed.replace 0 (key + scancodeOffset))
    (hrepeating : KeepsKey context context' ∨
      ∀ repeating, context'.repeatTimer = some repeating →
        repeating.keycode = key + scancodeOffset) :
    Balanced (Function.update physical key (some .pressed)) forwarded context' := by
  have hnot : key + scancodeOffset ∉ context.pressed := fun hmem => hup (h.held key hmem hcode)
  have hmem : ∀ c, c ≠ 0 →
      (c ∈ context'.pressed ↔ c ∈ context.pressed ∨ c = key + scancodeOffset) := by
    intro c hc
    rw [hpressed]
    exact mem_replace_or_iff hslot hc
  have hin : key + scancodeOffset ∈ context'.pressed := (hmem _ hcode).mpr (Or.inr rfl)
  refine ⟨?_, ?_, ?_, ?_, ?_⟩
  · intro key'
    rw [update_pressed_iff, h.forwarded_iff]
    by_cases heq : key' = key
    · subst heq
      exact iff_of_false (fun hf => hup hf.1) fun hr => hr.2 hin
    · rw [or_iff_right heq]
      refine and_congr_right fun hheld => not_congr ?_
      rw [hmem _ (h.code_ne key' hheld), code_inj, or_iff_left heq]
  · intro key' hmem' hcode'
    rw [update_pressed_iff]
    rcases (hmem _ hcode').mp hmem' with hbefore | hnew
    · exact Or.inr (h.held key' hbefore hcode')
    · exact Or.inl (code_inj.mp hnew)
  · exact h.code_ne_press hcode
  · intro c hc
    rw [hpressed]
    exact count_replace_le_one hslot hc hnot (h.once c hc)
  · intro repeating ht
    rcases hrepeating with hkeeps | hnew
    · obtain ⟨repeating', ht', hsame⟩ := hkeeps repeating ht
      obtain ⟨hne, hin'⟩ := h.repeating repeating' ht'
      rw [← hsame]
      exact ⟨hne, (hmem _ hne).mpr (Or.inl hin')⟩
    · rw [hnew repeating ht]
      exact ⟨hcode, hin⟩

/-- The press of a key is forwarded. -/
theorem press_forwarded (h : Balanced physical forwarded context)
    (hcode : key + scancodeOffset ≠ 0) (hup : physical key ≠ some .pressed)
    (hpressed : context'.pressed = context.pressed) (hrepeating : KeepsKey context context') :
    Balanced (Function.update physical key (some .pressed))
      (Function.update forwarded key (some .pressed)) context' := by
  have hnot : key + scancodeOffset ∉ context.pressed := fun hmem => hup (h.held key hmem hcode)
  refine ⟨?_, ?_, h.code_ne_press hcode, ?_, h.repeating_of_keepsKey hpressed hrepeating⟩
  · intro key'
    rw [hpressed, update_pressed_iff, update_pressed_iff, h.forwarded_iff]
    by_cases heq : key' = key
    · subst heq
      simp [hnot]
    · simp [heq]
  · intro key' hmem hcode'
    rw [hpressed] at hmem
    exact update_pressed_iff.mpr (Or.inr (h.held key' hmem hcode'))
  · rw [hpressed]
    exact h.once

/-- The release of a key is kept, since its press was. -/
theorem release_kept (h : Balanced physical forwarded context)
    (hmem : key + scancodeOffset ∈ context.pressed)
    (hpressed : context'.pressed = context.pressed.replace (key + scancodeOffset) 0)
    (hrepeating : ∀ repeating, context'.repeatTimer = some repeating →
      context.repeatTimer = some repeating ∧ repeating.keycode ≠ key + scancodeOffset) :
    Balanced (Function.update physical key (some .released)) forwarded context' := by
  have hmem' : ∀ c, c ≠ 0 →
      (c ∈ context'.pressed ↔ c ∈ context.pressed ∧ c ≠ key + scancodeOffset) := by
    intro c hc
    rw [hpressed]
    by_cases hcode : key + scancodeOffset = 0
    · have := count_replace (b := 0) hmem c
      rw [if_neg hc, if_neg (by rw [hcode]; exact hc)] at this
      rw [← List.count_pos_iff, ← List.count_pos_iff, hcode]
      simp only [hcode] at this
      exact ⟨fun hpos => ⟨by omega, hc⟩, fun hpos => by omega⟩
    · exact mem_replace_iff hmem hc (h.once _ hcode)
  refine ⟨?_, ?_, h.code_ne_release, ?_, ?_⟩
  · intro key'
    rw [update_released_iff, h.forwarded_iff]
    by_cases heq : key' = key
    · subst heq
      exact iff_of_false (fun hf => hf.2 hmem) fun hr => hr.1.1 rfl
    · rw [and_iff_right heq]
      refine and_congr_right fun hheld => not_congr ?_
      rw [hmem' _ (h.code_ne key' hheld), ne_eq, code_inj, and_iff_left heq]
  · intro key' hin hcode'
    obtain ⟨hin', hne⟩ := (hmem' _ hcode').mp hin
    exact update_released_iff.mpr
      ⟨fun heq => hne (by rw [heq]), h.held key' hin' hcode'⟩
  · intro c hc
    have hle := h.once c hc
    have := count_replace (b := 0) hmem c
    rw [if_neg hc] at this
    rw [hpressed]
    omega
  · intro repeating ht
    obtain ⟨ht', hne⟩ := hrepeating repeating ht
    obtain ⟨hne0, hin⟩ := h.repeating repeating ht'
    exact ⟨hne0, (hmem' _ hne0).mpr ⟨hin, hne⟩⟩

/-- The release of a key is forwarded, since its press was. -/
theorem release_forwarded (h : Balanced physical forwarded context)
    (hnot : key + scancodeOffset ∉ context.pressed) :
    Balanced (Function.update physical key (some .released))
      (Function.update forwarded key (some .released)) context := by
  refine ⟨?_, ?_, h.code_ne_release, h.once, h.repeating⟩
  · intro key'
    rw [update_released_iff, update_released_iff, h.forwarded_iff, and_assoc]
  · intro key' hmem hcode
    refine update_released_iff.mpr ⟨?_, h.held key' hmem hcode⟩
    rintro rfl
    exact hnot hmem

/-- Nothing happens to a key. -/
theorem congr (h : Balanced physical forwarded context)
    (hpressed : context'.pressed = context.pressed) (hrepeating : KeepsKey context context') :
    Balanced physical forwarded context' := by
  refine ⟨by rw [hpressed]; exact h.forwarded_iff, by rw [hpressed]; exact h.held, h.code_ne,
    by rw [hpressed]; exact h.once, h.repeating_of_keepsKey hpressed hrepeating⟩

end Balanced

/-! ## §4. Steps. -/

/-- The keyboard grab of a seat, up to the point where it is released: the keymap and the speed of
repetition come first, and no key is pressed or released twice in a row. -/
def OneGrab (seatIndex : SeatIndex) (history : List Event) (state : State κ σ) (event : Event) :
    Prop :=
  ∀ context ∈ state.context? seatIndex,
    (∀ k ∈ event.key?, k.1 = seatIndex →
      context.xkbState.isSome ∧ context.repeatRate.isSome ∧ context.repeatDelay.isSome ∧
        physical seatIndex history k.2.1 ≠ some k.2.2) ∧
    (event = .inputMethod seatIndex .done →
      ¬ (context.keyboardGrab = true ∧ context.pendingDeactivate = true))

/-- A press that the table keeps up with: the key can be told from an empty slot, it does not wind
the program down while another key is being repeated, and there is a slot for it if it is kept. -/
def InputContext.KeepsPress (xkb : Xkb κ σ) (context : InputContext κ σ) (xkbState : σ)
    (keycode : Keycode) : Prop :=
  keycode ≠ 0 ∧
    (context.repeatsOther keycode = true → classify xkb xkbState keycode ≠ none) ∧
    (classify xkb xkbState keycode ≠ some false → 0 ∈ context.pressed)

/-- What keeps presses and releases balanced, besides: a key that is being repeated stays one that
is handled. -/
def KeepsBalance (xkb : Xkb κ σ) (seatIndex : SeatIndex) (state : State κ σ) (event : Event) :
    Prop :=
  ∀ context ∈ state.context? seatIndex, ∀ xkbState ∈ context.xkbState,
    (∀ press ∈ event.press?, press.1 = seatIndex →
      context.KeepsPress xkb xkbState (press.2 + scancodeOffset)) ∧
    (∀ token ∈ event.token?, ∀ timer ∈ state.loopHandle.find token, timer.seatIndex = seatIndex →
      ∀ repeating ∈ context.repeatTimer, classify xkb xkbState repeating.keycode ≠ some false)

instance (history : List Event) (state : State κ σ) (event : Event) :
    Decidable (OneGrab seatIndex history state event) :=
  inferInstanceAs (Decidable (∀ context ∈ state.context? seatIndex,
    (∀ k ∈ event.key?, k.1 = seatIndex →
      context.xkbState.isSome ∧ context.repeatRate.isSome ∧ context.repeatDelay.isSome ∧
        physical seatIndex history k.2.1 ≠ some k.2.2) ∧
    (event = .inputMethod seatIndex .done →
      ¬ (context.keyboardGrab = true ∧ context.pendingDeactivate = true))))

instance (xkbState : σ) (keycode : Keycode) :
    Decidable (context.KeepsPress xkb xkbState keycode) :=
  inferInstanceAs (Decidable (_ ∧ (_ → _) ∧ (_ → _)))

instance (state : State κ σ) (event : Event) :
    Decidable (KeepsBalance xkb seatIndex state event) :=
  inferInstanceAs (Decidable (∀ context ∈ state.context? seatIndex, ∀ xkbState ∈ context.xkbState,
    (∀ press ∈ event.press?, press.1 = seatIndex →
      context.KeepsPress xkb xkbState (press.2 + scancodeOffset)) ∧
    (∀ token ∈ event.token?, ∀ timer ∈ state.loopHandle.find token, timer.seatIndex = seatIndex →
      ∀ repeating ∈ context.repeatTimer, classify xkb xkbState repeating.keycode ≠ some false)))

section Steps

variable {physical forwarded : UInt32 → Option KeyState} {time : UInt32}

/-- What the press of a key does to the table, and what the virtual keyboard gets to see. -/
theorem Press.balanced {after : HandledKey κ σ} {xkbState : σ}
    (h : Balanced physical forwarded context) (hx : context.xkbState = some xkbState)
    (hup : physical key ≠ some .pressed)
    (hkeeps : context.KeepsPress xkb xkbState (key + scancodeOffset))
    (hafter : context.handleKey xkb backend (key + scancodeOffset) = .ok after)
    (hpress : Press xkb seatIndex context loopHandle time key after handled) :
    keyEvents handled.requests = [] ∧
        Balanced (Function.update physical key (some .pressed)) forwarded handled.context ∨
      keyEvents handled.requests = [(key, .pressed)] ∧
        Balanced (Function.update physical key (some .pressed))
          (Function.update forwarded key (some .pressed)) handled.context := by
  obtain ⟨hcode, hother, hslot⟩ := hkeeps
  obtain ⟨xkbState', hx', hclass, hcontext, hevents⟩ := InputContext.handleKey_ok hafter
  rw [hx] at hx'
  cases hx'
  have hpressed : after.context.pressed = context.pressed := by rw [hcontext]
  have htimer : after.context.repeatTimer = context.repeatTimer := by rw [hcontext]
  have hmarked : (after.context.markAsPressed (key + scancodeOffset)).pressed
      = context.pressed.replace 0 (key + scancodeOffset) := by
    rw [InputContext.markAsPressed, hpressed]
  have hsame : Balanced.KeepsKey context after.context := by
    intro repeating ht
    exact ⟨repeating, htimer ▸ ht, rfl⟩
  have hforwarded : keyEvents (after.requests ++ [.key time key .pressed]) = [(key, .pressed)] := by
    rw [keyEvents_append, hevents]
    simp [keyEvents, Request.keyEvent?]
  rw [← hclass] at hother hslot
  cases hpress with
  | retargeted ht hne hhandled =>
      refine Or.inl ⟨hevents, h.press_kept hcode hup (hslot (by simp [hhandled])) hmarked
        (Or.inr ?_)⟩
      rintro _ ⟨⟩
      rfl
  | forgotten ht hne hhandled =>
      refine Or.inl ⟨hevents, h.press_kept hcode hup (hslot (by simp [hhandled])) hmarked
        (Or.inl ?_)⟩
      rintro _ ⟨⟩
  | stopped ht hne hhandled =>
      refine Or.inr ⟨hforwarded, h.press_forwarded hcode hup hpressed ?_⟩
      rintro _ ⟨⟩
  | shutDown ht hne hhandled => exact absurd hhandled (hother (repeatsOther_of_ne ht hne).1)
  | started _ hhandled =>
      refine Or.inl ⟨hevents, h.press_kept hcode hup (hslot hhandled) hmarked (Or.inr ?_)⟩
      rintro _ ⟨⟩
      rfl
  | kept _ hhandled =>
      exact Or.inl ⟨hevents, h.press_kept hcode hup (hslot hhandled) hmarked (Or.inl hsame)⟩
  | forwarded _ hhandled =>
      exact Or.inr ⟨hforwarded, h.press_forwarded hcode hup hpressed hsame⟩

/-- The release of a key is forwarded iff the press was, and leaves the table right. -/
theorem Release.balanced (h : Balanced physical forwarded context)
    (hrelease : Release context loopHandle time key handled) :
    key + scancodeOffset ∈ context.pressed ∧ keyEvents handled.requests = [] ∧
        Balanced (Function.update physical key (some .released)) forwarded handled.context ∨
      key + scancodeOffset ∉ context.pressed ∧
        keyEvents handled.requests = [(key, .released)] ∧
        Balanced (Function.update physical key (some .released))
          (Function.update forwarded key (some .released)) handled.context := by
  cases hrelease with
  | @stopped repeating ht hk =>
      have hmem : key + scancodeOffset ∈ context.pressed := hk ▸ (h.repeating _ ht).2
      refine Or.inl ⟨hmem, rfl, h.release_kept hmem rfl ?_⟩
      rintro _ ⟨⟩
  | kept hk hmem =>
      refine Or.inl ⟨hmem, rfl, h.release_kept hmem rfl ?_⟩
      intro repeating ht
      refine ⟨ht, ?_⟩
      have ht' : context.repeatTimer = some repeating := ht
      simpa [InputContext.repeatsKey, ht'] using hk
  | forwarded hk hnot =>
      exact Or.inr ⟨hnot, by simp [keyEvents, Request.keyEvent?], h.release_forwarded hnot⟩

end Steps

/-- The table stays as it is unless the grab is released. -/
theorem InputContext.pressed_inputMethodEvent {event : InputMethodEvent}
    (h : event = .done → ¬ (context.keyboardGrab = true ∧ context.pendingDeactivate = true)) :
    (context.inputMethodEvent event).1.pressed = context.pressed := by
  cases event with
  | done =>
      have hkept := h rfl
      show context.done.1.pressed = _
      unfold InputContext.done
      cases hgrab : context.keyboardGrab <;> cases hpending : context.pendingDeactivate <;>
        cases context.pendingActivate <;> simp_all
  | _ => rfl

variable {state state' : State κ σ} {event : Event} {history : List Event}
  {requests more : List (SeatIndex × Request)}

/-- An event of the keyboard grab keeps the table right. -/
theorem Grabs.balanced {event : GrabEvent}
    (hbalanced : Balanced (physical seatIndex history) (forwarded seatIndex requests) context)
    (hgrab : OneGrab seatIndex history state (.keyboardGrab seatIndex event))
    (hkeeps : KeepsBalance xkb seatIndex state (.keyboardGrab seatIndex event))
    (hcontext : state.context? seatIndex = some context)
    (h : Grabs xkb backend seatIndex context loopHandle event handled)
    (hmore : requestsOf seatIndex more = handled.requests) :
    Balanced (physical seatIndex (history ++ [.keyboardGrab seatIndex event]))
      (forwarded seatIndex (requests ++ more)) handled.context := by
  obtain ⟨hkeys, _⟩ := hgrab context hcontext
  cases h with
  | ignored hnone =>
      have hsome := (hkeys _ rfl rfl).1
      rw [hnone] at hsome
      cases hsome
  | @press time key after _ hhandle hpress =>
      obtain ⟨xkbState, hx, _⟩ := InputContext.handleKey_ok hhandle
      have hup := (hkeys _ rfl rfl).2.2.2
      have hkept := (hkeeps context hcontext xkbState hx).1 _ rfl rfl
      rw [physical_append_key rfl]
      rcases hpress.balanced hbalanced hx hup hkept hhandle with ⟨hevents, hafter⟩ |
        ⟨hevents, hafter⟩
      · rwa [forwarded_append_nil (by rw [hmore, hevents])]
      · rwa [forwarded_append_key (by rw [hmore, hevents])]
  | @release time key _ hrelease =>
      rw [physical_append_key rfl]
      rcases Release.balanced hbalanced hrelease with ⟨_, hevents, hafter⟩ | ⟨_, hevents, hafter⟩
      · rwa [forwarded_append_nil (by rw [hmore, hevents])]
      · rwa [forwarded_append_key (by rw [hmore, hevents])]
  | noKey hnoKey hcontext' _ htyping =>
      have hnone : (Event.keyboardGrab seatIndex event).key? = none := by
        cases event with
        | key time key keyState => exact absurd rfl (hnoKey time key keyState)
        | _ => rfl
      rw [physical_append_other (by simp [hnone]),
        forwarded_append_nil (by rw [hmore]; exact keyEvents_eq_nil htyping), hcontext']
      exact hbalanced.congr rfl fun repeating ht => ⟨repeating, ht, rfl⟩

/-- A timer that repeats a key which is not forwarded keeps the table right. -/
theorem timerEvent_balanced {token : Nat}
    (hbalanced : Balanced (physical seatIndex history) (forwarded seatIndex requests) context)
    (hkeeps : ∀ xkbState ∈ context.xkbState, ∀ repeating ∈ context.repeatTimer,
      classify xkb xkbState repeating.keycode ≠ some false)
    (h : context.timerEvent xkb backend loopHandle token = .ok handled)
    (hmore : requestsOf seatIndex more = handled.requests) :
    Balanced (physical seatIndex (history ++ [.timer token]))
      (forwarded seatIndex (requests ++ more)) handled.context := by
  obtain ⟨after, hrepeat, rfl⟩ := InputContext.timerEvent_ok h
  obtain ⟨_, repeating, handled, timestamp, _, ht, hhandle, hafter⟩ :=
    InputContext.repeatKey_ok hrepeat
  obtain ⟨xkbState, hx, hclass, hcontext', hevents⟩ := InputContext.handleKey_ok hhandle
  have hkept := hkeeps xkbState hx repeating ht
  rw [← hclass] at hkept
  rcases hafter with ⟨hfalse, _⟩ | ⟨_, rfl⟩
  · exact absurd hfalse hkept
  · rw [physical_append_other (fun k hk => by cases hk),
      forwarded_append_nil (by rw [hmore]; exact hevents)]
    refine hbalanced.congr (by rw [hcontext']) ?_
    intro repeating' ht'
    rw [hcontext'] at ht'
    cases ht'
    exact ⟨repeating, ht, rfl⟩

/-- An event of the input method that does not release the grab keeps the table right. -/
theorem inputMethodEvent_balanced {event : InputMethodEvent}
    (hbalanced : Balanced (physical seatIndex history) (forwarded seatIndex requests) context)
    (hdone : event = .done →
      ¬ (context.keyboardGrab = true ∧ context.pendingDeactivate = true))
    (hmore : requestsOf seatIndex more = (context.inputMethodEvent event).2) :
    Balanced (physical seatIndex (history ++ [.inputMethod seatIndex event]))
      (forwarded seatIndex (requests ++ more)) (context.inputMethodEvent event).1 := by
  obtain ⟨⟨_, _, _, _, _, hcontext'⟩, htyping⟩ := context.inputMethodEvent_frame event
  rw [physical_append_other (fun k hk => by cases hk),
    forwarded_append_nil (by rw [hmore]; exact keyEvents_eq_nil htyping)]
  refine hbalanced.congr (InputContext.pressed_inputMethodEvent hdone) ?_
  intro repeating ht
  exact ⟨repeating, by rw [hcontext'] at ht; exact ht, rfl⟩

/-- **One step** keeps the table right. -/
theorem balanced_step
    (hbalanced : ∀ context, state.context? seatIndex = some context →
      Balanced (physical seatIndex history) (forwarded seatIndex requests) context)
    (hgrab : OneGrab seatIndex history state event)
    (hkeeps : KeepsBalance xkb seatIndex state event)
    (hstep : state.dispatch xkb backend event = .ok (state', more)) :
    ∀ context, state'.context? seatIndex = some context →
      Balanced (physical seatIndex (history ++ [event])) (forwarded seatIndex (requests ++ more))
        context := by
  intro context' hcontext'
  rcases State.dispatch_seat hstep seatIndex with ⟨hsame, hmore, hother⟩ |
    ⟨context, handled, hcontext, hhandles, hafter, hmore⟩
  · have hkeys : ∀ k ∈ event.key?, k.1 ≠ seatIndex := by
      intro k hk heq
      exact hother (heq ▸ Event.seat?_of_key? hk)
    rw [physical_append_other hkeys, forwarded_append_nil (by rw [hmore]; rfl)]
    exact hbalanced context' (hsame context' hcontext')
  · rw [hafter] at hcontext'
    cases hcontext'
    have h := hbalanced context hcontext
    cases hhandles with
    | keyboardGrab hevent =>
        exact (InputContext.keyboardGrabEvent_ok hevent).balanced h hgrab hkeeps hcontext hmore
    | inputMethod =>
        refine inputMethodEvent_balanced h ?_ hmore
        intro heq
        exact (hgrab context hcontext).2 (by rw [heq])
    | timer hfind hseat hevent =>
        refine timerEvent_balanced h ?_ hevent hmore
        intro xkbState hx
        exact (hkeeps context hcontext xkbState hx).2 _ rfl _ hfind hseat

/-! ## §5. Runs. -/

/-- The steps of the runs in question. -/
def BalancedStep (xkb : Xkb κ σ) (seatIndex : SeatIndex) (history : List Event)
    (state : State κ σ) (event : Event) : Prop :=
  OneGrab seatIndex history state event ∧ KeepsBalance xkb seatIndex state event

instance : Decidable (BalancedStep xkb seatIndex history state event) :=
  inferInstanceAs (Decidable (_ ∧ _))

theorem balanced_of_run {seatIds : List UInt32}
    (hrun : Run (State.dispatch xkb backend) (BalancedStep xkb seatIndex) (State.init seatIds)
      history requests state) :
    ∀ context, state.context? seatIndex = some context →
      Balanced (physical seatIndex history) (forwarded seatIndex requests) context := by
  refine hrun.invariant (fun history requests state =>
    ∀ context, state.context? seatIndex = some context →
      Balanced (physical seatIndex history) (forwarded seatIndex requests) context) ?_ ?_
  · intro context hcontext
    obtain ⟨seatId, _, rfl⟩ := State.context?_init hcontext
    refine ⟨?_, ?_, ?_, ?_, ?_⟩
    · intro key
      exact iff_of_false (by simp [forwarded, requestsOf, keyEvents]) (by simp [physical])
    · intro key hmem hcode
      exact absurd (List.eq_of_mem_replicate hmem) hcode
    · intro key hheld
      simp [physical] at hheld
    · intro keycode hcode
      rw [List.count_replicate, if_neg (by simpa using Ne.symm hcode)]
      exact Nat.zero_le _
    · intro repeating ht
      cases ht
  · intro _ _ _ _ _ _ hbalanced hguard hstep
    exact balanced_step hbalanced hguard.1 hguard.2 hstep

/-- **The release of a key is forwarded iff the virtual keyboard saw its press last**, in every
run of one keyboard grab in which the table keeps up. -/
theorem release_forwarded_iff {seatIds : List UInt32} {time : UInt32}
    (hrun : Run (State.dispatch xkb backend) (BalancedStep xkb seatIndex) (State.init seatIds)
      history requests state)
    (hheld : physical seatIndex history key = some .pressed)
    (hgrab : OneGrab seatIndex history state (.keyboardGrab seatIndex (.key time key .released)))
    (hstep : state.dispatch xkb backend (.keyboardGrab seatIndex (.key time key .released))
      = .ok (state', more)) :
    (key, .released) ∈ keyEvents (requestsOf seatIndex more)
      ↔ forwarded seatIndex requests key = some .pressed := by
  rcases State.dispatch_seat hstep seatIndex with ⟨_, _, hother⟩ |
    ⟨context, handled, hcontext, hhandles, _, hmore⟩
  · exact absurd rfl hother
  · have h := balanced_of_run hrun context hcontext
    rw [h.forwarded_iff, hmore]
    cases hhandles with
    | keyboardGrab hevent =>
        cases InputContext.keyboardGrabEvent_ok hevent with
        | ignored hnone =>
            have := ((hgrab context hcontext).1 _ rfl rfl).1
            rw [hnone] at this
            cases this
        | release hrelease =>
            rcases Release.balanced h hrelease with ⟨hmem, hevents, _⟩ | ⟨hnot, hevents, _⟩
            · rw [hevents]
              exact iff_of_false (by simp) fun hr => hr.2 hmem
            · rw [hevents]
              exact iff_of_true (by simp) ⟨hheld, hnot⟩
        | noKey hnoKey => exact absurd rfl (hnoKey _ _ _)

/-- Two keys, one of them kept and one forwarded. -/
theorem release_forwarded_iff_shift :
    ∃ requests state,
      Run (State.dispatch smallKeyboard emptyBackend) (BalancedStep smallKeyboard 0)
        (State.init [1])
        (setUp ++ [.keyboardGrab 0 (.key 0 42 .pressed), .keyboardGrab 0 (.modifiers 1 0 0 0),
          .keyboardGrab 0 (.key 1 12 .pressed), .timer 0]) requests state ∧
      ∃ state' more,
        state.dispatch smallKeyboard emptyBackend (.keyboardGrab 0 (.key 2 42 .released))
          = .ok (state', more) ∧
        ((42, .released) ∈ keyEvents (requestsOf 0 more) ↔
          forwarded 0 requests 42 = some .pressed) := by
  refine Run.exists_of_exec (fun _ state => decide (
    OneGrab 0 (setUp ++ [.keyboardGrab 0 (.key 0 42 .pressed),
      .keyboardGrab 0 (.modifiers 1 0 0 0), .keyboardGrab 0 (.key 1 12 .pressed), .timer 0])
      state (.keyboardGrab 0 (.key 2 42 .released)) ∧
    (state.dispatch smallKeyboard emptyBackend (.keyboardGrab 0 (.key 2 42 .released))).isOk))
    (by decide) ?_
  intro requests state hrun htest
  obtain ⟨hgrab, hok⟩ := of_decide_eq_true htest
  cases hstep : state.dispatch smallKeyboard emptyBackend
      (.keyboardGrab 0 (.key 2 42 .released)) with
  | error panic => rw [hstep] at hok; cases hok
  | ok result =>
      exact ⟨result.1, result.2, rfl, release_forwarded_iff hrun (by decide) hgrab hstep⟩

/-- **A key that is left down**: `ß` is pressed with Shift for `?`, and repeated.  When Shift is
released, the timer finds that `ß` is not handled and forwards its press; its release is kept. -/
theorem repeat_leaves_key_down :
    ∃ requests state,
      Run (State.dispatch smallKeyboard emptyBackend) (OneGrab 0) (State.init [1])
        (setUp ++ [.keyboardGrab 0 (.key 0 42 .pressed), .keyboardGrab 0 (.modifiers 1 0 0 0),
          .keyboardGrab 0 (.key 1 12 .pressed), .keyboardGrab 0 (.key 2 42 .released),
          .keyboardGrab 0 (.modifiers 0 0 0 0), .timer 0]) requests state ∧
      forwarded 0 requests 12 = some .pressed ∧
      (state.dispatch smallKeyboard emptyBackend
          (.keyboardGrab 0 (.key 3 12 .released))).toOption.map
        (fun after => keyEvents (requestsOf 0 after.2)) = some [] := by
  refine Run.exists_of_exec (fun requests state => decide (
    forwarded 0 requests 12 = some .pressed ∧
    (state.dispatch smallKeyboard emptyBackend
        (.keyboardGrab 0 (.key 3 12 .released))).toOption.map
      (fun after => keyEvents (requestsOf 0 after.2)) = some [])) (by decide) ?_
  intro requests state _ htest
  exact of_decide_eq_true htest

end Shinran.Wayland
