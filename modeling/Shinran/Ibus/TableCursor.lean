/-
  Shinran.Ibus.TableCursor
  ────────────────────────
  **THE CURSOR OF A LOOKUP TABLE** (`ibus_utils::lookup_table`).

  A table shows its candidates in pages of one size, and a cursor stands on
  one of them.  The arithmetic of 32 bits is checked: where it leaves the
  range, an operation stops.

    • `IBusLookupTable`, `step` — the table, and one operation on it,
    • `sound_iff`              — the cursor stays on a candidate iff no step
                                 leaves the last one or wraps around in an
                                 empty table,
    • `movesWithinPage_iff`    — when setting the cursor inside of the page
                                 does that.
-/
import Mathlib.Algebra.Group.Nat.Defs
import Mathlib.Data.Nat.Basic
import Shinran.Fallible

namespace Shinran

/-! ## §1. The table. -/

/-- What stops an operation. -/
inductive ArithmeticError where
  | overflow
  | underflow
  | remainderByZero
  deriving DecidableEq, Repr

/-- `TableOrientation`, with its discriminants. -/
inductive TableOrientation where
  | horizontal
  | vertical
  | system
  deriving DecidableEq, Repr

def TableOrientation.toInt32 : TableOrientation → Int32
  | .horizontal => 0
  | .vertical => 1
  | .system => 2

/-- `IBusLookupTable`, with the candidates and labels by their texts. -/
structure IBusLookupTable where
  pageSize : UInt32
  cursorPos : UInt32
  cursorVisible : Bool
  round : Bool
  orientation : Int32
  candidates : List String
  labels : List String
  deriving DecidableEq, Repr

/-- `a + b` and `a - b` of `u32`. -/
def checkedAdd (a b : UInt32) : Except ArithmeticError UInt32 :=
  if a.toNat + b.toNat < 2 ^ 32 then .ok (a + b) else .error .overflow

def checkedSub (a b : UInt32) : Except ArithmeticError UInt32 :=
  if b ≤ a then .ok (a - b) else .error .underflow

namespace IBusLookupTable

/-- `new`. -/
def new (pageSize cursorPos : UInt32) (cursorVisible round : Bool)
    (orientation : TableOrientation) (candidates labels : List String) : IBusLookupTable :=
  { pageSize, cursorPos, cursorVisible, round, orientation := orientation.toInt32
    candidates, labels }

/-- `IBusLookupTable::default()`. -/
def default : IBusLookupTable := new 5 0 true false .system [] []

/-- `candidates.len() as u32`. -/
def size (table : IBusLookupTable) : UInt32 := .ofNat table.candidates.length

def appendCandidate (table : IBusLookupTable) (text : String) : IBusLookupTable :=
  { table with candidates := table.candidates ++ [text] }

def appendLabel (table : IBusLookupTable) (text : String) : IBusLookupTable :=
  { table with labels := table.labels ++ [text] }

def getCursorPosInCurrentPage (table : IBusLookupTable) : Except ArithmeticError UInt32 :=
  if table.pageSize = 0 then .error .remainderByZero else .ok (table.cursorPos % table.pageSize)

def setCursorPosInCurrentPage (table : IBusLookupTable) (pos : UInt32) :
    Except ArithmeticError (IBusLookupTable × Bool) :=
  if table.pageSize ≤ pos then .ok (table, false)
  else
    match table.getCursorPosInCurrentPage with
    | .error err => .error err
    | .ok current =>
      match checkedAdd pos current with
      | .error err => .error err
      | .ok pos =>
        if table.size ≤ pos then .ok (table, false)
        else .ok ({ table with cursorPos := pos }, true)

def cursorUp (table : IBusLookupTable) : Except ArithmeticError (IBusLookupTable × Bool) :=
  if table.cursorPos = 0 then
    if table.round then
      (checkedSub table.size 1).map fun pos => ({ table with cursorPos := pos }, true)
    else .ok (table, false)
  else (checkedSub table.cursorPos 1).map fun pos => ({ table with cursorPos := pos }, true)

def cursorDown (table : IBusLookupTable) : Except ArithmeticError (IBusLookupTable × Bool) :=
  if table.cursorPos = table.size then
    if table.round then .ok ({ table with cursorPos := 0 }, true) else .ok (table, false)
  else (checkedAdd table.cursorPos 1).map fun pos => ({ table with cursorPos := pos }, true)

def clear (table : IBusLookupTable) : IBusLookupTable :=
  { table with candidates := [], labels := [], cursorPos := 0 }

/-! ## §2. Operations in a row. -/

inductive Operation where
  | appendCandidate (text : String)
  | appendLabel (text : String)
  | setCursorPosInCurrentPage (pos : UInt32)
  | cursorUp
  | cursorDown
  | clear
  deriving DecidableEq, Repr

/-- The table after one operation. -/
def step (table : IBusLookupTable) : Operation → Except ArithmeticError IBusLookupTable
  | .appendCandidate text => .ok (table.appendCandidate text)
  | .appendLabel text => .ok (table.appendLabel text)
  | .setCursorPosInCurrentPage pos => (table.setCursorPosInCurrentPage pos).map (·.1)
  | .cursorUp => table.cursorUp.map (·.1)
  | .cursorDown => table.cursorDown.map (·.1)
  | .clear => .ok table.clear

/-- The cursor stands on a candidate, or at 0 if there is none. -/
def CursorValid (table : IBusLookupTable) : Prop :=
  (table.candidates ≠ [] → table.cursorPos.toNat < table.candidates.length)
    ∧ (table.candidates = [] → table.cursorPos = 0)

/-- **Along the operations** nothing underflows, and the cursor is valid in every state. -/
def Sound : List Operation → IBusLookupTable → Prop
  | [], table => table.CursorValid
  | operation :: operations, table => table.CursorValid
      ∧ table.step operation ≠ .error .underflow
      ∧ ∀ table', table.step operation = .ok table' → Sound operations table'

/-- Every operation meets a condition on the table that it is applied to. -/
def EachStep (condition : IBusLookupTable → Operation → Prop) :
    List Operation → IBusLookupTable → Prop
  | [], _ => True
  | operation :: operations, table => condition table operation
      ∧ ∀ table', table.step operation = .ok table' → EachStep condition operations table'

/-- The operation neither leaves the last candidate downwards, nor wraps around upwards in a table
whose number of candidates is 0 in 32 bits. -/
def InBounds (table : IBusLookupTable) : Operation → Prop
  | .cursorDown => table.candidates.length < 2 ^ 32 →
      table.cursorPos.toNat + 1 ≠ table.candidates.length
  | .cursorUp => table.cursorPos = 0 → table.round = true → table.size ≠ 0
  | _ => True

/-! ## §3. One operation. -/

variable {table : IBusLookupTable}

theorem toNat_size : table.size.toNat = table.candidates.length % 2 ^ 32 := by
  unfold size
  exact UInt32.toNat_ofNat'

theorem checkedAdd_eq_ok {a b c : UInt32} :
    checkedAdd a b = .ok c ↔ c.toNat = a.toNat + b.toNat := by
  have hsum : (a + b).toNat = (a.toNat + b.toNat) % 2 ^ 32 := UInt32.toNat_add a b
  unfold checkedAdd
  split
  · rename_i hlt
    rw [Except.ok.injEq, ← UInt32.toNat_inj, hsum, Nat.mod_eq_of_lt hlt]
    exact eq_comm
  · rename_i hge
    have hc := c.toNat_lt
    constructor
    · intro h
      cases h
    · intro h
      omega

theorem checkedSub_eq_ok {a b c : UInt32} :
    checkedSub a b = .ok c ↔ a.toNat = c.toNat + b.toNat := by
  unfold checkedSub
  split
  · rename_i hle
    have hdiff : (a - b).toNat = a.toNat - b.toNat := UInt32.toNat_sub_of_le a b hle
    have hle' : b.toNat ≤ a.toNat := hle
    rw [Except.ok.injEq, ← UInt32.toNat_inj, hdiff]
    omega
  · rename_i hgt
    have hgt' : ¬ b.toNat ≤ a.toNat := hgt
    constructor
    · intro h
      cases h
    · intro h
      omega

theorem checkedAdd_ne_underflow {a b : UInt32} : checkedAdd a b ≠ .error .underflow := by
  unfold checkedAdd
  split <;> simp

theorem checkedSub_eq_underflow {a b : UInt32} :
    checkedSub a b = .error .underflow ↔ a.toNat < b.toNat := by
  unfold checkedSub
  split
  · rename_i hle
    have hle' : b.toNat ≤ a.toNat := hle
    simpa using hle'
  · rename_i hgt
    have hgt' : ¬ b.toNat ≤ a.toNat := hgt
    simpa using hgt'

/-- The cursor is valid after a move to `pos` iff that is a candidate. -/
theorem cursorValid_move {pos : UInt32} (hpos : pos.toNat < table.candidates.length ∨ pos = 0) :
    CursorValid { table with cursorPos := pos } := by
  constructor
  · intro hne
    have hlength : 0 < table.candidates.length := List.length_pos_iff.mpr hne
    cases hpos with
    | inl hlt => exact hlt
    | inr hzero => simpa [hzero] using hlength
  · intro hnil
    have hempty : table.candidates = [] := hnil
    cases hpos with
    | inl hlt => simp [hempty] at hlt
    | inr hzero => exact hzero

theorem cursorPos_lt (h : table.CursorValid) (hpos : table.cursorPos ≠ 0) :
    table.cursorPos.toNat < table.candidates.length :=
  h.1 fun hnil => hpos (h.2 hnil)

theorem setCursorPosInCurrentPage_ne_underflow {pos : UInt32} :
    table.setCursorPosInCurrentPage pos ≠ .error .underflow := by
  unfold setCursorPosInCurrentPage getCursorPosInCurrentPage
  split
  · simp
  · split
    · rename_i heq
      split at heq
      · cases heq
        simp
      · cases heq
    · split
      · rename_i heq
        intro h
        cases h
        exact checkedAdd_ne_underflow heq
      · split <;> simp

/-- A setting that comes to its end leaves the table alone, or moves to a candidate. -/
theorem setCursorPosInCurrentPage_ok {pos : UInt32} {table' : IBusLookupTable} {moved : Bool}
    (h : table.setCursorPosInCurrentPage pos = .ok (table', moved)) :
    table' = table ∨ ∃ pos', pos'.toNat < table.candidates.length
      ∧ table' = { table with cursorPos := pos' } := by
  unfold setCursorPosInCurrentPage at h
  split at h
  · cases h
    exact Or.inl rfl
  · split at h
    · cases h
    · split at h
      · cases h
      · split at h
        · cases h
          exact Or.inl rfl
        · rename_i pos' _ hlt
          cases h
          refine Or.inr ⟨pos', ?_, rfl⟩
          rw [UInt32.le_iff_toNat_le, toNat_size] at hlt
          have hmod := Nat.mod_le table.candidates.length (2 ^ 32)
          omega

/-- What a call does to the table, whatever it answers. -/
theorem map_fst_iff {x : Except ArithmeticError (IBusLookupTable × Bool)} :
    (x.map (·.1) ≠ .error .underflow ∧ ∀ table', x.map (·.1) = .ok table' → table'.CursorValid)
      ↔ x ≠ .error .underflow ∧ ∀ table' moved, x = .ok (table', moved) → table'.CursorValid := by
  simp only [ne_eq, map_eq_error_iff, map_eq_ok_iff, Prod.exists]
  refine and_congr_right fun _ => ⟨fun h table' moved heq => ?_, fun h table' hmap => ?_⟩
  · exact h table' ⟨table', moved, heq, rfl⟩
  · obtain ⟨_, moved, heq, rfl⟩ := hmap
    exact h _ moved heq

theorem cursorUp_iff (hvalid : table.CursorValid) :
    table.InBounds .cursorUp
      ↔ table.cursorUp ≠ .error .underflow
        ∧ ∀ table' moved, table.cursorUp = .ok (table', moved) → table'.CursorValid := by
  unfold cursorUp
  by_cases hzero : table.cursorPos = 0
  · rw [if_pos hzero]
    cases hround : table.round with
    | false =>
        refine iff_of_true (fun _ htrue => absurd (hround.symm.trans htrue) (by simp))
          ⟨by simp, fun table' moved h => ?_⟩
        cases h
        exact hvalid
    | true =>
        have hone : (1 : UInt32).toNat = 1 := rfl
        rw [if_pos rfl, ne_eq, map_eq_error_iff, checkedSub_eq_underflow, hone]
        have hsize : table.size ≠ 0 ↔ ¬ table.size.toNat < 1 := by
          rw [← UInt32.toNat_inj.ne, show (0 : UInt32).toNat = 0 from rfl]
          omega
        constructor
        · intro h
          refine ⟨hsize.mp (h hzero hround), fun table' moved heq => ?_⟩
          obtain ⟨pos, hsub, hmove⟩ := map_eq_ok_iff.mp heq
          cases hmove
          -- the last candidate, counted in 32 bits
          have hpos := checkedSub_eq_ok.mp hsub
          have hmod := Nat.mod_le table.candidates.length (2 ^ 32)
          rw [toNat_size, hone] at hpos
          exact cursorValid_move (Or.inl (by omega))
        · intro h _ _
          exact hsize.mpr h.1
  · rw [if_neg hzero]
    have hlt := cursorPos_lt hvalid hzero
    have hpos : 1 ≤ table.cursorPos.toNat := by
      exact Nat.pos_of_ne_zero fun h => hzero (UInt32.toNat_inj.mp h)
    refine iff_of_true (fun h => absurd h hzero) ⟨?_, fun table' moved h => ?_⟩
    · rw [ne_eq, map_eq_error_iff, checkedSub_eq_underflow]
      exact Nat.not_lt.mpr hpos
    · obtain ⟨pos, hsub, hmove⟩ := map_eq_ok_iff.mp h
      cases hmove
      have hsum := checkedSub_eq_ok.mp hsub
      exact cursorValid_move (Or.inl (by omega))

theorem cursorDown_iff (hvalid : table.CursorValid) :
    table.InBounds .cursorDown
      ↔ table.cursorDown ≠ .error .underflow
        ∧ ∀ table' moved, table.cursorDown = .ok (table', moved) → table'.CursorValid := by
  have hone : (1 : UInt32).toNat = 1 := rfl
  unfold cursorDown
  by_cases hlast : table.cursorPos = table.size
  · rw [if_pos hlast]
    refine iff_of_true (fun hsmall heq => ?_) ?_
    · -- in a small table the cursor is behind the last candidate then
      have hsize := congrArg UInt32.toNat hlast
      rw [toNat_size, Nat.mod_eq_of_lt hsmall] at hsize
      omega
    · cases table.round with
      | true =>
          refine ⟨by simp, fun table' moved h => ?_⟩
          cases h
          exact cursorValid_move (Or.inr rfl)
      | false =>
          refine ⟨by simp, fun table' moved h => ?_⟩
          cases h
          exact hvalid
  · rw [if_neg hlast]
    have hne : table.candidates ≠ [] := fun hnil => hlast (by rw [hvalid.2 hnil, size, hnil]; rfl)
    have hlt := hvalid.1 hne
    constructor
    · intro h
      refine ⟨fun hunder => checkedAdd_ne_underflow (map_eq_error_iff.mp hunder), ?_⟩
      intro table' moved heq
      obtain ⟨pos, hadd, hmove⟩ := map_eq_ok_iff.mp heq
      cases hmove
      have hsum := checkedAdd_eq_ok.mp hadd
      have hpos := pos.toNat_lt
      rw [hone] at hsum
      refine cursorValid_move (Or.inl ?_)
      by_cases hsmall : table.candidates.length < 2 ^ 32
      · have := h hsmall
        omega
      · omega
    · intro h hsmall heq
      have hadd : checkedAdd table.cursorPos 1 = .ok (table.cursorPos + 1) := by
        unfold checkedAdd
        rw [if_pos (by omega)]
      have hmoved := h.2 _ _ (by rw [hadd]; rfl)
      have hsum := checkedAdd_eq_ok.mp hadd
      have hcandidate : (table.cursorPos + 1).toNat < table.candidates.length := hmoved.1 hne
      omega

/-- **One operation** on a table with a valid cursor. -/
theorem step_iff (hvalid : table.CursorValid) (operation : Operation) :
    table.InBounds operation
      ↔ table.step operation ≠ .error .underflow
        ∧ ∀ table', table.step operation = .ok table' → table'.CursorValid := by
  cases operation with
  | appendCandidate text =>
      refine iff_of_true trivial ⟨by simp [step], fun table' h => ?_⟩
      cases h
      constructor
      · intro _
        have hlength : (table.candidates ++ [text]).length = table.candidates.length + 1 := by simp
        show table.cursorPos.toNat < (table.candidates ++ [text]).length
        by_cases hnil : table.candidates = []
        · rw [hlength, hvalid.2 hnil]
          exact Nat.succ_pos _
        · have hlt := hvalid.1 hnil
          omega
      · intro hnil
        exact absurd hnil (by simp [appendCandidate])
  | appendLabel text =>
      refine iff_of_true trivial ⟨by simp [step], fun table' h => ?_⟩
      cases h
      exact hvalid
  | setCursorPosInCurrentPage pos =>
      refine iff_of_true trivial (map_fst_iff.mpr ⟨setCursorPosInCurrentPage_ne_underflow, ?_⟩)
      intro table' moved h
      rcases setCursorPosInCurrentPage_ok h with rfl | ⟨pos', hlt, rfl⟩
      · exact hvalid
      · exact cursorValid_move (Or.inl hlt)
  | cursorUp => exact (cursorUp_iff hvalid).trans map_fst_iff.symm
  | cursorDown => exact (cursorDown_iff hvalid).trans map_fst_iff.symm
  | clear =>
      refine iff_of_true trivial ⟨by simp [step], fun table' h => ?_⟩
      cases h
      exact ⟨fun hne => absurd rfl hne, fun _ => rfl⟩

/-! ## §4. Any number of operations. -/

theorem sound_iff_of_cursorValid (operations : List Operation) :
    ∀ {table : IBusLookupTable}, table.CursorValid →
      (Sound operations table ↔ EachStep InBounds operations table) := by
  induction operations with
  | nil =>
      intro table hvalid
      exact iff_of_true hvalid trivial
  | cons operation operations ih =>
      intro table hvalid
      unfold Sound EachStep
      rw [step_iff hvalid]
      constructor
      · intro h
        -- what comes behind the operation begins with a valid cursor again
        have hnext : ∀ table', table.step operation = .ok table' → table'.CursorValid := by
          intro table' hstep
          have hsound := h.2.2 table' hstep
          cases operations with
          | nil => exact hsound
          | cons _ _ => exact hsound.1
        exact ⟨⟨h.2.1, hnext⟩, fun table' hstep =>
          (ih (hnext table' hstep)).mp (h.2.2 table' hstep)⟩
      · intro h
        exact ⟨hvalid, h.1.1, fun table' hstep =>
          (ih (h.1.2 table' hstep)).mpr (h.2 table' hstep)⟩

/-- **When the cursor always points at a candidate.**  For every size of the pages, with or without
wrapping around, and all operations on a new table: nothing underflows and the cursor is valid in
every state if and only if the cursor is never moved down from the last candidate, nor wrapped
around upwards while there is none. -/
theorem sound_iff (pageSize : UInt32) (cursorVisible round : Bool)
    (orientation : TableOrientation) (labels : List String) (operations : List Operation) :
    Sound operations (new pageSize 0 cursorVisible round orientation [] labels)
      ↔ EachStep InBounds operations
        (new pageSize 0 cursorVisible round orientation [] labels) :=
  sound_iff_of_cursorValid operations ⟨fun hne => absurd rfl hne, fun _ => rfl⟩

/-- **Two candidates**, of which the second move down leaves the last; and none, where a move up
underflows. -/
theorem not_sound_twoCandidates :
    ¬ Sound [.appendCandidate "a", .appendCandidate "b", .cursorDown, .cursorDown] default
      ∧ ¬ Sound [.cursorUp] (new 5 0 true true .system [] []) := by
  constructor
  · intro h
    -- the cursor is behind the last candidate in the end
    have hlast : CursorValid { default with cursorPos := 2, candidates := ["a", "b"] } :=
      (((h.2.2 _ rfl).2.2 _ rfl).2.2 _ rfl).2.2 _ rfl
    exact absurd (hlast.1 (by decide)) (by decide)
  · intro h
    exact h.2.1 rfl

/-! ## §5. The cursor within its page. -/

/-- The position of the first candidate of the current page. -/
def pageStart (table : IBusLookupTable) : Nat :=
  table.cursorPos.toNat - table.cursorPos.toNat % table.pageSize.toNat

/-- What is expected of a table in which the cursor was set to `pos`: it has moved if the page has
a candidate there, to that candidate; otherwise the table is left alone. -/
structure MovedTo (table : IBusLookupTable) (pos : UInt32) (table' : IBusLookupTable)
    (moved : Bool) : Prop where
  moved_iff : moved = true
    ↔ pos < table.pageSize ∧ table.pageStart + pos.toNat < table.candidates.length
  pos : moved = true → table'.getCursorPosInCurrentPage = .ok pos
  page : moved = true → table'.cursorPos / table'.pageSize = table.cursorPos / table.pageSize
  unchanged : moved = false → table' = table

/-- Setting the cursor does what is expected. -/
def MovesWithinPage (table : IBusLookupTable) (pos : UInt32) : Prop :=
  ∃ table' moved, table.setCursorPosInCurrentPage pos = .ok (table', moved)
    ∧ table.MovedTo pos table' moved

theorem exists_ok_iff {table' : IBusLookupTable} {pos : UInt32} {moved : Bool} :
    (∃ table'' moved', (Except.ok (table', moved) : Except ArithmeticError _)
        = .ok (table'', moved') ∧ table.MovedTo pos table'' moved')
      ↔ table.MovedTo pos table' moved := by
  constructor
  · intro h
    obtain ⟨_, _, heq, hmoved⟩ := h
    cases heq
    exact hmoved
  · intro h
    exact ⟨table', moved, rfl, h⟩

theorem getCursorPosInCurrentPage_eq (hpage : 1 ≤ table.pageSize) :
    table.getCursorPosInCurrentPage = .ok (table.cursorPos % table.pageSize) := by
  unfold getCursorPosInCurrentPage
  rw [if_neg]
  intro hzero
  rw [hzero] at hpage
  exact absurd hpage (by decide)

/-- A sum is at its first summand in the page iff the second one is 0. -/
theorem add_mod_eq_iff {p c page : Nat} (hp : p < page) (hc : c < page) :
    (p + c) % page = p ↔ c = 0 := by
  by_cases hlt : p + c < page
  · rw [Nat.mod_eq_of_lt hlt]
    omega
  · rw [Nat.mod_eq_sub_mod (by omega), Nat.mod_eq_of_lt (by omega)]
    omega

theorem movedTo_false_iff {pos : UInt32} :
    table.MovedTo pos table false
      ↔ ¬ (pos < table.pageSize ∧ table.pageStart + pos.toNat < table.candidates.length) := by
  constructor
  · intro h hthere
    exact absurd (h.moved_iff.mpr hthere) (by simp)
  · intro h
    exact ⟨iff_of_false (by simp) h, by simp, by simp, fun _ => rfl⟩

/-- **Where the sum that is computed is right**: it is so at the start of the table only. -/
theorem movedTo_true_iff {pos sum : UInt32} (hin : pos < table.pageSize)
    (hsum : sum.toNat = pos.toNat + table.cursorPos.toNat % table.pageSize.toNat) :
    table.MovedTo pos { table with cursorPos := sum } true
      ↔ table.cursorPos = 0 ∧ pos.toNat < table.candidates.length := by
  have hin' : pos.toNat < table.pageSize.toNat := hin
  have hpos : 0 < table.pageSize.toNat := by omega
  have hpage : 1 ≤ ({ table with cursorPos := sum } : IBusLookupTable).pageSize := hpos
  have hget : ({ table with cursorPos := sum } : IBusLookupTable).getCursorPosInCurrentPage
      = .ok pos ↔ table.cursorPos.toNat % table.pageSize.toNat = 0 := by
    rw [getCursorPosInCurrentPage_eq hpage, Except.ok.injEq, ← UInt32.toNat_inj, UInt32.toNat_mod]
    show sum.toNat % table.pageSize.toNat = pos.toNat ↔ _
    rw [hsum, add_mod_eq_iff hin' (Nat.mod_lt _ hpos)]
  have hindex : sum / table.pageSize = table.cursorPos / table.pageSize
      ↔ sum.toNat / table.pageSize.toNat = table.cursorPos.toNat / table.pageSize.toNat := by
    rw [← UInt32.toNat_inj, UInt32.toNat_div, UInt32.toNat_div]
  constructor
  · intro h
    have hzero := hget.mp (h.pos rfl)
    -- the sum is `pos` itself then, so the page is the first one
    have hfirst : table.cursorPos.toNat / table.pageSize.toNat = 0 := by
      rw [← hindex.mp (h.page rfl), hsum, hzero]
      exact Nat.div_eq_of_lt hin'
    have hcursor : table.cursorPos.toNat = 0 := by
      rw [← Nat.mod_eq_of_lt ((Nat.div_eq_zero_iff_lt hpos).mp hfirst)]
      exact hzero
    have hthere := (h.moved_iff.mp rfl).2
    unfold pageStart at hthere
    exact ⟨UInt32.toNat_inj.mp hcursor, by omega⟩
  · intro h
    obtain ⟨hcursor, hlt⟩ := h
    have hnat : table.cursorPos.toNat = 0 := by rw [hcursor]; rfl
    have hsame : sum.toNat = pos.toNat := by rw [hsum, hnat, Nat.zero_mod, Nat.add_zero]
    refine ⟨iff_of_true rfl ⟨hin, ?_⟩, fun _ => hget.mpr (by rw [hnat, Nat.zero_mod]),
      fun _ => hindex.mpr ?_, by simp⟩
    · unfold pageStart
      omega
    · rw [hsame, hnat, Nat.div_eq_of_lt hin', Nat.zero_div]

/-- A position in the page, where the sum that is computed leaves the range. -/
theorem not_movesWithinPage_of_error {pos : UInt32} {err : ArithmeticError}
    (hpage : 1 ≤ table.pageSize) (hin : pos < table.pageSize)
    (hadd : checkedAdd pos (table.cursorPos % table.pageSize) = .error err) :
    ¬ table.MovesWithinPage pos := by
  intro h
  obtain ⟨_, _, hset, _⟩ := h
  unfold setCursorPosInCurrentPage at hset
  rw [if_neg (UInt32.not_le.mpr hin), getCursorPosInCurrentPage_eq hpage] at hset
  simp only [hadd] at hset
  cases hset

/-- A position in the page, where the sum stays in the range. -/
theorem movesWithinPage_of_ok {pos sum : UInt32} (hpage : 1 ≤ table.pageSize)
    (hin : pos < table.pageSize)
    (hadd : checkedAdd pos (table.cursorPos % table.pageSize) = .ok sum)
    (hsum : sum.toNat = pos.toNat + table.cursorPos.toNat % table.pageSize.toNat) :
    table.MovesWithinPage pos
      ↔ (table.cursorPos = 0 ∧ pos < table.size)
        ∨ (table.size ≤ sum ∧ table.candidates.length ≤ table.pageStart + pos.toNat) := by
  have hzero : table.cursorPos = 0 → sum = pos := by
    intro hcursor
    rw [hcursor, show (0 : UInt32).toNat = 0 from rfl, Nat.zero_mod, Nat.add_zero] at hsum
    exact UInt32.toNat_inj.mp hsum
  unfold MovesWithinPage setCursorPosInCurrentPage
  rw [if_neg (UInt32.not_le.mpr hin), getCursorPosInCurrentPage_eq hpage]
  simp only [hadd]
  by_cases hsize : table.size ≤ sum
  · rw [if_pos hsize, exists_ok_iff, movedTo_false_iff, not_and, Nat.not_lt]
    constructor
    · intro h
      exact Or.inr ⟨hsize, h hin⟩
    · intro h _
      rcases h with ⟨hcursor, hlt⟩ | h
      · exact absurd (hzero hcursor ▸ hsize) (UInt32.not_le.mpr hlt)
      · exact h.2
  · rw [if_neg hsize, exists_ok_iff, movedTo_true_iff hin hsum, or_iff_left fun h => hsize h.1]
    have hlt : sum < table.size := UInt32.not_le.mp hsize
    have hlength : table.size.toNat ≤ table.candidates.length := toNat_size ▸ Nat.mod_le _ _
    constructor
    · intro h
      exact ⟨h.1, hzero h.1 ▸ hlt⟩
    · intro h
      have hpos : pos.toNat < table.size.toNat := h.2
      exact ⟨h.1, by omega⟩

/-- **When setting the cursor moves within the page.**  For every table with pages of at least one
candidate, and every position: the position is beyond the page; or the cursor is 0 and the
position is a candidate; or neither the sum that is computed nor the position in the page is
one. -/
theorem movesWithinPage_iff (table : IBusLookupTable) (hpage : 1 ≤ table.pageSize)
    (pos : UInt32) :
    table.MovesWithinPage pos
      ↔ table.pageSize ≤ pos
        ∨ (table.cursorPos = 0 ∧ pos < table.size)
        ∨ (pos.toNat + table.cursorPos.toNat % table.pageSize.toNat < 2 ^ 32
          ∧ table.size.toNat ≤ pos.toNat + table.cursorPos.toNat % table.pageSize.toNat
          ∧ table.candidates.length ≤ table.pageStart + pos.toNat) := by
  have hcurrent : (table.cursorPos % table.pageSize).toNat
      = table.cursorPos.toNat % table.pageSize.toNat := UInt32.toNat_mod _ _
  by_cases hbeyond : table.pageSize ≤ pos
  · unfold MovesWithinPage setCursorPosInCurrentPage
    rw [if_pos hbeyond, exists_ok_iff, movedTo_false_iff]
    exact iff_of_true (fun h => absurd hbeyond (UInt32.not_le.mpr h.1)) (Or.inl hbeyond)
  · rw [or_iff_right hbeyond]
    have hin : pos < table.pageSize := UInt32.not_le.mp hbeyond
    cases hadd : checkedAdd pos (table.cursorPos % table.pageSize) with
    | error err =>
        have hover : ¬ pos.toNat + table.cursorPos.toNat % table.pageSize.toNat < 2 ^ 32 := by
          intro hlt
          unfold checkedAdd at hadd
          rw [hcurrent, if_pos hlt] at hadd
          cases hadd
        refine iff_of_false (not_movesWithinPage_of_error hpage hin hadd) (fun h => ?_)
        rcases h with ⟨hzero, _⟩ | h
        · rw [hzero, show (0 : UInt32).toNat = 0 from rfl, Nat.zero_mod] at hover
          exact hover pos.toNat_lt
        · exact hover h.1
    | ok sum =>
        have hsum : sum.toNat = pos.toNat + table.cursorPos.toNat % table.pageSize.toNat := by
          rw [checkedAdd_eq_ok.mp hadd, hcurrent]
        have hlt := sum.toNat_lt
        rw [movesWithinPage_of_ok hpage hin hadd hsum, ← hsum, UInt32.le_iff_toNat_le,
          and_iff_right hlt]

/-- A table of twelve candidates, with the cursor on the eighth of them. -/
def twelve : IBusLookupTable :=
  { default with
    cursorPos := 7, candidates := ["a", "b", "c", "d", "e", "f", "g", "h", "i", "j", "k", "l"] }

/-- From the first candidate the cursor is moved, and not moved to where the page has ended. -/
theorem movesWithinPage_iff_twelve :
    { twelve with cursorPos := 0 }.setCursorPosInCurrentPage 3
        = .ok ({ twelve with cursorPos := 3 }, true)
      ∧ { twelve with cursorPos := 0 }.MovesWithinPage 3 ∧ twelve.MovesWithinPage 5 :=
  ⟨by decide, (movesWithinPage_iff _ (by decide) 3).mpr (.inr (.inl (by decide))),
    (movesWithinPage_iff twelve (by decide) 5).mpr (.inl (by decide))⟩

/-- **From the second page to the first**: the second position of the page is asked for. -/
theorem not_movesWithinPage_twelve :
    twelve.setCursorPosInCurrentPage 1 = .ok ({ twelve with cursorPos := 3 }, true)
      ∧ ¬ twelve.MovesWithinPage 1 := by
  have hset : twelve.setCursorPosInCurrentPage 1 = .ok ({ twelve with cursorPos := 3 }, true) := by
    decide
  refine ⟨hset, fun h => ?_⟩
  obtain ⟨table', moved, heq, hmoved⟩ := h
  rw [hset] at heq
  cases heq
  exact absurd (hmoved.page rfl) (by decide)

end IBusLookupTable

end Shinran
