/-
  Shinran.Windows
  ───────────────
  **REWRITING THE WINDOWS OF A LIST.**

  A scan from left to right looks at the window of a fixed width in front of
  it.  Where the window is a hit, the scan takes it, writes its replacement
  and goes on behind it; elsewhere it copies one element.

    • `taken`, `rewritten`  — the windows that the scan takes, and the list it
                              writes,
    • `length_rewritten`    — every window taken shortens the list alike,
    • `length_taken_le`     — no scan with fewer hits takes more windows,
    • `rewritten_append`    — a list is rewritten in parts, where no hit lies
                              across the seam,
    • `rewritten_eq_iff`    — two scans write the same exactly if they take the
                              same windows.
-/
import Mathlib.Data.List.Infix

namespace Windows

variable {α β : Type}

/-! ## §1. The scan. -/

section
variable (width : Nat) (hit : List α → Bool) (repl : List α → List α)

/-- The windows taken in a list whose first `skip` elements belong to the window before it. -/
def taken : (skip : Nat) → List α → List (List α)
  | _, [] => []
  | skip + 1, _ :: xs => taken skip xs
  | 0, x :: xs =>
      if hit ((x :: xs).take width) then (x :: xs).take width :: taken (width - 1) xs
      else taken 0 xs

/-- The list that the scan writes. -/
def rewritten : (skip : Nat) → List α → List α
  | _, [] => []
  | skip + 1, _ :: xs => rewritten skip xs
  | 0, x :: xs =>
      if hit ((x :: xs).take width) then
        repl ((x :: xs).take width) ++ rewritten (width - 1) xs
      else x :: rewritten 0 xs

end

section
variable {width : Nat} {hit hit' : List α → Bool} {repl : List α → List α}

theorem taken_cons_of_hit {x : α} {xs : List α} (h : hit ((x :: xs).take width) = true) :
    taken width hit 0 (x :: xs) = (x :: xs).take width :: taken width hit (width - 1) xs := by
  rw [taken, if_pos h]

theorem taken_cons_of_not_hit {x : α} {xs : List α} (h : hit ((x :: xs).take width) = false) :
    taken width hit 0 (x :: xs) = taken width hit 0 xs := by
  rw [taken, if_neg (by simp [h])]

theorem rewritten_cons_of_hit {x : α} {xs : List α} (h : hit ((x :: xs).take width) = true) :
    rewritten width hit repl 0 (x :: xs)
      = repl ((x :: xs).take width) ++ rewritten width hit repl (width - 1) xs := by
  rw [rewritten, if_pos h]

theorem rewritten_cons_of_not_hit {x : α} {xs : List α}
    (h : hit ((x :: xs).take width) = false) :
    rewritten width hit repl 0 (x :: xs) = x :: rewritten width hit repl 0 xs := by
  rw [rewritten, if_neg (by simp [h])]

/-- What is taken is a hit, and stands in the list. -/
theorem mem_taken {w : List α} : ∀ {skip : Nat} {xs : List α}, w ∈ taken width hit skip xs →
    hit w = true ∧ w <:+: xs
  | _, [], h => by simp [taken] at h
  | skip + 1, x :: xs, h => by
      have hw := mem_taken (show w ∈ taken width hit skip xs from h)
      exact ⟨hw.1, List.infix_cons hw.2⟩
  | 0, x :: xs, h => by
      cases hhit : hit ((x :: xs).take width) with
      | true =>
          rw [taken_cons_of_hit hhit, List.mem_cons] at h
          cases h with
          | inl heq =>
              rw [heq]
              exact ⟨hhit, (List.take_prefix _ _).isInfix⟩
          | inr hmem => exact ⟨(mem_taken hmem).1, List.infix_cons (mem_taken hmem).2⟩
      | false =>
          rw [taken_cons_of_not_hit hhit] at h
          exact ⟨(mem_taken h).1, List.infix_cons (mem_taken h).2⟩

/-! ## §2. Lists without a hit. -/

/-- Where nothing is taken, nothing is changed. -/
theorem rewritten_of_taken_eq_nil : ∀ {xs : List α}, taken width hit 0 xs = [] →
    rewritten width hit repl 0 xs = xs
  | [], _ => rfl
  | x :: xs, h => by
      cases hhit : hit ((x :: xs).take width) with
      | true => simp [taken_cons_of_hit hhit] at h
      | false =>
          rw [taken_cons_of_not_hit hhit] at h
          rw [rewritten_cons_of_not_hit hhit, rewritten_of_taken_eq_nil h]

/-- Nothing is taken iff no hit occurs anywhere. -/
theorem taken_eq_nil_iff (hlength : ∀ w, hit w = true → w.length = width) (hwidth : 0 < width) :
    ∀ {xs : List α}, taken width hit 0 xs = [] ↔ ∀ w, hit w = true → ¬ w <:+: xs
  | [] => by
      refine iff_of_true rfl fun w hw hwithin => ?_
      have hnil := List.infix_nil.mp hwithin
      have hlen := hlength w hw
      rw [hnil, List.length_nil] at hlen
      omega
  | x :: xs => by
      -- a hit occurs at the head, or behind it
      have hbegins : ∀ w, hit w = true → (w <+: x :: xs ↔ (x :: xs).take width = w) := by
        intro w hw
        rw [List.prefix_iff_eq_take, hlength w hw, eq_comm]
      cases hhit : hit ((x :: xs).take width) with
      | true =>
          rw [taken_cons_of_hit hhit]
          refine iff_of_false (by simp) fun h => h _ hhit ?_
          exact ((hbegins _ hhit).mpr rfl).isInfix
      | false =>
          rw [taken_cons_of_not_hit hhit, taken_eq_nil_iff hlength hwidth]
          constructor
          · intro h w hw hwithin
            rcases List.infix_cons_iff.mp hwithin with hhead | htail
            · rw [← (hbegins w hw).mp hhead, hhit] at hw
              cases hw
            · exact h w hw htail
          · intro h w hw htail
            exact h w hw (htail.trans (List.infix_cons (List.infix_refl xs)))

/-! ## §3. How many windows are taken. -/

/-- **Every window taken shortens the list alike.** -/
theorem length_rewritten {cut : Nat} (hwidth : 0 < width)
    (hcut : ∀ w, hit w = true → w.length = width ∧ (repl w).length + cut = width) :
    ∀ (skip : Nat) (xs : List α),
      (rewritten width hit repl skip xs).length + cut * (taken width hit skip xs).length
        = xs.length - skip
  | skip, [] => by simp [rewritten, taken]
  | skip + 1, x :: xs => by
      show (rewritten width hit repl skip xs).length + cut * (taken width hit skip xs).length = _
      rw [length_rewritten hwidth hcut skip xs, List.length_cons]
      omega
  | 0, x :: xs => by
      cases hhit : hit ((x :: xs).take width) with
      | true =>
          have ih := length_rewritten hwidth hcut (width - 1) xs
          obtain ⟨hlength, hrepl⟩ := hcut _ hhit
          rw [rewritten_cons_of_hit hhit, taken_cons_of_hit hhit, List.length_append,
            List.length_cons, Nat.mul_succ]
          rw [List.length_take, List.length_cons] at hlength
          rw [List.length_cons]
          omega
      | false =>
          have ih := length_rewritten hwidth hcut 0 xs
          rw [rewritten_cons_of_not_hit hhit, taken_cons_of_not_hit hhit, List.length_cons,
            List.length_cons]
          omega

/-- What a scan does with the first element: it is skipped or copied, or a window is taken. -/
theorem length_taken_cons (skip : Nat) (x : α) (xs : List α) :
    ((taken width hit skip (x :: xs)).length = (taken width hit (skip - 1) xs).length
        ∧ (skip = 0 → hit ((x :: xs).take width) = false))
      ∨ (skip = 0 ∧ hit ((x :: xs).take width) = true
        ∧ (taken width hit skip (x :: xs)).length
          = (taken width hit (width - 1) xs).length + 1) := by
  cases skip with
  | succ skip => exact Or.inl ⟨rfl, by omega⟩
  | zero =>
      cases hhit : hit ((x :: xs).take width) with
      | true => exact Or.inr ⟨rfl, rfl, by rw [taken_cons_of_hit hhit, List.length_cons]⟩
      | false => exact Or.inl ⟨by rw [taken_cons_of_not_hit hhit], fun _ => rfl⟩

/-- A scan with fewer hits is never ahead of this one, even if it starts earlier; and by one
window at most if it starts later. -/
theorem length_taken_le_aux (hwidth : 0 < width) (hsub : ∀ w, hit' w = true → hit w = true)
    (xs : List α) :
    ∀ skip skip' : Nat,
      (skip ≤ skip' → (taken width hit' skip' xs).length ≤ (taken width hit skip xs).length)
        ∧ (skip < width →
          (taken width hit' skip' xs).length ≤ (taken width hit skip xs).length + 1) := by
  induction xs with
  | nil => simp [taken]
  | cons x xs ih =>
      intro skip skip'
      rcases @length_taken_cons α width hit skip x xs with ⟨heq, hnot⟩ | ⟨hzero, _, heq⟩
      · rcases @length_taken_cons α width hit' skip' x xs with ⟨heq', _⟩ | ⟨hzero', hhit', heq'⟩
        · have hrest := ih (skip - 1) (skip' - 1)
          omega
        · -- this scan is still in the window before, while the other one takes its next window
          have hne : skip ≠ 0 := fun hzero => by
            rw [hsub _ hhit'] at hnot
            cases hnot hzero
          have hrest := ih (skip - 1) (width - 1)
          omega
      · rcases @length_taken_cons α width hit' skip' x xs with ⟨heq', _⟩ | ⟨hzero', _, heq'⟩
        · have hrest := ih (width - 1) (skip' - 1)
          omega
        · have hrest := ih (width - 1) (width - 1)
          omega

/-- **No scan with fewer hits takes more windows.** -/
theorem length_taken_le (hwidth : 0 < width) (hsub : ∀ w, hit' w = true → hit w = true)
    (xs : List α) : (taken width hit' 0 xs).length ≤ (taken width hit 0 xs).length :=
  (length_taken_le_aux hwidth hsub xs 0 0).1 (Nat.le_refl _)

/-! ## §4. Renaming, seams and comparison. -/

/-- Renaming the elements of a list renames the windows taken. -/
theorem taken_map {hit : List β → Bool} (f : α → β) : ∀ (skip : Nat) (xs : List α),
    (taken width (fun w => hit (w.map f)) skip xs).map (List.map f)
      = taken width hit skip (xs.map f)
  | _, [] => by simp [taken]
  | skip + 1, x :: xs => taken_map f skip xs
  | 0, x :: xs => by
      have hwindow : ((x :: xs).take width).map f = (f x :: xs.map f).take width := by
        rw [List.map_take, List.map_cons]
      rw [List.map_cons, taken, taken, hwindow]
      split
      · rw [List.map_cons, hwindow, taken_map f (width - 1) xs]
      · exact taken_map f 0 xs

/-- Renaming before the scan is renaming behind it. -/
theorem rewritten_map {hit : List β → Bool} {repl' : List β → List β} {f : α → β}
    (hrepl : ∀ w, (repl w).map f = repl' (w.map f)) : ∀ (skip : Nat) (xs : List α),
    (rewritten width (fun w => hit (w.map f)) repl skip xs).map f
      = rewritten width hit repl' skip (xs.map f)
  | _, [] => by simp [rewritten]
  | skip + 1, x :: xs => rewritten_map hrepl skip xs
  | 0, x :: xs => by
      have hwindow : ((x :: xs).take width).map f = (f x :: xs.map f).take width := by
        rw [List.map_take, List.map_cons]
      rw [List.map_cons, rewritten, rewritten, hwindow]
      split
      · rw [List.map_append, hrepl, hwindow, rewritten_map hrepl (width - 1) xs]
      · rw [List.map_cons, rewritten_map hrepl 0 xs]

/-- **A list is rewritten in parts**, where no window that reaches across the seam is a hit. -/
theorem rewritten_append {ys : List α} : ∀ {skip : Nat} {xs : List α}, skip ≤ xs.length →
    (∀ pre post, xs = pre ++ post → post ≠ [] → post.length < width →
      hit post = false ∧ hit ((post ++ ys).take width) = false) →
    rewritten width hit repl skip (xs ++ ys)
      = rewritten width hit repl skip xs ++ rewritten width hit repl 0 ys
  | 0, [], _, _ => by simp [rewritten]
  | skip + 1, [], h, _ => absurd h (by simp)
  | skip + 1, x :: xs, h, hseam => by
      show rewritten width hit repl skip (xs ++ ys) = rewritten width hit repl skip xs ++ _
      refine rewritten_append (by simpa using h) fun pre post heq => ?_
      exact hseam (x :: pre) post (by rw [heq, List.cons_append])
  | 0, x :: xs, _, hseam => by
      have htail : ∀ pre post, xs = pre ++ post → post ≠ [] → post.length < width →
          hit post = false ∧ hit ((post ++ ys).take width) = false := fun pre post heq =>
        hseam (x :: pre) post (by rw [heq, List.cons_append])
      -- the window in front lies in the first part, or it is no hit
      have hwindow : hit ((x :: xs ++ ys).take width) = hit ((x :: xs).take width)
          ∧ (hit ((x :: xs).take width) = true → width ≤ xs.length + 1) := by
        by_cases hlength : width ≤ (x :: xs).length
        · exact ⟨by rw [List.take_append_of_le_length hlength], fun _ => hlength⟩
        · obtain ⟨hshort, hacross⟩ := hseam [] (x :: xs) rfl (by simp) (by omega)
          rw [List.take_of_length_le (l := x :: xs) (by omega), hshort, hacross]
          exact ⟨rfl, fun h => absurd h (by simp)⟩
      cases hhit : hit ((x :: xs).take width) with
      | true =>
          have hle := hwindow.2 hhit
          have htake : ((x :: xs) ++ ys).take width = (x :: xs).take width :=
            List.take_append_of_le_length hle
          rw [rewritten_cons_of_hit hhit, List.cons_append, rewritten_cons_of_hit
            (by rw [← List.cons_append, htake, hhit]), ← List.cons_append, htake,
            rewritten_append (by omega) htail, List.append_assoc]
      | false =>
          rw [rewritten_cons_of_not_hit hhit, List.cons_append, rewritten_cons_of_not_hit
            (by rw [← List.cons_append, hwindow.1, hhit]),
            rewritten_append (Nat.zero_le _) htail, List.cons_append]

/-- **Two scans write the same exactly if they take the same windows**: if a replacement never
begins like its window, and the one scan has no hits beyond those of the other. -/
theorem rewritten_eq_iff {f : α → β} (hsub : ∀ w, hit' w = true → hit w = true)
    (hhead : ∀ x w, hit (x :: w) = true → ∃ y w', repl (x :: w) = y :: w' ∧ f y ≠ f x)
    (hwidth : 0 < width) :
    ∀ (skip : Nat) (xs : List α),
      (rewritten width hit repl skip xs).map f = (rewritten width hit' repl skip xs).map f
        ↔ ∀ w ∈ taken width hit skip xs, hit' w = true
  | _, [] => by simp [rewritten, taken]
  | skip + 1, x :: xs => by
      show (rewritten width hit repl skip xs).map f = (rewritten width hit' repl skip xs).map f
        ↔ ∀ w ∈ taken width hit skip xs, hit' w = true
      exact rewritten_eq_iff hsub hhead hwidth skip xs
  | 0, x :: xs => by
      cases hhit' : hit' ((x :: xs).take width) with
      | true =>
          have hhit := hsub _ hhit'
          rw [rewritten_cons_of_hit hhit, rewritten_cons_of_hit hhit', taken_cons_of_hit hhit,
            List.map_append, List.map_append, List.append_cancel_left_eq, List.forall_mem_cons,
            rewritten_eq_iff hsub hhead hwidth (width - 1) xs]
          exact ⟨fun h => ⟨hhit', h⟩, fun h => h.2⟩
      | false =>
          rw [rewritten_cons_of_not_hit hhit', List.map_cons]
          cases hhit : hit ((x :: xs).take width) with
          | true =>
              -- the replacement differs from the copied element at once
              rw [rewritten_cons_of_hit hhit, taken_cons_of_hit hhit, List.forall_mem_cons]
              refine iff_of_false (fun heq => ?_) fun h => ?_
              · obtain ⟨width, rfl⟩ : ∃ w, width = w + 1 := ⟨width - 1, by omega⟩
                rw [List.take_succ_cons] at hhit
                obtain ⟨y, w', hrepl, hne⟩ := hhead _ _ hhit
                rw [List.take_succ_cons, hrepl] at heq
                exact hne (List.cons.inj heq).1
              · rw [hhit'] at h
                cases h.1
          | false =>
              rw [rewritten_cons_of_not_hit hhit, taken_cons_of_not_hit hhit, List.map_cons,
                List.cons_inj_right, rewritten_eq_iff hsub hhead hwidth 0 xs]

end

end Windows
