/-
  Shinran.Inquiry
  ───────────────
  **PROGRAMS THAT ASK QUESTIONS.**

  A program asks its surroundings one question after another and goes on with
  the answers.  Between two questions the surroundings may change, so a run of
  a program is known by its transcript: the questions with their answers.

    • `Program.Follows`, `Program.Returns` — what is left of a program, and
                                  what it returns, after a transcript,
    • `returns_bind_iff`, `returns_ok_bind_iff` — transcripts of programs in
                                  sequence,
    • `Program.Ensures`, `Ensures.bind` — what holds however the questions are
                                  answered,
    • `Program.eval`            — surroundings that do not change,
    • `Returns.eq_eval`         — which answer as the transcript says,
    • `Program.attempt`, `attempt_bind` — surroundings that fail at some
                                  questions.
-/
import Mathlib.Control.Basic
import Mathlib.Data.List.Basic
import Shinran.Fallible

namespace Inquiry

/-- A program that asks questions of `Q`, answered in `A`, and returns an `α`. -/
inductive Program (Q : Type) (A : Q → Type) (α : Type) : Type
  | done (a : α)
  | ask (q : Q) (rest : A q → Program Q A α)

/-- The questions that have been asked, with their answers. -/
abbrev Transcript (Q : Type) (A : Q → Type) := List (Σ q, A q)

variable {Q : Type} {A : Q → Type} {α β ε : Type}

namespace Program

/-! ## §1. Programs in sequence. -/

def bind : Program Q A α → (α → Program Q A β) → Program Q A β
  | .done a, f => f a
  | .ask q rest, f => .ask q fun answer => (rest answer).bind f

instance : Monad (Program Q A) where
  pure := .done
  bind := .bind

theorem bind_done (p : Program Q A α) : p.bind .done = p := by
  induction p with
  | done a => rfl
  | ask q rest ih => exact congrArg _ (funext ih)

theorem bind_assoc {γ : Type} (p : Program Q A α) (f : α → Program Q A β)
    (g : β → Program Q A γ) : (p.bind f).bind g = p.bind fun a => (f a).bind g := by
  induction p with
  | done a => rfl
  | ask q rest ih => exact congrArg _ (funext ih)

instance : LawfulMonad (Program Q A) :=
  .mk' _ (fun p => bind_done p) (fun _ _ => rfl) (fun p f g => bind_assoc p f g)

/-- The program that asks one question. -/
def question (q : Q) : Program Q A (A q) := .ask q .done

/-! ## §2. Transcripts. -/

/-- `Follows p transcript p'`: of `p`, once the transcript is written, `p'` is left. -/
inductive Follows : Program Q A α → Transcript Q A → Program Q A α → Prop
  | refl (p : Program Q A α) : Follows p [] p
  | ask {q : Q} {rest : A q → Program Q A α} {answer : A q} {transcript : Transcript Q A}
      {p' : Program Q A α} : Follows (rest answer) transcript p' →
      Follows (.ask q rest) (⟨q, answer⟩ :: transcript) p'

/-- `Returns p transcript a`: with that transcript, `p` returns `a`. -/
def Returns (p : Program Q A α) (transcript : Transcript Q A) (a : α) : Prop :=
  Follows p transcript (.done a)

theorem Follows.snoc {p : Program Q A α} {transcript : Transcript Q A} {q : Q}
    {rest : A q → Program Q A α} (h : p.Follows transcript (.ask q rest)) (answer : A q) :
    p.Follows (transcript ++ [⟨q, answer⟩]) (rest answer) := by
  generalize hleft : Program.ask q rest = left at h
  induction h with
  | refl p =>
      subst hleft
      exact .ask (.refl _)
  | ask _ ih => exact .ask (ih hleft)

@[simp] theorem returns_done_iff {a b : α} {transcript : Transcript Q A} :
    (done a : Program Q A α).Returns transcript b ↔ transcript = [] ∧ a = b := by
  constructor
  · intro h
    cases h
    exact ⟨rfl, rfl⟩
  · intro h
    obtain ⟨rfl, rfl⟩ := h
    exact .refl _

@[simp] theorem returns_pure_iff {a b : α} {transcript : Transcript Q A} :
    (pure a : Program Q A α).Returns transcript b ↔ transcript = [] ∧ a = b := returns_done_iff

theorem returns_ask_iff {q : Q} {rest : A q → Program Q A α} {transcript : Transcript Q A}
    {a : α} : (ask q rest).Returns transcript a
      ↔ ∃ answer tail, transcript = ⟨q, answer⟩ :: tail ∧ (rest answer).Returns tail a := by
  constructor
  · intro h
    cases h with
    | ask h => exact ⟨_, _, rfl, h⟩
  · intro h
    obtain ⟨answer, tail, rfl, h⟩ := h
    exact .ask h

@[simp] theorem returns_question_iff {q : Q} {transcript : Transcript Q A} {answer : A q} :
    (question q : Program Q A _).Returns transcript answer ↔ transcript = [⟨q, answer⟩] := by
  unfold question
  rw [returns_ask_iff]
  simp only [returns_done_iff]
  constructor
  · rintro ⟨_, _, rfl, rfl, rfl⟩
    rfl
  · intro h
    exact ⟨answer, [], h, rfl, rfl⟩

/-- **Programs in sequence** write their transcripts in sequence. -/
theorem returns_bind_iff {p : Program Q A α} {f : α → Program Q A β}
    {transcript : Transcript Q A} {b : β} : (p >>= f).Returns transcript b
      ↔ ∃ first second a, transcript = first ++ second ∧ p.Returns first a
        ∧ (f a).Returns second b := by
  induction p generalizing transcript with
  | done a =>
      constructor
      · intro h
        exact ⟨[], transcript, a, rfl, .refl _, h⟩
      · intro h
        obtain ⟨first, second, a', rfl, hfirst, hsecond⟩ := h
        obtain ⟨rfl, rfl⟩ := returns_done_iff.mp hfirst
        exact hsecond
  | ask q rest ih =>
      show (ask q fun answer => rest answer >>= f).Returns transcript b ↔ _
      rw [returns_ask_iff]
      constructor
      · intro h
        obtain ⟨answer, tail, rfl, h⟩ := h
        obtain ⟨first, second, a, rfl, hfirst, hsecond⟩ := (ih answer).mp h
        exact ⟨⟨q, answer⟩ :: first, second, a, rfl, .ask hfirst, hsecond⟩
      · intro h
        obtain ⟨first, second, a, rfl, hfirst, hsecond⟩ := h
        obtain ⟨answer, tail, rfl, hrest⟩ := returns_ask_iff.mp hfirst
        exact ⟨answer, tail ++ second, rfl, (ih answer).mpr ⟨tail, second, a, rfl, hrest, hsecond⟩⟩

theorem returns_map_iff {p : Program Q A α} {f : α → β} {transcript : Transcript Q A} {b : β} :
    (f <$> p).Returns transcript b ↔ ∃ a, p.Returns transcript a ∧ f a = b := by
  rw [map_eq_pure_bind, returns_bind_iff]
  constructor
  · intro h
    obtain ⟨first, second, a, rfl, hfirst, hsecond⟩ := h
    obtain ⟨rfl, hb⟩ := returns_pure_iff.mp hsecond
    exact ⟨a, by simpa using hfirst, hb⟩
  · intro h
    obtain ⟨a, h, hb⟩ := h
    exact ⟨transcript, [], a, by simp, h, returns_pure_iff.mpr ⟨rfl, hb⟩⟩

theorem returns_liftM_iff {p : Program Q A α} {transcript : Transcript Q A} {a : α} :
    (liftM p : ExceptT ε (Program Q A) α).run.Returns transcript (.ok a)
      ↔ p.Returns transcript a := by
  show (Except.ok <$> p).Returns transcript _ ↔ _
  rw [returns_map_iff]
  simp

/-- Each result of a loop is that of one of its rounds. -/
theorem exists_of_returns_mapM {f : α → Program Q A β} {l : List α} {results : List β}
    {transcript : Transcript Q A} (h : (l.mapM f).Returns transcript results) :
    ∀ b ∈ results, ∃ a ∈ l, ∃ part, part ⊆ transcript ∧ (f a).Returns part b := by
  induction l generalizing transcript results with
  | nil =>
      obtain ⟨_, rfl⟩ := returns_pure_iff.mp h
      simp
  | cons a l ih =>
      rw [List.mapM_cons] at h
      obtain ⟨first, _, b, rfl, hfirst, h⟩ := returns_bind_iff.mp h
      obtain ⟨second, _, rest, rfl, hrest, h⟩ := returns_bind_iff.mp h
      obtain ⟨rfl, rfl⟩ := returns_pure_iff.mp h
      rw [List.forall_mem_cons, List.append_nil]
      refine ⟨⟨a, List.mem_cons_self, first, List.subset_append_left _ _, hfirst⟩, ?_⟩
      intro b' hb'
      obtain ⟨a', ha', part, hpart, hreturns⟩ := ih hrest b' hb'
      exact ⟨a', List.mem_cons_of_mem _ ha', part,
        List.Subset.trans hpart (List.subset_append_right _ _), hreturns⟩

/-- A sequence of programs that may fail succeeds if both parts do. -/
theorem returns_ok_bind_iff {p : ExceptT ε (Program Q A) α} {f : α → ExceptT ε (Program Q A) β}
    {transcript : Transcript Q A} {b : β} : (p >>= f).run.Returns transcript (.ok b)
      ↔ ∃ first second a, transcript = first ++ second ∧ p.run.Returns first (.ok a)
        ∧ (f a).run.Returns second (.ok b) := by
  rw [ExceptT.run_bind, returns_bind_iff]
  constructor
  · intro h
    obtain ⟨first, second, result, heq, hfirst, hsecond⟩ := h
    cases result with
    | ok a => exact ⟨first, second, a, heq, hfirst, hsecond⟩
    | error err => cases (returns_pure_iff.mp hsecond).2
  · intro h
    obtain ⟨first, second, a, heq, hfirst, hsecond⟩ := h
    exact ⟨first, second, .ok a, heq, hfirst, hsecond⟩

/-! ## §3. What holds however the questions are answered. -/

/-- `Ensures p post`: whatever the answers, what `p` writes and returns is as in `post`. -/
def Ensures (p : Program Q A α) (post : Transcript Q A → α → Prop) : Prop :=
  ∀ transcript a, p.Returns transcript a → post transcript a

section Ensures

variable {post : Transcript Q A → α → Prop}

theorem ensures_pure_iff {a : α} : (pure a : Program Q A α).Ensures post ↔ post [] a := by
  constructor
  · intro h
    exact h [] a (returns_pure_iff.mpr ⟨rfl, rfl⟩)
  · intro h transcript b hreturns
    obtain ⟨rfl, rfl⟩ := returns_pure_iff.mp hreturns
    exact h

/-- **The rule of sequence**: the second program starts from what the first one ensures. -/
theorem Ensures.bind {p : Program Q A β} {f : β → Program Q A α}
    {mid : Transcript Q A → β → Prop} (hp : p.Ensures mid)
    (hf : ∀ first b, mid first b → (f b).Ensures fun second a => post (first ++ second) a) :
    (p >>= f).Ensures post := by
  intro transcript a hreturns
  obtain ⟨first, second, b, rfl, hfirst, hsecond⟩ := returns_bind_iff.mp hreturns
  exact hf first b (hp first b hfirst) second a hsecond

/-- The rule of consequence. -/
theorem Ensures.mono {p : Program Q A α} {post' : Transcript Q A → α → Prop}
    (hp : p.Ensures post) (h : ∀ transcript a, post transcript a → post' transcript a) :
    p.Ensures post' :=
  fun transcript a hreturns => h transcript a (hp transcript a hreturns)

end Ensures

/-! ## §4. Surroundings that do not change. -/

/-- What a program returns if every question is answered at once, always in the same way. -/
def eval (answers : ∀ q, A q) : Program Q A α → α
  | .done a => a
  | .ask q rest => (rest (answers q)).eval answers

/-- The questions that are asked then. -/
def log (answers : ∀ q, A q) : Program Q A α → Transcript Q A
  | .done _ => []
  | .ask q rest => ⟨q, answers q⟩ :: (rest (answers q)).log answers

section Eval

variable (answers : ∀ q, A q)

@[simp] theorem eval_pure (a : α) : (pure a : Program Q A α).eval answers = a := rfl

@[simp] theorem eval_question (q : Q) :
    (question q : Program Q A _).eval answers = answers q := rfl

@[simp] theorem eval_bind (p : Program Q A α) (f : α → Program Q A β) :
    (p >>= f).eval answers = (f (p.eval answers)).eval answers := by
  induction p with
  | done a => rfl
  | ask q rest ih => exact ih _

@[simp] theorem eval_map (p : Program Q A α) (f : α → β) :
    (f <$> p).eval answers = f (p.eval answers) := by
  rw [map_eq_pure_bind, eval_bind, eval_pure]

@[simp] theorem eval_mapM (f : α → Program Q A β) (l : List α) :
    (l.mapM f).eval answers = l.map fun a => (f a).eval answers := by
  induction l with
  | nil => rfl
  | cons a l ih => simp [List.mapM_cons, ih]

@[simp] theorem eval_run_bind (p : ExceptT ε (Program Q A) α)
    (f : α → ExceptT ε (Program Q A) β) : (p >>= f).run.eval answers
      = p.run.eval answers >>= fun a => (f a).run.eval answers := by
  rw [ExceptT.run_bind, eval_bind]
  cases p.run.eval answers <;> rfl

/-- Unchanging surroundings lead to a transcript. -/
theorem returns_log (p : Program Q A α) : p.Returns (p.log answers) (p.eval answers) := by
  induction p with
  | done a => exact .refl _
  | ask q rest ih => exact .ask (ih (answers q))

/-- **A transcript with the answers of unchanging surroundings** ends as in them. -/
theorem Returns.eq_eval {answers : ∀ q, A q} {p : Program Q A α} {transcript : Transcript Q A}
    {a : α} (h : p.Returns transcript a)
    (hanswers : ∀ entry ∈ transcript, entry.2 = answers entry.1) : a = p.eval answers := by
  induction p generalizing transcript with
  | done b => exact (returns_done_iff.mp h).2.symm
  | ask q rest ih =>
      obtain ⟨answer, tail, rfl, hrest⟩ := returns_ask_iff.mp h
      rw [List.forall_mem_cons] at hanswers
      obtain ⟨hanswer, htail⟩ := hanswers
      obtain rfl : answer = answers q := hanswer
      exact ih _ hrest htail

end Eval

/-! ## §5. Surroundings that may fail. -/

/-- What a program returns if some of its questions end it. -/
def attempt (answers : ∀ q, Except ε (A q)) : Program Q A α → Except ε α
  | .done a => .ok a
  | .ask q rest =>
      match answers q with
      | .ok answer => (rest answer).attempt answers
      | .error err => .error err

section Attempt

variable {answers : ∀ q, Except ε (A q)}

@[simp] theorem attempt_pure (a : α) : (pure a : Program Q A α).attempt answers = .ok a := rfl

@[simp] theorem attempt_question (q : Q) :
    (question q : Program Q A _).attempt answers = answers q := by
  unfold question attempt
  cases answers q <;> rfl

@[simp] theorem attempt_bind (p : Program Q A α) (f : α → Program Q A β) :
    (p >>= f).attempt answers = p.attempt answers >>= fun a => (f a).attempt answers := by
  induction p with
  | done a => rfl
  | ask q rest ih =>
      show (ask q fun answer => rest answer >>= f).attempt answers = _
      simp only [attempt]
      cases answers q with
      | ok answer => exact ih answer
      | error err => rfl

@[simp] theorem attempt_map (p : Program Q A α) (f : α → β) :
    (f <$> p).attempt answers = (p.attempt answers).map f := by
  rw [map_eq_pure_bind, attempt_bind]
  cases p.attempt answers <;> rfl

/-- A program that returns has had all of its questions answered. -/
theorem exists_of_attempt_ok {p : Program Q A α} {a : α} (h : p.attempt answers = .ok a) :
    ∃ transcript, p.Returns transcript a
      ∧ ∀ entry ∈ transcript, answers entry.1 = .ok entry.2 := by
  induction p with
  | done b =>
      obtain rfl := Except.ok.inj h
      exact ⟨[], .refl _, nofun⟩
  | ask q rest ih =>
      unfold attempt at h
      split at h
      · rename_i answer hanswer
        obtain ⟨transcript, hreturns, hall⟩ := ih answer h
        exact ⟨⟨q, answer⟩ :: transcript, .ask hreturns, List.forall_mem_cons.mpr ⟨hanswer, hall⟩⟩
      · cases h

/-- **A program that is ended** has come to a question, which it also asks in surroundings that
answer all of them. -/
theorem exists_of_attempt_error (default : ∀ q, A q) {p : Program Q A α} {err : ε}
    (h : p.attempt answers = .error err) :
    ∃ transcript a, p.Returns transcript a
      ∧ ∃ entry ∈ transcript, answers entry.1 = .error err := by
  induction p with
  | done b => cases h
  | ask q rest ih =>
      unfold attempt at h
      split at h
      · rename_i answer hanswer
        obtain ⟨transcript, a, hreturns, entry, hentry, herror⟩ := ih answer h
        exact ⟨⟨q, answer⟩ :: transcript, a, .ask hreturns, entry,
          List.mem_cons_of_mem _ hentry, herror⟩
      · rename_i err' herror
        obtain rfl := Except.error.inj h
        exact ⟨_, _, .ask (returns_log default (rest (default q))), ⟨q, default q⟩,
          List.mem_cons_self, herror⟩

end Attempt

end Program

end Inquiry
