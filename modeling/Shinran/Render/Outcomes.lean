/-
  Shinran.Render.Outcomes
  ───────────────────────
  **WHAT A TEMPLATE MAY RENDER TO.**

  The extensions of `Renderer::new` are what they are, but the system on which
  they run answers differently from moment to moment: its clock, its dice, the
  output of its programs.  Its operating system and its date library stay.

    • `MayAnswer`   — the texts with which an extension may answer, read off its
                      params,
    • `MayRender`   — the texts to which a template may render, built up from
                      those of its variables,
    • `ensures_mayRender` — a rendering comes to no other text,
    • `exists_setting`    — and to each of these at some moments, in some hash
                      orders,
    • `mayRender_iff` — so these are the outcomes of the template.
-/
import Mathlib.Data.Finset.Lattice.Fold
import Shinran.Render.ExtensionPanics

namespace Shinran

open Inquiry

variable [UnicodeTables] {δ τ : Type}

/-! ## §1. What an extension may answer. -/

omit [UnicodeTables] in
/-- Two moments of one system. -/
structure SameSystem (system moment : ExtensionRuntime δ τ) : Prop where
  targetOs : moment.targetOs = system.targetOs
  chrono : moment.chrono = system.chrono

/-- What is made of the output of a program. -/
def writtenText (params : Params) (stdout : String) : String :=
  if params.getBool "trim" true then trim stdout else stdout

omit [UnicodeTables] in
/-- The params name a shell that there is, or none where the system has one. -/
structure ShellUsable (system : ExtensionRuntime δ τ) (params : Params) : Prop where
  named : ∀ name, params.get "shell" = some (.string name) → (Shell.fromString name).isSome
  unnamed : (∀ name, params.get "shell" ≠ some (.string name)) → system.targetOs ≠ .other

/-- `MayAnswer system params varType text`: for these params, the extension of that type answers
with the text at some moment. -/
inductive MayAnswer (system : ExtensionRuntime δ τ) (params : Params) : VarType → String → Prop
  | echo {text : String} : params.get "echo" = some (.string text) →
      MayAnswer system params .echo text
  | random {choices : List Value} {text : String} :
      params.get "choices" = some (.array choices) → .string text ∈ choices →
      MayAnswer system params .random text
  | formatted {moment : ExtensionRuntime δ τ} {date : δ} {format text : String} :
      SameSystem system moment → ShiftsTo moment params date →
      params.get "format" = some (.string format) →
      moment.chrono.formatLocalized date format (dateLocale moment params) = some text →
      MayAnswer system params .date text
  | unformatted {moment : ExtensionRuntime δ τ} {date : δ} {text : String} :
      SameSystem system moment → ShiftsTo moment params date →
      (∀ format, params.get "format" ≠ some (.string format)) →
      moment.chrono.toRfc2822 date = some text →
      MayAnswer system params .date text
  | shell {cmd : String} (stdout : String) : params.get "cmd" = some (.string cmd) →
      ShellUsable system params → MayAnswer system params .shell (writtenText params stdout)
  | script {args : List Value} {program : String} (stdout : String) :
      params.get "args" = some (.array args) → .string program ∈ args →
      MayAnswer system params .script (writtenText params stdout)

section Answers

variable {system moment : ExtensionRuntime δ τ} {params : Params} {output : ExtensionOutput}

omit [UnicodeTables] in
theorem EchoExtension.eq_of_calculate
    (h : EchoExtension.calculate params = .ok (.success output)) :
    ∃ text, output = .single text ∧ params.get "echo" = some (.string text) := by
  unfold EchoExtension.calculate at h
  split at h
  · rename_i text htext
    cases h
    exact ⟨text, rfl, getString_eq_some.mp htext⟩
  · cases h

omit [UnicodeTables] in
theorem RandomExtension.eq_of_calculate
    (h : RandomExtension.calculate moment params = .ok (.success output)) :
    ∃ text choices, output = .single text ∧ params.get "choices" = some (.array choices)
      ∧ .string text ∈ choices := by
  unfold RandomExtension.calculate at h
  split at h
  · rename_i choices hchoices
    split at h
    · rename_i text htext
      cases h
      exact ⟨text, choices, rfl, getArray_eq_some.mp hchoices,
        mem_stringsOf.mp (List.mem_of_getElem? htext)⟩
    · cases h
  · cases h

theorem DateExtension.mayAnswer (hsame : SameSystem system moment)
    (h : DateExtension.calculate moment params = .ok (.success output)) :
    ∃ text, output = .single text ∧ MayAnswer system params .date text := by
  unfold DateExtension.calculate at h
  obtain ⟨date, hdate, h⟩ := bind_eq_ok_iff.mp h
  obtain ⟨text, htext, h⟩ := bind_eq_ok_iff.mp h
  cases h
  have hshifts := offsetDate_eq_ok.mp hdate
  refine ⟨text, rfl, ?_⟩
  unfold formatDate at htext
  split at htext
  · rename_i format hformat
    exact .formatted hsame hshifts (getString_eq_some.mp hformat) (orPanic_eq_ok.mp htext)
  · rename_i hformat
    exact .unformatted hsame hshifts (getString_eq_none.mp hformat) (orPanic_eq_ok.mp htext)

/-- What is written to `stdout`, if anything is, is the answer. -/
theorem ShellExtension.eq_of_run {extension : ShellExtension} {scope : Scope} {cmd : String}
    {shell : Shell} (h : extension.run moment scope params cmd shell = .success output) :
    ∃ stdout, output = .single (writtenText params stdout) := by
  unfold ShellExtension.run at h
  dsimp only at h
  split at h
  · rename_i written hwritten
    split at h
    · cases h
      exact ⟨written.stdout, rfl⟩
    · cases h
  · cases h

theorem ShellExtension.mayAnswer {extension : ShellExtension} {scope : Scope}
    (hsame : SameSystem system moment)
    (h : extension.calculate moment scope params = .ok (.success output)) :
    ∃ text, output = .single text ∧ MayAnswer system params .shell text := by
  unfold ShellExtension.calculate at h
  cases hcmd : params.getString "cmd" with
  | none =>
      rw [hcmd] at h
      cases h
  | some cmd =>
      simp only [hcmd] at h
      have hcmd := getString_eq_some.mp hcmd
      cases hname : params.getString "shell" with
      | some name =>
          simp only [hname] at h
          have hname := getString_eq_some.mp hname
          cases hshell : Shell.fromString name with
          | none =>
              simp only [hshell] at h
              cases h
          | some shell =>
              simp only [hshell, Except.ok.injEq] at h
              obtain ⟨stdout, rfl⟩ := ShellExtension.eq_of_run h
              refine ⟨_, rfl, .shell stdout hcmd ⟨fun name' hname' => ?_, fun hnot => ?_⟩⟩
              · rw [hname] at hname'
                cases hname'
                rw [hshell]
                rfl
              · exact absurd hname (hnot name)
      | none =>
          simp only [hname] at h
          have hname := getString_eq_none.mp hname
          obtain ⟨shell, hshell, h⟩ := map_eq_ok_iff.mp h
          obtain ⟨stdout, rfl⟩ := ShellExtension.eq_of_run h
          refine ⟨_, rfl, .shell stdout hcmd ⟨fun name' hname' => ?_, fun _ => ?_⟩⟩
          · exact absurd hname' (hname name')
          · rw [← hsame.targetOs]
            exact Shell.exists_default.mp ⟨shell, hshell⟩

theorem ScriptExtension.mayAnswer {extension : ScriptExtension} {scope : Scope}
    (h : extension.calculate moment scope params = .ok (.success output)) :
    ∃ text, output = .single text ∧ MayAnswer system params .script text := by
  have hprogram := (ScriptExtension.ends_iff extension moment scope).mp ⟨_, h⟩
  unfold ScriptExtension.calculate at h
  split at h
  · cases h
  · rename_i args hargs
    have hargs := getArray_eq_some.mp hargs
    obtain ⟨program, hprogram⟩ := hprogram args hargs
    split at h
    · cases h
    · dsimp only at h
      split at h
      · rename_i written hwritten
        split at h
        · cases h
        · cases h
          exact ⟨_, rfl, .script written.stdout hargs hprogram⟩
      · cases h

/-- **An extension answers with nothing else.** -/
theorem mayAnswer_of_answer {extensions : Extensions} {runtimes : List Nat → ExtensionRuntime δ τ}
    {call : ExtensionCall} (hsame : SameSystem system (runtimes call.position))
    (h : extensions.answer runtimes call = .ok (.success output)) :
    ∃ text, output = .single text ∧ MayAnswer system call.params call.varType text := by
  unfold Extensions.answer at h
  cases htype : call.varType with
  | date =>
      rw [htype] at h
      exact DateExtension.mayAnswer hsame h
  | echo =>
      rw [htype] at h
      obtain ⟨text, houtput, htext⟩ := EchoExtension.eq_of_calculate h
      exact ⟨text, houtput, .echo htext⟩
  | shell =>
      rw [htype] at h
      exact ShellExtension.mayAnswer hsame h
  | script =>
      rw [htype] at h
      exact ScriptExtension.mayAnswer h
  | random =>
      rw [htype] at h
      obtain ⟨text, choices, houtput, hchoices, htext⟩ := RandomExtension.eq_of_calculate h
      exact ⟨text, houtput, .random hchoices htext⟩
  | mock | form | unresolved | match_ =>
      rw [htype] at h
      cases h

/-- A moment of the system at which every program writes the text and nothing else. -/
def ExtensionRuntime.writing (system : ExtensionRuntime δ τ) (stdout : String) :
    ExtensionRuntime δ τ :=
  { system with execute := fun _ _ _ => .ok ⟨true, stdout, ""⟩ }

theorem ShellExtension.calculate_writing (extension : ShellExtension) (scope : Scope)
    {cmd : String} (stdout : String) (hcmd : params.get "cmd" = some (.string cmd))
    (husable : ShellUsable system params) :
    extension.calculate (system.writing stdout) scope params
      = .ok (.success (.single (writtenText params stdout))) := by
  unfold ShellExtension.calculate
  rw [getString_eq_some.mpr hcmd]
  cases hname : params.getString "shell" with
  | some name =>
      obtain ⟨shell, hshell⟩ :=
        Option.isSome_iff_exists.mp (husable.named name (getString_eq_some.mp hname))
      simp only [hshell]
      rfl
  | none =>
      have hdefault : (system.writing stdout).targetOs ≠ .other :=
        husable.unnamed (getString_eq_none.mp hname)
      obtain ⟨shell, hshell⟩ := Shell.exists_default.mpr hdefault
      simp only [hshell]
      rfl

theorem ScriptExtension.calculate_writing (extension : ScriptExtension) (scope : Scope)
    {args : List Value} {program : String} (stdout : String)
    (hargs : params.get "args" = some (.array args)) (hprogram : .string program ∈ args) :
    extension.calculate (system.writing stdout) scope params
      = .ok (.success (.single (writtenText params stdout))) := by
  unfold ScriptExtension.calculate
  rw [getArray_eq_some.mpr hargs]
  have hmem := List.mem_map_of_mem (f := extension.expandArg) (mem_stringsOf.mpr hprogram)
  dsimp only
  split
  · rename_i hnil
    rw [hnil] at hmem
    cases hmem
  · rfl

/-- **It answers with each of these at some moment.** -/
theorem exists_moment {varType : VarType} {text : String}
    (h : MayAnswer system params varType text) :
    ∃ moment, SameSystem system moment
      ∧ ∀ (extensions : Extensions) (runtimes : List Nat → ExtensionRuntime δ τ)
          (position : List Nat) (scope : Scope), runtimes position = moment →
        extensions.answer runtimes ⟨position, varType, scope, params⟩
          = .ok (.success (.single text)) := by
  cases h with
  | echo htext =>
      refine ⟨system, ⟨rfl, rfl⟩, fun extensions runtimes position scope _ => ?_⟩
      show EchoExtension.calculate params = _
      unfold EchoExtension.calculate
      rw [getString_eq_some.mpr htext]
  | random hchoices htext =>
      obtain ⟨index, hindex, hget⟩ := List.mem_iff_getElem.mp (mem_stringsOf.mpr htext)
      refine ⟨{ system with random := index }, ⟨rfl, rfl⟩, ?_⟩
      intro extensions runtimes position scope hmoment
      show RandomExtension.calculate (runtimes position) params = _
      unfold RandomExtension.calculate choose
      rw [hmoment, getArray_eq_some.mpr hchoices]
      simp only [Nat.mod_eq_of_lt hindex, List.getElem?_eq_getElem hindex, hget]
  | @formatted moment date format _ hsame hshifts hformat htext =>
      refine ⟨moment, hsame, fun extensions runtimes position scope hmoment => ?_⟩
      show DateExtension.calculate (runtimes position) params = _
      unfold DateExtension.calculate formatDate
      rw [hmoment, offsetDate_eq_ok.mpr hshifts, getString_eq_some.mpr hformat, ok_bind]
      simp only [htext]
      rfl
  | @unformatted moment date _ hsame hshifts hformat htext =>
      refine ⟨moment, hsame, fun extensions runtimes position scope hmoment => ?_⟩
      show DateExtension.calculate (runtimes position) params = _
      unfold DateExtension.calculate formatDate
      rw [hmoment, offsetDate_eq_ok.mpr hshifts, getString_eq_none.mpr hformat, ok_bind]
      simp only [htext]
      rfl
  | shell stdout hcmd husable =>
      refine ⟨system.writing stdout, ⟨rfl, rfl⟩, ?_⟩
      intro extensions runtimes position scope hmoment
      show extensions.shellExtension.calculate (runtimes position) scope params = _
      rw [hmoment]
      exact ShellExtension.calculate_writing _ scope stdout hcmd husable
  | script stdout hargs hprogram =>
      refine ⟨system.writing stdout, ⟨rfl, rfl⟩, ?_⟩
      intro extensions runtimes position scope hmoment
      show extensions.scriptExtension.calculate (runtimes position) scope params = _
      rw [hmoment]
      exact ScriptExtension.calculate_writing _ scope stdout hargs hprogram

end Answers

/-! ## §2. What a template may render to. -/

omit [UnicodeTables] in
/-- The scope that holds the text to which each variable has come. -/
def outputScope (evaluated : List (Variable × String)) : Scope :=
  evaluated.foldl (fun scope entry => scope.insert entry.1.name (.single entry.2)) ∅

omit [UnicodeTables] in
theorem outputScope_snoc (evaluated : List (Variable × String)) (var : Variable)
    (text : String) : outputScope (evaluated ++ [(var, text)])
      = (outputScope evaluated).insert var.name (.single text) := by
  unfold outputScope
  rw [List.foldl_append]
  rfl

/-- One after the other, the extensions of the variables may answer with these texts, each for the
params that are injected from the variables before; and the nested matches are there. -/
structure MayAnswerAll (system : ExtensionRuntime δ τ) (ctx : Context)
    (evaluated : List (Variable × String)) : Prop where
  answered : ∀ pre var text post, evaluated = pre ++ (var, text) :: post → var.varType ≠ .match_ →
    ∃ params, variableParams (outputScope pre) var = .ok params
      ∧ MayAnswer system params var.varType text
  found : ∀ var text, (var, text) ∈ evaluated → var.varType = .match_ →
    (subTemplate ctx var).isSome

/-- `MayRender system ctx style template text`: at some moments, in some hash orders, the template
renders to the text.  It reads nothing; or its variables come to texts, in some order, and are
substituted; or a form comes up first. -/
inductive MayRender (system : ExtensionRuntime δ τ) (ctx : Context) (style : CasingStyle) :
    TextEffect → String → Prop
  | plain {template : TextEffect} {text : String} : VarRegex.isMatch template.body = false →
      finishBody style template.body = .success text → MayRender system ctx style template text
  | full {template : TextEffect} {order : HashOrder} {evaluated : List (Variable × String)}
      {body text : String} : VarRegex.isMatch template.body = true →
      templateOrder ctx order template = some (.ok (evaluated.map (·.1))) →
      MayAnswerAll system ctx evaluated →
      (∀ var text sub, (var, text) ∈ evaluated → var.varType = .match_ →
        subTemplate ctx var = some sub → MayRender system ctx style sub text) →
      renderVariables template.body (outputScope evaluated) = .ok body →
      finishBody style body = .success text → MayRender system ctx style template text
  | form {template : TextEffect} {order : HashOrder} {evaluated : List (Variable × String)}
      {var : Variable} {params : Params} {post : List Variable} :
      VarRegex.isMatch template.body = true →
      templateOrder ctx order template = some (.ok (evaluated.map (·.1) ++ var :: post)) →
      MayAnswerAll system ctx evaluated →
      (∀ var text sub, (var, text) ∈ evaluated → var.varType = .match_ →
        subTemplate ctx var = some sub → MayRender system ctx style sub text) →
      var.varType = .form → variableParams (outputScope evaluated) var = .ok params →
      MayRender system ctx style template ""

/-- The variables may come to these texts, one after the other. -/
structure MayEvaluate (system : ExtensionRuntime δ τ) (ctx : Context) (style : CasingStyle)
    (evaluated : List (Variable × String)) : Prop extends MayAnswerAll system ctx evaluated where
  nested : ∀ var text sub, (var, text) ∈ evaluated → var.varType = .match_ →
    subTemplate ctx var = some sub → MayRender system ctx style sub text

/-- What one variable may come to in a scope: a nested match to what it renders to, and any other
to an answer of its extension. -/
def MayComeTo (system : ExtensionRuntime δ τ) (ctx : Context) (style : CasingStyle) (scope : Scope)
    (var : Variable) (text : String) : Prop :=
  (var.varType = .match_ ∧ ∃ sub, subTemplate ctx var = some sub
      ∧ MayRender system ctx style sub text)
    ∨ (var.varType ≠ .match_ ∧ ∃ params, variableParams scope var = .ok params
      ∧ MayAnswer system params var.varType text)

/-! ## §3. A rendering comes to nothing else. -/

section Sound

variable {system : ExtensionRuntime δ τ} {ctx : Context} {style : CasingStyle}
  {answers : ExtensionCall → Except ExtensionPanic ExtensionResult}

theorem mayEvaluate_nil : MayEvaluate system ctx style [] where
  answered pre var text post h := by simp at h
  found := nofun
  nested := nofun

/-- **One more variable.** -/
theorem MayEvaluate.snoc {evaluated : List (Variable × String)} {var : Variable} {text : String}
    (h : MayEvaluate system ctx style evaluated)
    (hvar : MayComeTo system ctx style (outputScope evaluated) var text) :
    MayEvaluate system ctx style (evaluated ++ [(var, text)]) where
  answered pre v t post heq hv := by
    rcases List.eq_nil_or_concat post with rfl | ⟨post', last, rfl⟩
    · obtain ⟨rfl, hlast⟩ := List.append_inj' heq rfl
      cases hlast
      exact (hvar.resolve_left fun hmatch => hv hmatch.1).2
    · have heq' : evaluated ++ [(var, text)] = (pre ++ (v, t) :: post') ++ [last] := by
        simpa using heq
      obtain ⟨rfl, _⟩ := List.append_inj' heq' rfl
      exact h.answered pre v t post' rfl hv
  found v t hmem hv := by
    rcases List.mem_append.mp hmem with hmem | hmem
    · exact h.found v t hmem hv
    · cases List.mem_singleton.mp hmem
      obtain ⟨_, sub, hsub, _⟩ := hvar.resolve_right fun hanswer => hanswer.1 hv
      rw [hsub]
      rfl
  nested v t sub hmem hv hsub := by
    rcases List.mem_append.mp hmem with hmem | hmem
    · exact h.nested v t sub hmem hv hsub
    · cases List.mem_singleton.mp hmem
      obtain ⟨_, sub', hsub', hrender⟩ := hvar.resolve_right fun hanswer => hanswer.1 hv
      obtain rfl : sub = sub' := Option.some.inj (hsub.symm.trans hsub')
      exact hrender

/-- What each of the variables does. -/
theorem MayEvaluate.mayComeTo {pre post : List (Variable × String)} {var : Variable}
    {text : String} (h : MayEvaluate system ctx style (pre ++ (var, text) :: post)) :
    MayComeTo system ctx style (outputScope pre) var text := by
  by_cases hmatch : var.varType = .match_
  · have hmem : (var, text) ∈ pre ++ (var, text) :: post := by simp
    obtain ⟨sub, hsub⟩ := Option.isSome_iff_exists.mp (h.found var text hmem hmatch)
    exact .inl ⟨hmatch, sub, hsub, h.nested var text sub hmem hmatch hsub⟩
  · exact .inr ⟨hmatch, h.answered pre var text post rfl hmatch⟩

/-- All questions of the transcript have been answered so. -/
def AnsweredBy (answers : ExtensionCall → Except ExtensionPanic ExtensionResult)
    (calls : CallLog) : Prop :=
  ∀ entry ∈ calls, answers entry.1 = .ok entry.2

/-- The successes of the extensions that are asked are texts with which they may answer. -/
def OnSystem (system : ExtensionRuntime δ τ)
    (answers : ExtensionCall → Except ExtensionPanic ExtensionResult) : Prop :=
  ∀ call output, answers call = .ok (.success output) →
    ∃ text, output = .single text ∧ MayAnswer system call.params call.varType text

theorem ensures_mayComeTo {render : TextEffect → Rendering (Option RenderResult)}
    {position : List Nat} {scope : Scope} {var : Variable} (hsystem : OnSystem system answers)
    (hrender : ∀ sub, (render sub).Ensures fun calls result => AnsweredBy answers calls →
      ∀ text, result = some (.success text) → MayRender system ctx style sub text) :
    (Rendering.evalVariable ctx render position scope var).Ensures fun calls result =>
      AnsweredBy answers calls →
        (∀ output, result = some (.ok output) →
          ∃ text, output = .single text ∧ MayComeTo system ctx style scope var text)
        ∧ ∀ body, result = some (.error (.success body)) → body = "" ∧ var.varType = .form
          ∧ ∃ params, variableParams scope var = .ok params := by
  refine Rendering.ensures_evalVariable ?_ ?_ ?_
  · intro sub hmatch hsub
    refine (hrender sub).mono fun calls result h hanswered => ?_
    cases result with
    | none => exact ⟨nofun, nofun⟩
    | some result =>
        cases result with
        | success body =>
            refine ⟨fun output houtput => ?_, nofun⟩
            cases houtput
            exact ⟨body, rfl, .inl ⟨hmatch, sub, hsub, h hanswered body rfl⟩⟩
        | aborted | error | panicked => exact ⟨nofun, nofun⟩
  · intro params answer hmatch hparams hanswered
    have hanswer := hanswered _ (List.mem_singleton_self _)
    cases answer with
    | success output =>
        refine ⟨fun output' houtput => ?_, nofun⟩
        cases houtput
        obtain ⟨text, rfl, htext⟩ := hsystem _ _ hanswer
        exact ⟨text, rfl, .inr ⟨hmatch, params, hparams, htext⟩⟩
    | aborted | error => exact ⟨nofun, nofun⟩
  · intro result hstop _
    refine ⟨nofun, fun body hbody => ?_⟩
    cases hbody
    exact hstop body rfl

/-- What the loop has evaluated, up to its end or to a form. -/
theorem ensures_mayEvaluate {render : Nat → TextEffect → Rendering (Option RenderResult)}
    {base : List Nat} (hsystem : OnSystem system answers)
    (hrender : ∀ index sub, (render index sub).Ensures fun calls result =>
      AnsweredBy answers calls →
      ∀ text, result = some (.success text) → MayRender system ctx style sub text)
    (vars : List Variable) (index : Nat) (evaluated : List (Variable × String))
    (hevaluated : MayEvaluate system ctx style evaluated) :
    (Rendering.evalVariables ctx render base index (outputScope evaluated) vars).Ensures
      fun calls result => AnsweredBy answers calls →
        (∀ scope, result = some (.ok scope) → ∃ final, final.map (·.1) = evaluated.map (·.1) ++ vars
          ∧ scope = outputScope final ∧ MayEvaluate system ctx style final)
        ∧ ∀ body, result = some (.error (.success body)) → body = ""
          ∧ ∃ before var post params, evaluated.map (·.1) ++ vars = before.map (·.1) ++ var :: post
            ∧ MayEvaluate system ctx style before ∧ var.varType = .form
            ∧ variableParams (outputScope before) var = .ok params := by
  induction vars generalizing index evaluated with
  | nil =>
      refine Program.ensures_pure_iff.mpr fun _ => ⟨fun scope hscope => ?_, nofun⟩
      cases hscope
      exact ⟨evaluated, by simp, rfl, hevaluated⟩
  | cons var vars ih =>
      refine Rendering.ensures_evalVariables_cons
        (ensures_mayComeTo hsystem (hrender index)) (fun _ _ _ => ⟨nofun, nofun⟩) ?_ ?_
      · -- the loop stops here; with a success only at a form
        intro first result hfirst hanswered
        refine ⟨nofun, fun body hbody => ?_⟩
        cases hbody
        obtain ⟨rfl, hform, params, hparams⟩ := (hfirst hanswered).2 body rfl
        exact ⟨rfl, evaluated, var, vars, params, rfl, hevaluated, hform, hparams⟩
      · -- it goes on with one more output
        intro first output hfirst second result hreturns hanswered
        have hanswered := List.forall_mem_append.mp hanswered
        obtain ⟨text, rfl, htext⟩ := (hfirst hanswered.1).1 output rfl
        rw [← outputScope_snoc] at hreturns
        have hrest := ih (index + 1) _ (hevaluated.snoc htext) second result hreturns hanswered.2
        simpa only [List.map_append, List.map_cons, List.map_nil, List.append_assoc,
          List.singleton_append] using hrest

/-- The body is substituted, and what comes out of it is finished. -/
theorem finishLoop_eq_success_iff {body text : String} {scope : Scope} :
    Rendering.finishLoop style body (.ok scope) = .success text
      ↔ ∃ output, renderVariables body scope = .ok output
        ∧ finishBody style output = .success text := by
  simp only [Rendering.finishLoop]
  cases renderVariables body scope <;> simp

/-- **A rendering comes to no other text.** -/
theorem ensures_mayRender (hsystem : OnSystem system answers) (fuel : Nat) (base : List Nat)
    (orders : RenderOrder) (template : TextEffect) :
    (Rendering.renderTemplate ctx style fuel base orders template).Ensures fun calls result =>
      AnsweredBy answers calls →
      ∀ text, result = some (.success text) → MayRender system ctx style template text := by
  induction fuel generalizing base orders template with
  | zero => exact Program.ensures_pure_iff.mpr fun _ => nofun
  | succ fuel ih =>
      refine Rendering.ensures_renderTemplate_succ ?_ (fun _ _ => nofun) ?_
      · intro hmatch _ text htext
        exact .plain hmatch (Option.some.inj htext)
      · intro vars hmatch horder
        refine (ensures_mayEvaluate hsystem (fun index sub => ih _ _ sub) vars 0 []
          mayEvaluate_nil).mono fun calls result h hanswered text htext => ?_
        cases result with
        | none => cases htext
        | some result =>
            cases result with
            | error stop =>
                -- a form ends the rendering with the empty text
                obtain rfl : stop = .success text := Option.some.inj htext
                obtain ⟨rfl, before, var, post, params, hvars, hbefore, hform, hparams⟩ :=
                  (h hanswered).2 text rfl
                obtain rfl : vars = _ := hvars
                exact .form hmatch horder hbefore.toMayAnswerAll hbefore.nested hform hparams
            | ok scope =>
                obtain ⟨final, hvars, rfl, hfinal⟩ := (h hanswered).1 scope rfl
                obtain rfl : final.map (·.1) = vars := hvars
                obtain ⟨body, hbody, hfinish⟩ :=
                  finishLoop_eq_success_iff.mp (Option.some.inj htext)
                exact .full hmatch horder hfinal.toMayAnswerAll hfinal.nested hbody hfinish

end Sound

/-! ## §4. It comes to each of these. -/

/-- The hash orders of a rendering, and the moments of the calls in it. -/
structure Setting (δ τ : Type) where
  orders : RenderOrder
  runtimes : List Nat → ExtensionRuntime δ τ

namespace Setting

omit [UnicodeTables] in
/-- The moments are those of one system. -/
def On (setting : Setting δ τ) (system : ExtensionRuntime δ τ) : Prop :=
  ∀ path, SameSystem system (setting.runtimes path)

omit [UnicodeTables] in
/-- Below the position, the moments are those of the setting. -/
def At (setting : Setting δ τ) (base : List Nat) (runtimes : List Nat → ExtensionRuntime δ τ) :
    Prop :=
  ∀ path, runtimes (base ++ path) = setting.runtimes path

/-- With that much fuel the template renders to the text in this setting, at any position. -/
def Renders (setting : Setting δ τ) (extensions : Extensions) (ctx : Context) (style : CasingStyle)
    (fuel : Nat) (template : TextEffect) (text : String) : Prop :=
  ∀ fuel', fuel ≤ fuel' → ∀ base runtimes, setting.At base runtimes →
    (Rendering.renderTemplate ctx style fuel' base setting.orders template).attempt
      (extensions.answer runtimes) = .ok (some (.success text))

omit [UnicodeTables] in
/-- Nothing changes. -/
def still (moment : ExtensionRuntime δ τ) : Setting δ τ := ⟨fun _ => .canonical, fun _ => moment⟩

omit [UnicodeTables] in
/-- One order, and settings for what is below it. -/
def node (system : ExtensionRuntime δ τ) (order : HashOrder) (nested : Nat → Setting δ τ) :
    Setting δ τ where
  orders := .node order fun index => (nested index).orders
  runtimes
    | [] => system
    | index :: path => (nested index).runtimes path

omit [UnicodeTables] in
theorem on_node {system : ExtensionRuntime δ τ} {order : HashOrder}
    {nested : Nat → Setting δ τ} (h : ∀ index, (nested index).On system) :
    (node system order nested).On system := by
  intro path
  cases path with
  | nil => exact ⟨rfl, rfl⟩
  | cons index path => exact h index path

omit [UnicodeTables] in
theorem At.nested {system : ExtensionRuntime δ τ} {order : HashOrder}
    {nested : Nat → Setting δ τ} {base : List Nat} {runtimes : List Nat → ExtensionRuntime δ τ}
    (h : (node system order nested).At base runtimes) (index : Nat) :
    (nested index).At (base ++ [index]) runtimes := by
  intro path
  rw [List.append_assoc]
  exact h (index :: path)

end Setting

namespace Rendering

variable {ctx : Context}

/-- The loop, cut after any number of variables. -/
theorem evalVariables_append {render : Nat → TextEffect → Rendering (Option RenderResult)}
    {base : List Nat} (post pre : List Variable) (index : Nat) (scope : Scope) :
    evalVariables ctx render base index scope (pre ++ post)
      = evalVariables ctx render base index scope pre >>= fun
        | some (.ok scope') => evalVariables ctx render base (index + pre.length) scope' post
        | result => pure result := by
  induction pre generalizing index scope with
  | nil => rfl
  | cons var pre ih =>
      rw [List.cons_append, evalVariables, evalVariables, bind_assoc]
      refine bind_congr fun result => ?_
      cases result with
      | none => rfl
      | some result =>
          cases result with
          | error stop => rfl
          | ok output =>
              show evalVariables ctx render base (index + 1) _ (pre ++ post) = _
              rw [ih, List.length_cons, Nat.add_comm pre.length, ← Nat.add_assoc]

/-- One more variable at the end of a loop that succeeds. -/
theorem attempt_evalVariables_snoc
    {answers : ExtensionCall → Except ExtensionPanic ExtensionResult}
    {render : Nat → TextEffect → Rendering (Option RenderResult)} {base : List Nat}
    {pre : List Variable} {var : Variable} {scope : Scope}
    (hpre : (evalVariables ctx render base 0 ∅ pre).attempt answers = .ok (some (.ok scope))) :
    (evalVariables ctx render base 0 ∅ (pre ++ [var])).attempt answers
      = ((evalVariable ctx (render pre.length) (base ++ [pre.length]) scope var).attempt
          answers).map (Option.map (Except.map (scope.insert var.name))) := by
  rw [evalVariables_append, Program.attempt_bind, hpre, ok_bind]
  simp only [evalVariables, Nat.zero_add, Program.attempt_bind]
  cases (evalVariable ctx (render pre.length) (base ++ [pre.length]) scope var).attempt answers with
  | error panic => rfl
  | ok result =>
      cases result with
      | none => rfl
      | some result => cases result <;> rfl

/-- A form that comes up ends the loop with a success. -/
theorem attempt_evalVariables_form
    {answers : ExtensionCall → Except ExtensionPanic ExtensionResult}
    {render : Nat → TextEffect → Rendering (Option RenderResult)} {base : List Nat}
    {pre post : List Variable} {var : Variable} {params : Params} {scope : Scope}
    (hpre : (evalVariables ctx render base 0 ∅ pre).attempt answers = .ok (some (.ok scope)))
    (hform : var.varType = .form) (hparams : variableParams scope var = .ok params) :
    (evalVariables ctx render base 0 ∅ (pre ++ var :: post)).attempt answers
      = .ok (some (.error (.success ""))) := by
  have hvar : evalVariable ctx (render pre.length) (base ++ [pre.length]) scope var
      = pure (some (.error (.success ""))) := by
    rw [evalVariable, if_neg (by simp [hform]), hparams, hform]
    rfl
  rw [evalVariables_append, Program.attempt_bind, hpre, ok_bind]
  simp only [evalVariables, Nat.zero_add, hvar]
  rfl

/-- A template with a reference does what its loop does. -/
theorem attempt_renderTemplate_succ
    {answers : ExtensionCall → Except ExtensionPanic ExtensionResult} {style : CasingStyle}
    {fuel : Nat} {base : List Nat} {orders : RenderOrder} {template : TextEffect}
    {vars : List Variable} (hmatch : VarRegex.isMatch template.body = true)
    (horder : templateOrder ctx (orders []) template = some (.ok vars)) :
    (renderTemplate ctx style (fuel + 1) base orders template).attempt answers
      = ((evalVariables ctx (fun index => renderTemplate ctx style fuel (base ++ [index])
          (orders.nested index)) base 0 ∅ vars).attempt answers).map
          (Option.map (finishLoop style template.body)) := by
  rw [renderTemplate, if_pos hmatch, horder]
  exact Program.attempt_map _ _

end Rendering

section Complete

variable {system : ExtensionRuntime δ τ} {ctx : Context} {style : CasingStyle}
  (extensions : Extensions)

/-- An answer is given at some moment. -/
theorem attempt_calculate {varType : VarType} {params : Params} {text : String}
    (h : MayAnswer system params varType text) :
    ∃ moment, SameSystem system moment ∧ ∀ runtimes position scope, runtimes position = moment →
      (Rendering.calculate position varType scope params).attempt (extensions.answer runtimes)
        = .ok (.ok (.single text)) := by
  obtain ⟨moment, hsame, hanswer⟩ := exists_moment h
  refine ⟨moment, hsame, fun runtimes position scope hmoment => ?_⟩
  have hanswer := hanswer extensions runtimes position scope hmoment
  cases h <;>
    (simp only [Rendering.calculate, Program.attempt_map, Program.attempt_question, hanswer]; rfl)

/-- What a variable may come to, it comes to in some setting. -/
theorem exists_setting_variable {scope : Scope} {var : Variable} {text : String}
    (h : MayComeTo system ctx style scope var text)
    (hnested : ∀ sub, var.varType = .match_ → subTemplate ctx var = some sub →
      ∃ setting : Setting δ τ, setting.On system
        ∧ ∃ fuel, setting.Renders extensions ctx style fuel sub text) :
    ∃ setting : Setting δ τ, setting.On system ∧ ∃ fuel, ∀ fuel', fuel ≤ fuel' →
      ∀ position runtimes, setting.At position runtimes →
        (Rendering.evalVariable ctx
            (Rendering.renderTemplate ctx style fuel' position setting.orders) position scope
            var).attempt (extensions.answer runtimes) = .ok (some (.ok (.single text))) := by
  rcases h with ⟨hmatch, sub, hsub, _⟩ | ⟨hmatch, params, hparams, hanswer⟩
  · -- a nested match has its own setting
    obtain ⟨setting, hsystem, fuel, hrenders⟩ := hnested sub hmatch hsub
    refine ⟨setting, hsystem, fuel, fun fuel' hle position runtimes hat => ?_⟩
    unfold Rendering.evalVariable
    rw [if_pos hmatch, hsub]
    simp only [Program.attempt_map, hrenders fuel' hle position runtimes hat]
    rfl
  · -- an extension is asked once, and the moment of that is chosen
    obtain ⟨moment, hsame, hcalculate⟩ := attempt_calculate extensions hanswer
    refine ⟨.still moment, fun _ => hsame, 0, fun fuel' _ position runtimes hat => ?_⟩
    have hmoment : runtimes position = moment := by
      rw [← List.append_nil position]
      exact hat []
    unfold Rendering.evalVariable
    rw [if_neg hmatch, hparams]
    simp only [Program.attempt_map, hcalculate runtimes position scope hmoment]
    rfl

/-- So does each variable of a loop, after those before it have come to their texts. -/
theorem exists_setting_at {evaluated : List (Variable × String)}
    (h : MayEvaluate system ctx style evaluated)
    (hnested : ∀ var text sub, (var, text) ∈ evaluated → var.varType = .match_ →
      subTemplate ctx var = some sub → ∃ setting : Setting δ τ, setting.On system
        ∧ ∃ fuel, setting.Renders extensions ctx style fuel sub text) (index : Nat) :
    ∃ setting : Setting δ τ, setting.On system ∧ ∃ fuel,
      ∀ pre var text post, evaluated = pre ++ (var, text) :: post → pre.length = index →
        ∀ fuel', fuel ≤ fuel' → ∀ position runtimes, setting.At position runtimes →
          (Rendering.evalVariable ctx
              (Rendering.renderTemplate ctx style fuel' position setting.orders) position
              (outputScope pre) var).attempt (extensions.answer runtimes)
            = .ok (some (.ok (.single text))) := by
  by_cases hindex : index < evaluated.length
  · have hsplit : evaluated = evaluated.take index
        ++ (evaluated[index].1, evaluated[index].2) :: evaluated.drop (index + 1) := by
      rw [List.cons_getElem_drop_succ, List.take_append_drop]
    have hvar := (hsplit ▸ h).mayComeTo
    obtain ⟨setting, hsystem, fuel, hworks⟩ := exists_setting_variable extensions hvar
      fun sub => hnested _ _ sub (List.getElem_mem hindex)
    refine ⟨setting, hsystem, fuel, fun pre var text post heq hlength => ?_⟩
    obtain ⟨rfl, hrest⟩ := List.append_inj (heq.symm.trans hsplit)
      (hlength.trans (List.length_take_of_le hindex.le).symm)
    cases hrest
    exact hworks
  · -- there is no variable at this index
    refine ⟨.still system, fun _ => ⟨rfl, rfl⟩, 0, ?_⟩
    intro pre var text post heq hlength
    rw [heq, List.length_append, List.length_cons] at hindex
    omega

/-- **What a loop may evaluate, it evaluates in some settings.** -/
theorem exists_settings {evaluated : List (Variable × String)}
    (h : MayEvaluate system ctx style evaluated)
    (hnested : ∀ var text sub, (var, text) ∈ evaluated → var.varType = .match_ →
      subTemplate ctx var = some sub → ∃ setting : Setting δ τ, setting.On system
        ∧ ∃ fuel, setting.Renders extensions ctx style fuel sub text) :
    ∃ nested : Nat → Setting δ τ, (∀ index, (nested index).On system)
      ∧ ∃ fuel, ∀ fuel', fuel ≤ fuel' → ∀ base runtimes,
        (∀ index, index < evaluated.length → (nested index).At (base ++ [index]) runtimes) →
        (Rendering.evalVariables ctx (fun index => Rendering.renderTemplate ctx style fuel'
            (base ++ [index]) (nested index).orders) base 0 ∅ (evaluated.map (·.1))).attempt
          (extensions.answer runtimes) = .ok (some (.ok (outputScope evaluated))) := by
  choose nested hsystem enough hworks using exists_setting_at extensions h hnested
  -- what is enough for the variable that needs most is enough for all
  refine ⟨nested, hsystem, (Finset.range evaluated.length).sup enough, ?_⟩
  intro fuel' hle base runtimes hat
  have hloop : ∀ pre post, evaluated = pre ++ post →
      (Rendering.evalVariables ctx (fun index => Rendering.renderTemplate ctx style fuel'
          (base ++ [index]) (nested index).orders) base 0 ∅ (pre.map (·.1))).attempt
        (extensions.answer runtimes) = .ok (some (.ok (outputScope pre))) := by
    intro pre
    induction pre using List.reverseRecOn with
    | nil => exact fun _ _ => rfl
    | append_singleton pre entry ih =>
        intro post heq
        obtain ⟨var, text⟩ := entry
        rw [List.append_assoc, List.singleton_append] at heq
        have hindex : pre.length < evaluated.length := by simp [heq]
        have henough : enough pre.length ≤ fuel' :=
          (Finset.le_sup (Finset.mem_range.mpr hindex)).trans hle
        rw [List.map_append, List.map_cons, List.map_nil,
          Rendering.attempt_evalVariables_snoc (ih _ heq), List.length_map,
          hworks pre.length pre var text post heq rfl fuel' henough _ runtimes (hat _ hindex),
          outputScope_snoc]
        rfl
  exact hloop evaluated [] (List.append_nil _).symm

/-- **What a template may render to, it renders to in some setting.** -/
theorem exists_setting {template : TextEffect} {text : String}
    (h : MayRender system ctx style template text) :
    ∃ setting : Setting δ τ, setting.On system
      ∧ ∃ fuel, setting.Renders extensions ctx style fuel template text := by
  -- the settings of the nested matches are put together under the order of the template
  induction h with
  | plain hmatch hfinish =>
      refine ⟨.still system, fun _ => ⟨rfl, rfl⟩, 1, ?_⟩
      intro fuel' hle base runtimes _
      obtain ⟨fuel', rfl⟩ := Nat.exists_eq_add_one.mpr hle
      rw [Rendering.renderTemplate, if_neg (by simp [hmatch]), hfinish]
      rfl
  | @full _ order _ _ _ hmatch horder hanswers hnested hbody hfinish ih =>
      obtain ⟨nested, hsystem, fuel, hloop⟩ := exists_settings extensions ⟨hanswers, hnested⟩ ih
      refine ⟨.node system order nested, Setting.on_node hsystem, fuel + 1, ?_⟩
      intro fuel' hle base runtimes hat
      obtain ⟨fuel', rfl⟩ := Nat.exists_eq_add_one.mpr (Nat.lt_of_lt_of_le fuel.succ_pos hle)
      have hloop := hloop fuel' (Nat.le_of_succ_le_succ hle) base runtimes
        fun index _ => hat.nested index
      rw [Rendering.attempt_renderTemplate_succ hmatch horder]
      refine (congrArg _ hloop).trans ?_
      show Except.ok (some (Rendering.finishLoop style _ _)) = _
      rw [finishLoop_eq_success_iff.mpr ⟨_, hbody, hfinish⟩]
  | @form _ order _ _ _ _ hmatch horder hanswers hnested hform hparams ih =>
      obtain ⟨nested, hsystem, fuel, hloop⟩ := exists_settings extensions ⟨hanswers, hnested⟩ ih
      refine ⟨.node system order nested, Setting.on_node hsystem, fuel + 1, ?_⟩
      intro fuel' hle base runtimes hat
      obtain ⟨fuel', rfl⟩ := Nat.exists_eq_add_one.mpr (Nat.lt_of_lt_of_le fuel.succ_pos hle)
      have hloop := hloop fuel' (Nat.le_of_succ_le_succ hle) base runtimes
        fun index _ => hat.nested index
      rw [Rendering.attempt_renderTemplate_succ hmatch horder]
      exact congrArg _ (Rendering.attempt_evalVariables_form hloop hform hparams)

/-- At moments of the system, the extensions answer as they may. -/
theorem onSystem_answer {runtimes : List Nat → ExtensionRuntime δ τ}
    (h : ∀ position, SameSystem system (runtimes position)) :
    OnSystem system (extensions.answer runtimes) :=
  fun call _ hanswer => mayAnswer_of_answer (h call.position) hanswer

/-- **What a template may render to** is what it renders to at some moments of the system, in some
hash orders. -/
theorem mayRender_iff {template : TextEffect} {text : String} :
    MayRender system ctx style template text
      ↔ ∃ (runtimes : List Nat → ExtensionRuntime δ τ) (orders : RenderOrder) (fuel : Nat),
        (∀ position, SameSystem system (runtimes position))
          ∧ extensions.render runtimes ctx style fuel orders template
            = .ok (some (.success text)) := by
  constructor
  · intro h
    obtain ⟨setting, hsystem, fuel, hrenders⟩ := exists_setting extensions h
    exact ⟨setting.runtimes, setting.orders, fuel, hsystem,
      hrenders fuel (Nat.le_refl _) [] setting.runtimes fun _ => rfl⟩
  · intro h
    obtain ⟨runtimes, orders, fuel, hsystem, hrender⟩ := h
    obtain ⟨calls, hreturns, hanswered⟩ := Program.exists_of_attempt_ok hrender
    exact ensures_mayRender (onSystem_answer extensions hsystem) fuel [] orders template calls _
      hreturns hanswered text rfl

end Complete

end Shinran
