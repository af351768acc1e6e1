import XoLang.Proofs.Outcomes
import XoLang.Proofs.Reports

/-!
# How far a run comes

Every command reads the settings, the source and its tokens, and all but the one that shows tokens
go on to the tree. So there are three stages at which a run can be: it was stopped before it had
its tokens, its tokens make no tree, or it has a tree. Behind its tree a run can only be stopped by
the formatter or by the disk.
-/

namespace XoLang.Command

/-- A run is stopped before it has the tokens of its source. -/
inductive Early (world : World) (request : Request) : Report → Prop
  | unread {report : Report} (failed : load world request = .error report) :
      Early world request report
  | unlexed {loaded : Loaded} {report : Report} (read : load world request = .ok loaded)
      (failed : tokensOf world request loaded = .error report) : Early world request report

/-- A run is stopped by the tokens of its source, and reports why. -/
inductive Unparsed (world : World) (request : Request) (e : ParseError) : Report → Prop
  | mk {loaded : Loaded} {tokens : List Token} {trace : Trace}
      (read : load world request = .ok loaded)
      (lexed : tokensOf world request loaded = .ok (tokens, trace))
      (failed : parseTokens request.file tokens = .error e) :
      Unparsed world request e (diagnose world request loaded e.diagnostic trace)

/-- A run comes to the tree of its source. -/
structure Parsed (world : World) (request : Request) (loaded : Loaded) (tree : Tree) : Prop where
  read : load world request = .ok loaded
  parsed : ∃ tokens trace, tokensOf world request loaded = .ok (tokens, trace) ∧
    parseTokens request.file tokens = .ok tree

theorem stages (world : World) (request : Request) :
    (∃ report, Early world request report) ∨ (∃ e report, Unparsed world request e report) ∨
      ∃ loaded tree, Parsed world request loaded tree := by
  cases read : load world request with
  | error report => exact Or.inl ⟨report, .unread read⟩
  | ok loaded =>
    cases lexed : tokensOf world request loaded with
    | error report => exact Or.inl ⟨report, .unlexed read lexed⟩
    | ok found =>
      obtain ⟨tokens, trace⟩ := found
      cases parsed : parseTokens request.file tokens with
      | error e => exact Or.inr (Or.inl ⟨e, _, .mk read lexed parsed⟩)
      | ok tree => exact Or.inr (Or.inr ⟨loaded, tree, read, tokens, trace, lexed, parsed⟩)

section Stages

variable {world : World} {request : Request} {report : Report} {e : ParseError} {loaded : Loaded}
variable {tree : Tree} {tokens : List Token} {trace : Trace}

theorem tokensOf_eq_error_iff : tokensOf world request loaded = .error report ↔
    ∃ e, tokenize loaded.delimiter request.file loaded.source = .error e ∧
      diagnose world request loaded e.diagnostic loaded.trace = report := by
  rw [tokensOf]
  cases tokenize loaded.delimiter request.file loaded.source <;> simp

theorem tokensOf_eq_ok_iff : tokensOf world request loaded = .ok (tokens, trace) ↔
    tokenize loaded.delimiter request.file loaded.source = .ok tokens ∧
      loaded.trace.add .debug "xo.lexer"
        ("lexed " ++ toString tokens.length ++ " tokens from " ++ request.file) = trace := by
  rw [tokensOf]
  cases tokenize loaded.delimiter request.file loaded.source with
  | error e => simp
  | ok found =>
    rw [Except.ok.injEq, Except.ok.injEq, Prod.mk.injEq]
    exact and_congr_right fun same => by rw [same]

/-- What is to be done with the tree does not matter before there is one. -/
theorem Early.withAction (h : Early world request report) (action : Action) :
    Early world { request with action := action } report := by
  cases h with
  | unread failed => exact .unread failed
  | unlexed read failed => exact .unlexed read failed

theorem Unparsed.withAction (h : Unparsed world request e report) (action : Action) :
    Unparsed world { request with action := action } e report := by
  cases h with
  | mk read lexed failed => exact .mk read lexed failed

theorem Parsed.withAction (h : Parsed world request loaded tree) (action : Action) :
    Parsed world { request with action := action } loaded tree := ⟨h.read, h.parsed⟩

/-- Without a tree every command but the one that shows tokens gives the same report. -/
theorem runRequest_of_treeOf (read : load world request = .ok loaded)
    (failed : treeOf world request loaded = .error report)
    (other : ∀ json maxItems, request.action ≠ .tokens json maxItems) :
    runRequest world request = (report, world.disk) := by
  have unfinished : ∀ wanted, finalCode world request loaded wanted = .error report := by
    intro wanted
    rw [finalCode, codeOf, failed]
  rw [runRequest, read]
  cases action : request.action with
  | build outDir noFormat => simp only [runBuild, unfinished]
  | emit format => simp only [runEmit, unfinished]
  | tokens json maxItems => exact absurd action (other json maxItems)
  | ast json maxItems => simp only [runAst, failed]

theorem Early.runRequest_eq (h : Early world request report) :
    runRequest world request = (report, world.disk) := by
  cases h with
  | unread failed => rw [runRequest, failed]
  | @unlexed loaded _ read failed =>
    have untreed : treeOf world request loaded = .error report := by
      rw [treeOf, failed]
    cases action : request.action with
    | tokens json maxItems =>
      rw [runRequest, read]
      simp only [action, runTokens, failed]
    | _ => exact runRequest_of_treeOf read untreed (by simp [action])

theorem Unparsed.runRequest_eq (h : Unparsed world request e report)
    (other : ∀ json maxItems, request.action ≠ .tokens json maxItems) :
    runRequest world request = (report, world.disk) := by
  cases h with
  | mk read lexed failed =>
    refine runRequest_of_treeOf read ?_ other
    rw [treeOf, lexed]
    simp only [failed]

/-- Tokens are shown whether or not they make a program. -/
theorem Unparsed.tokens_shown {json : Bool} {maxItems : Int} (h : Unparsed world request e report)
    (action : request.action = .tokens json maxItems) :
    (runRequest world request).1.ending = .exit 0 := by
  cases h with
  | mk read lexed failed =>
    rw [runRequest, read]
    simp only [action, runTokens, lexed]
    rfl

theorem ending_of_tokensOf (failed : tokensOf world request loaded = .error report) :
    report.ending = .exit 1 := by
  obtain ⟨e, -, rfl⟩ := tokensOf_eq_error_iff.mp failed
  exact ending_of_diagnose world request _ _ _

theorem Early.ending_ne (h : Early world request report) : report.ending ≠ .exit 0 := by
  cases h with
  | unread failed => exact ending_of_load failed
  | unlexed read failed => simp [ending_of_tokensOf failed]

theorem Unparsed.ending_eq (h : Unparsed world request e report) : report.ending = .exit 1 := by
  cases h with
  | mk read lexed failed => exact ending_of_diagnose world request _ _ _

/-- A tree has code, so the commands that show something succeed. -/
theorem Parsed.codeOf_eq (h : Parsed world request loaded tree) :
    ∃ trace, codeOf world request loaded = .ok (JavaScript.render tree, trace) := by
  obtain ⟨tokens, trace, lexed, parsed⟩ := h.parsed
  simp only [codeOf, treeOf, lexed, parsed, emit_of_parseTokens parsed]
  exact ⟨_, rfl⟩

theorem Parsed.shown (h : Parsed world request loaded tree)
    (quiet : (∃ json maxItems, request.action = .tokens json maxItems) ∨
      (∃ json maxItems, request.action = .ast json maxItems) ∨ request.action = .emit false) :
    (runRequest world request).1.ending = .exit 0 := by
  obtain ⟨tokens, trace, lexed, parsed⟩ := h.parsed
  rw [runRequest, h.read]
  rcases quiet with ⟨json, maxItems, action⟩ | ⟨json, maxItems, action⟩ | action
  · simp only [action, runTokens, lexed]
    rfl
  · simp only [action, runAst, treeOf, lexed, parsed]
    rfl
  · simp only [action, runEmit, finalCode, codeOf, treeOf, lexed, parsed,
      emit_of_parseTokens parsed]
    rfl

/-- Reformatting stops a run only when the formatter cannot be run. -/
theorem reformat_eq_error {code : String} {trace : Trace}
    (failed : reformat world loaded code trace = .error report) :
    ∃ failure, report.ending = .fault (.formatter failure) ∧
      ∃ invocation ∈ report.trace.started, world.runner invocation = .raised failure := by
  have known : Formatter.parserFor? JavaScript.language = some "babel" := by decide
  rw [reformat] at failed
  simp only [Formatter.format, known] at failed
  cases became : world.runner
      ⟨Formatter.commandLine loaded.settings.formatter "babel", code⟩ with
  | raised failure =>
    simp only [became, Formatter.judge] at failed
    cases failed
    exact ⟨failure, rfl, _, by simp [Report.stopped], became⟩
  | notFound | timedOut => simp [became, Formatter.judge] at failed
  | exited status output errors =>
    simp only [became, Formatter.judge] at failed
    by_cases good : status = 0
    · simp [good] at failed
    · simp [good] at failed

theorem Parsed.stopped {wanted : Bool} (h : Parsed world request loaded tree)
    (failed : finalCode world request loaded wanted = .error report) :
    ∃ failure, report.ending = .fault (.formatter failure) ∧
      ∃ invocation ∈ report.trace.started, world.runner invocation = .raised failure := by
  obtain ⟨before, ready⟩ := h.codeOf_eq
  rw [finalCode, ready] at failed
  simp only at failed
  split_ifs at failed
  exact reformat_eq_error failed

/-- Behind its tree a build fails in the formatter or on the disk. -/
theorem Parsed.built {outDir : Option String} {noFormat : Bool}
    (h : Parsed world request loaded tree) (action : request.action = .build outDir noFormat) :
    (∃ failure, (runRequest world request).1.ending = .fault (.formatter failure) ∧
      (runRequest world request).2 = world.disk ∧
      ∃ invocation ∈ (runRequest world request).1.trace.started,
        world.runner invocation = .raised failure) ∨
    ∃ dir code,
      (runRequest world request).1.ending = endingOf (placed world dir request.file code) ∧
      (runRequest world request).2 = (placed world dir request.file code).disk := by
  rw [runRequest, h.read]
  simp only [action]
  cases final : finalCode world request loaded (loaded.settings.format && !noFormat) with
  | error report =>
    obtain ⟨failure, ending, started⟩ := h.stopped final
    rw [runBuild, final]
    exact Or.inl ⟨failure, ending, rfl, started⟩
  | ok made =>
    obtain ⟨code, trace⟩ := made
    obtain ⟨disk, ending⟩ : (runBuild world request loaded outDir noFormat).2 = _ ∧ _ :=
      runBuild_of_finalCode final
    exact Or.inr ⟨_, code, ending, disk⟩

/-- A run that has a tree succeeds, or fails in the formatter or on the disk. -/
theorem Parsed.ending_cases (h : Parsed world request loaded tree) :
    (runRequest world request).1.ending = .exit 0 ∨
      (∃ failure, (runRequest world request).1.ending = .fault (.formatter failure)) ∨
      ∃ fault, (runRequest world request).1.ending = .fault (.disk fault) := by
  cases action : request.action with
  | build outDir noFormat =>
    rcases h.built action with ⟨failure, ending, -⟩ | ⟨dir, code, ending, -⟩
    · exact Or.inr (Or.inl ⟨failure, ending⟩)
    · rw [ending]
      exact (endingOf_cases (placed world dir request.file code)).imp_right Or.inr
  | emit format =>
    rw [runRequest, h.read]
    simp only [action]
    cases final : finalCode world request loaded format with
    | error report =>
      obtain ⟨failure, ending, -⟩ := h.stopped final
      rw [runEmit, final]
      exact Or.inr (Or.inl ⟨failure, ending⟩)
    | ok made =>
      rw [runEmit, final]
      exact Or.inl rfl
  | tokens json maxItems => exact Or.inl (h.shown (Or.inl ⟨json, maxItems, action⟩))
  | ast json maxItems => exact Or.inl (h.shown (Or.inr (Or.inl ⟨json, maxItems, action⟩)))

/-- No run that has a tree ends with status 1. -/
theorem Parsed.ending_ne (h : Parsed world request loaded tree) :
    (runRequest world request).1.ending ≠ .exit 1 := by
  rcases h.ending_cases with ending | ⟨failure, ending⟩ | ⟨fault, ending⟩ <;> simp [ending]

end Stages

end XoLang.Command
