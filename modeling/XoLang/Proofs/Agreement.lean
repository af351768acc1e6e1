import XoLang.Proofs.Failures

/-!
# Commands that agree

All commands read the settings, the source and its tokens in the same way, and all but the one that
shows tokens go on to the tree. So on one source they fail together, with the same report, as long
as the tree is not known; behind it only a build can fail, in the formatter or on the disk.
-/

namespace XoLang.Command

/-- What the results of the four commands on one source have in common. -/
structure Agree (world : World) (verbosity : Nat) (request : Request)
    (tokens ast emit build : Result) : Prop where
  success : ast.ending = .exit 0 ↔ emit.ending = .exit 0
  /-- What stops one stops all, in the same way and with the disk as it was. -/
  failure : ast.ending ≠ .exit 0 → emit = ast ∧ build = ast ∧ ast.disk = world.disk
  /-- A build can fail by itself only in the formatter, or while it changes the disk. -/
  beyond : ast.ending = .exit 0 →
    (∃ failure, build.ending = .fault (.formatter failure) ∧ build.disk = world.disk ∧
      ∃ invocation ∈ build.started, world.runner invocation = .raised failure) ∨
    ∃ dir code, build.ending = endingOf (placed world dir request.file code) ∧
      build.disk = (placed world dir request.file code).disk
  early : tokens.ending ≠ .exit 0 → ast = tokens ∧ emit = tokens ∧ build = tokens
  /-- Tokens that make no program are reported by all but the command that shows them. -/
  late : tokens.ending = .exit 0 → ast.ending ≠ .exit 0 →
    ast.ending = .exit 1 ∧ Misparsed world verbosity request ast

/-- The result of a request. -/
def resultOf (world : World) (verbosity : Nat) (request : Request) : Result :=
  (runRequest world request).1.result verbosity (runRequest world request).2

/-- The commands agree on the source of a request, whatever else they are asked. -/
def AgreeOn (world : World) (verbosity : Nat) (request : Request) : Prop :=
  ∀ json maxItems asJson limit outDir noFormat,
    Agree world verbosity request
      (resultOf world verbosity { request with action := .tokens json maxItems })
      (resultOf world verbosity { request with action := .ast asJson limit })
      (resultOf world verbosity { request with action := .emit false })
      (resultOf world verbosity { request with action := .build outDir noFormat })

section Agreeing

variable {world : World} {request : Request} {report : Report} {e : ParseError} {loaded : Loaded}
variable {tree : Tree}

theorem Early.agreeOn (h : Early world request report) (verbosity : Nat) :
    AgreeOn world verbosity request := by
  intro json maxItems asJson limit outDir noFormat
  have shared : ∀ action, resultOf world verbosity { request with action := action } =
      report.result verbosity world.disk := by
    intro action
    rw [resultOf, (h.withAction action).runRequest_eq]
  have failed : (report.result verbosity world.disk).ending ≠ .exit 0 := h.ending_ne
  rw [shared, shared, shared, shared]
  exact ⟨Iff.rfl, fun _ => ⟨rfl, rfl, rfl⟩, fun success => absurd success failed,
    fun _ => ⟨rfl, rfl, rfl⟩, fun success => absurd success failed⟩

theorem Unparsed.agreeOn (h : Unparsed world request e report) (verbosity : Nat) :
    AgreeOn world verbosity request := by
  intro json maxItems asJson limit outDir noFormat
  have shared : ∀ action, (∀ json maxItems, action ≠ .tokens json maxItems) →
      resultOf world verbosity { request with action := action } =
        report.result verbosity world.disk := by
    intro action other
    rw [resultOf, (h.withAction action).runRequest_eq other]
  have shown : (resultOf world verbosity { request with action := .tokens json maxItems }).ending =
      .exit 0 := (h.withAction _).tokens_shown rfl
  have one : (report.result verbosity world.disk).ending = .exit 1 := h.ending_eq
  have failed : (report.result verbosity world.disk).ending ≠ .exit 0 := by simp [one]
  rw [shared (.ast asJson limit) (by simp), shared (.emit false) (by simp),
    shared (.build outDir noFormat) (by simp)]
  exact ⟨Iff.rfl, fun _ => ⟨rfl, rfl, rfl⟩, fun success => absurd success failed,
    fun bad => absurd shown bad, fun _ _ => ⟨one, h.misparsed verbosity world.disk⟩⟩

theorem Parsed.agreeOn (h : Parsed world request loaded tree) (verbosity : Nat) :
    AgreeOn world verbosity request := by
  intro json maxItems asJson limit outDir noFormat
  have tokens : (resultOf world verbosity { request with action := .tokens json maxItems }).ending =
      .exit 0 := (h.withAction _).shown (Or.inl ⟨_, _, rfl⟩)
  have ast : (resultOf world verbosity { request with action := .ast asJson limit }).ending =
      .exit 0 := (h.withAction _).shown (Or.inr (Or.inl ⟨_, _, rfl⟩))
  have emit : (resultOf world verbosity { request with action := .emit false }).ending =
      .exit 0 := (h.withAction _).shown (Or.inr (Or.inr rfl))
  exact ⟨iff_of_true ast emit, fun bad => absurd ast bad,
    fun _ => (h.withAction (.build outDir noFormat)).built rfl,
    fun bad => absurd tokens bad, fun _ bad => absurd ast bad⟩

/-- A run comes to an end at one of three stages, and at each the commands agree. -/
theorem agreeOn (world : World) (verbosity : Nat) (request : Request) :
    AgreeOn world verbosity request := by
  rcases stages world request with ⟨report, early⟩ | ⟨e, report, unparsed⟩ | ⟨loaded, tree, parsed⟩
  · exact early.agreeOn verbosity
  · exact unparsed.agreeOn verbosity
  · exact parsed.agreeOn verbosity

/-- The commands agree on one source. Whoever ends with status 1 has written nothing but one error
behind the log, or one JSON document that says why. -/
theorem commands_agree {tokensLine astLine emitLine buildLine : List String}
    {json asJson noFormat : Bool} {maxItems limit : Int} {outDir : Option String}
    (world : World) (request : Request) (verbosity : Nat)
    (asksTokens : readArguments tokensLine =
      .run verbosity { request with action := .tokens json maxItems })
    (asksAst : readArguments astLine =
      .run verbosity { request with action := .ast asJson limit })
    (asksEmit : readArguments emitLine = .run verbosity { request with action := .emit false })
    (asksBuild : readArguments buildLine =
      .run verbosity { request with action := .build outDir noFormat }) :
    Agree world verbosity request (run world tokensLine) (run world astLine) (run world emitLine)
      (run world buildLine) ∧
    ∀ commandLine verbosity request, readArguments commandLine = .run verbosity request →
      (run world commandLine).ending = .exit 1 →
        Explains world verbosity request (run world commandLine) := by
  constructor
  · rw [run_eq world asksTokens, run_eq world asksAst, run_eq world asksEmit,
      run_eq world asksBuild]
    exact agreeOn world verbosity request json maxItems asJson limit outDir noFormat
  · intro commandLine verbosity request asked one
    rw [run_eq world asked] at one ⊢
    exact explains_of_exit_one one

end Agreeing

theorem Reads.unique {world : World} {request : Request} {settings settings' : Settings}
    {delimiter delimiter' : Delimiter} {source source' : String}
    (h : Reads world request settings delimiter source)
    (h' : Reads world request settings' delimiter' source') :
    settings = settings' ∧ delimiter = delimiter' ∧ source = source' := by
  obtain rfl := Except.ok.inj (h.found.symm.trans h'.found)
  obtain rfl := Except.ok.inj (h.accepted.symm.trans h'.accepted)
  obtain ⟨content, read, text⟩ := h.text
  obtain ⟨content', read', text'⟩ := h'.text
  obtain rfl := Except.ok.inj (read.symm.trans read')
  exact ⟨rfl, rfl, Option.some.inj (text.symm.trans text')⟩

/-- A source with a name that is not called. -/
def uncalledName : World where
  disk := ⟨[(["a.xo"], .file ⟨#[102]⟩)]⟩
  cwd := []
  colour := false
  runner := fun _ => .notFound
  reader := .standard id ""

theorem uncalledName_reads :
    Reads uncalledName ⟨"a.xo", none, none, none, .emit false⟩ .default .default "f" := by
  have text : fileText? ⟨#[102]⟩ = some "f" := by decide
  exact ⟨by decide, rfl, ⟨#[102]⟩, by decide, text⟩

theorem uncalledName_lexed :
    tokenize .default "a.xo" "f" = .ok [⟨.name, "f", ⟨1, 1, "a.xo"⟩⟩] := by
  decide +kernel

theorem uncalledName_error : parseTokens "a.xo" [⟨.name, "f", ⟨1, 1, "a.xo"⟩⟩] =
    .error ⟨.notCalled ⟨.name, "f", ⟨1, 1, "a.xo"⟩⟩, ⟨1, 1, "a.xo"⟩⟩ := by
  simp [parseTokens, sequence, item, isBooleanWord, declarationWord, endLocation]

/-- Its tokens are shown, and all the other commands report that they make no program. -/
theorem uncalled_name_reported :
    (run uncalledName ["tokens", "a.xo"]).ending = .exit 0 ∧
    run uncalledName ["emit", "a.xo"] = run uncalledName ["ast", "a.xo"] ∧
    run uncalledName ["build", "a.xo"] = run uncalledName ["ast", "a.xo"] ∧
    (run uncalledName ["ast", "a.xo"]).ending = .exit 1 ∧
    (run uncalledName ["ast", "a.xo"]).stdout = "" ∧
    ∃ records, (run uncalledName ["ast", "a.xo"]).stderr = logText 0 records ++
      " ✖  a.xo:1:1: Expected '(' after 'f' to call it [parse_error]\n" := by
  have asksTokens : readArguments ["tokens", "a.xo"] =
      .run 0 ⟨"a.xo", none, none, none, .tokens false 100⟩ := by decide
  have asksAst : readArguments ["ast", "a.xo"] =
      .run 0 ⟨"a.xo", none, none, none, .ast false 100⟩ := by decide
  have asksEmit : readArguments ["emit", "a.xo"] =
      .run 0 ⟨"a.xo", none, none, none, .emit false⟩ := by decide
  have asksBuild : readArguments ["build", "a.xo"] =
      .run 0 ⟨"a.xo", none, none, none, .build none false⟩ := by decide
  obtain ⟨trace, read⟩ := load_of_reads uncalledName_reads
  have unparsed :=
    Unparsed.mk read (tokensOf_eq_ok_iff.mpr ⟨uncalledName_lexed, rfl⟩) uncalledName_error
  have shown : (run uncalledName ["tokens", "a.xo"]).ending = .exit 0 := by
    rw [run_eq _ asksTokens]
    exact (unparsed.withAction (.tokens false 100)).tokens_shown rfl
  have failed : (run uncalledName ["ast", "a.xo"]).ending ≠ .exit 0 := by
    rw [run_eq _ asksAst, (unparsed.withAction (.ast false 100)).runRequest_eq (by simp)]
    intro good
    cases unparsed.ending_eq.symm.trans good
  have agree := (commands_agree uncalledName ⟨"a.xo", none, none, none, .emit false⟩ 0 asksTokens
    asksAst asksEmit asksBuild).1
  obtain ⟨emit, build, -⟩ := agree.failure failed
  obtain ⟨one, ⟨reads, lexed, error, told⟩⟩ := agree.late shown failed
  obtain ⟨rfl, rfl, rfl⟩ := reads.unique uncalledName_reads
  obtain rfl := Except.ok.inj (lexed.symm.trans uncalledName_lexed)
  obtain rfl := Except.error.inj (error.symm.trans uncalledName_error)
  cases told with
  | json wanted => exact absurd wanted (by decide)
  | line _ nothing behind => exact ⟨shown, emit, build, one, nothing, _, behind⟩

end XoLang.Command
