import XoLang.Proofs.Documents
import XoLang.Proofs.Stages

/-!
# What a command with status 1 writes

A command ends with status 1 when its source or its delimiter is refused, or when the source has an
error. A refusal is one JSON object. An error has a kind, a message, a place and maybe a detail, and
is written for tools as a JSON list that holds nothing else, and for readers as a line behind the
log. No other run ends with that status.
-/

namespace XoLang.Command

/-! The texts. -/

/-- The character that a fault names. -/
def character? : LexFault → Option String
  | .unexpected c => some (String.singleton c)
  | _ => none

/-- An error for tools. A detail names a character or the kind of a token. -/
def errorJson (kind message : String) (place : Location) (detail : Option (String × String)) :
    Json :=
  .object ([("kind", .text kind), ("message", .text message),
    ("location", .object [("file", .text place.file), ("line", .int place.line),
      ("column", .int place.column)])] ++
    detail.toList.map fun (name, value) => ("details", .object [(name, .text value)]))

/-- An error on a line: a mark, the place, the message and the kind. In colour the mark and the
message are red and the kind is dim. -/
def errorLine (colour : Bool) (kind message : String) (place : Location) : String :=
  let spot := place.file ++ ":" ++ toString place.line ++ ":" ++ toString place.column
  if colour then
    " \x1b[31m✖\x1b[0m  " ++ spot ++ ": \x1b[31m" ++ message ++ "\x1b[0m \x1b[2m[" ++ kind ++
      "]\x1b[0m\n"
  else " ✖  " ++ spot ++ ": " ++ message ++ " [" ++ kind ++ "]\n"

/-- A result that shows one error in an output format, and nothing else but the log. -/
inductive Shows (colour : Bool) (verbosity : Nat) (format kind message : String)
    (place : Location) (detail : Option (String × String)) (result : Result) : Prop
  | json {records : List LogRecord} (wanted : format = "json")
      (document : Json.IsDocument (.list [errorJson kind message place detail]) result.stdout)
      (log : result.stderr = logText verbosity records)
  | line {records : List LogRecord} (wanted : format ≠ "json") (nothing : result.stdout = "")
      (behind : result.stderr =
        logText verbosity records ++ errorLine colour kind message place)

/-- A result that refuses, in one JSON object. -/
structure Refuses (verbosity : Nat) (message : String) (result : Result) : Prop where
  document : Json.IsDocument (.object [("error", .text message)]) result.stdout
  log : ∃ records, result.stderr = logText verbosity records

/-- The output format that counts. -/
def formatFor (request : Request) (settings : Settings) : String :=
  request.outputFormat.getD settings.outputFormat

/-- A result that reports a source whose tokens make no program: one error at the token at fault, or
at the last place if the tokens end too early. -/
inductive Misparsed (world : World) (verbosity : Nat) (request : Request) (result : Result) : Prop
  | mk {settings : Settings} {delimiter : Delimiter} {source : String} {tokens : List Token}
      {e : ParseError} (reads : Reads world request settings delimiter source)
      (lexed : tokenize delimiter request.file source = .ok tokens)
      (failed : parseTokens request.file tokens = .error e)
      (shown : Shows world.colour verbosity (formatFor request settings) "parse_error"
        e.fault.message ((e.fault.token?.map (·.location)).getD e.ending)
        (e.fault.token?.map fun found => ("token_kind", found.kind.label)) result)

/-- Why a run ends with status 1, and what it writes then. -/
inductive Explains (world : World) (verbosity : Nat) (request : Request) (result : Result) : Prop
  | noFile (absent : world.disk.isFile world.cwd request.file = false)
      (told : Refuses verbosity ("File not found: " ++ request.file) result)
  | noDelimiter {settings : Settings} {fault : DelimiterFault}
      (found : (loadSettings world request (folderOf world.cwd request.file)).1 = .ok settings)
      (refused : delimiterFor request settings = .error fault)
      (told : Refuses verbosity fault.message result)
  | lexical {settings : Settings} {delimiter : Delimiter} {source : String} {e : LexError}
      (reads : Reads world request settings delimiter source)
      (failed : tokenize delimiter request.file source = .error e)
      (shown : Shows world.colour verbosity (formatFor request settings) "lex_error"
        e.fault.message e.location ((character? e.fault).map fun c => ("character", c)) result)
  | syntactic (report : Misparsed world verbosity request result)

/-- A detail as the fields of an object. -/
def detailFields (detail : Option (String × String)) : List (String × Json) :=
  detail.toList.map fun (name, value) => (name, .text value)

section Texts

variable (kind : DiagnosticKind) (message : String) (place : Location)
variable (detail : Option (String × String))

theorem toJson_eq_errorJson :
    Diagnostic.toJson ⟨kind, message, some place, detailFields detail⟩ =
      errorJson kind.name message place detail := by
  cases detail <;> rfl

theorem diagnostics_eq_errorLine (colour : Bool) (file : Option String)
    (details : List (String × Json)) :
    Dump.diagnostics colour file [⟨kind, message, some place, details⟩] ++ "\n" =
      errorLine colour kind.name message place := by
  have one : ∀ line : String, Text.join "\n" [line] = line := fun _ => rfl
  rw [Dump.diagnostics, List.map_singleton, one, Dump.diagnosticLine, errorLine]
  apply String.toList_inj.mp
  cases colour <;>
    simp [Dump.origin, Dump.paint, Dump.Ink.code, Location.text, Location.position]

theorem whole_errorJson (kind : String) : (errorJson kind message place detail).Whole := by
  have spot : (Json.object [("file", .text place.file), ("line", .int place.line),
      ("column", .int place.column)]).Whole := by
    refine .object ?_
    simp only [List.forall_mem_cons]
    exact ⟨.text _, .int _, .int _, by simp⟩
  refine .object ?_
  simp only [List.forall_mem_append, List.forall_mem_cons]
  refine ⟨⟨.text _, .text _, spot, by simp⟩, ?_⟩
  cases detail with
  | none => simp
  | some named => simpa using Json.Whole.object (by simpa using Json.Whole.text named.2)

theorem diagnostic_of_lexError (e : LexError) : e.diagnostic = ⟨.lexical, e.fault.message,
    some e.location, detailFields ((character? e.fault).map fun c => ("character", c))⟩ := by
  obtain ⟨fault, location⟩ := e
  cases fault <;> rfl

theorem diagnostic_of_parseError (e : ParseError) : e.diagnostic = ⟨.syntactic, e.fault.message,
    some ((e.fault.token?.map (·.location)).getD e.ending),
    detailFields (e.fault.token?.map fun found => ("token_kind", found.kind.label))⟩ := by
  obtain ⟨fault, ending⟩ := e
  cases fault <;> rfl

end Texts

section Failures

variable {world : World} {request : Request} {report : Report} {loaded : Loaded}
variable {settings : Settings} {verbosity : Nat}

/-- A diagnosis shows its error. -/
theorem shows_diagnose (kind : DiagnosticKind) {message : String} {place : Location}
    {detail : Option (String × String)} (same : loaded.settings = override request settings)
    (trace : Trace) (disk : Disk) :
    Shows world.colour verbosity (formatFor request settings) kind.name message place detail
      ((diagnose world request loaded ⟨kind, message, some place, detailFields detail⟩
        trace).result verbosity disk) := by
  have format : loaded.settings.outputFormat = formatFor request settings := by
    rw [same]
    rfl
  rw [diagnose, format]
  split_ifs with json
  · have whole : (Json.list [errorJson kind.name message place detail]).Whole :=
      .list (by simpa using whole_errorJson message place detail kind.name)
    have written : Json.IsDocument (.list [errorJson kind.name message place detail])
        ((Diagnostic.listJson [⟨kind, message, some place, detailFields detail⟩]).write (some 2) ++
          "\n") := by
      rw [Diagnostic.listJson, List.map_singleton, toJson_eq_errorJson]
      exact whole.isDocument (some 2)
    exact .json json written String.append_empty
  · have line := diagnostics_eq_errorLine kind message place world.colour (some request.file)
      (detailFields detail)
    exact .line json rfl (congrArg (logText verbosity trace.log ++ ·) line)

theorem refuses_refused (message : String) (trace : Trace) (disk : Disk) :
    Refuses verbosity message ((Report.refused message trace).result verbosity disk) := by
  have whole : (Json.object [("error", .text message)]).Whole :=
    .object (by simpa using Json.Whole.text message)
  exact ⟨whole.isDocument none, trace.log, String.append_empty⟩

/-- Reading ends with status 1 only where the source is missing or the delimiter is refused. -/
theorem explains_of_load (failed : load world request = .error report)
    (one : report.ending = .exit 1) (disk : Disk) :
    Explains world verbosity request (report.result verbosity disk) := by
  rw [load] at failed
  split_ifs at failed with absent
  · cases failed
    exact .noFile (by simpa using absent) (refuses_refused _ _ disk)
  simp only at failed
  split at failed
  · cases failed
    cases one
  rename_i found
  split at failed
  · rename_i refused
    cases failed
    exact .noDelimiter found refused (refuses_refused _ _ disk)
  split at failed
  · cases failed
    cases one
  split at failed
  · cases failed
    cases one
  · cases failed

theorem explains_of_tokensOf (read : load world request = .ok loaded)
    (failed : tokensOf world request loaded = .error report) (disk : Disk) :
    Explains world verbosity request (report.result verbosity disk) := by
  obtain ⟨settings, reads, same⟩ := reads_of_load read
  obtain ⟨e, lexed, rfl⟩ := tokensOf_eq_error_iff.mp failed
  rw [diagnostic_of_lexError]
  exact .lexical reads lexed (shows_diagnose .lexical same loaded.trace disk)

theorem Unparsed.misparsed {e : ParseError} (h : Unparsed world request e report)
    (verbosity : Nat) (disk : Disk) :
    Misparsed world verbosity request (report.result verbosity disk) := by
  cases h with
  | @mk loaded tokens trace read lexed failed =>
    obtain ⟨settings, reads, same⟩ := reads_of_load read
    rw [diagnostic_of_parseError]
    exact .mk reads (tokensOf_eq_ok_iff.mp lexed).1 failed
      (shows_diagnose .syntactic same trace disk)

/-- What a run with status 1 writes says why it failed. -/
theorem explains_of_exit_one (one : (runRequest world request).1.ending = .exit 1) :
    Explains world verbosity request
      ((runRequest world request).1.result verbosity (runRequest world request).2) := by
  rcases stages world request with ⟨report, early⟩ | ⟨e, report, unparsed⟩ | ⟨loaded, tree, parsed⟩
  · rw [early.runRequest_eq] at one ⊢
    cases early with
    | unread failed => exact explains_of_load failed one world.disk
    | unlexed read failed => exact explains_of_tokensOf read failed world.disk
  · by_cases shows : ∃ json maxItems, request.action = .tokens json maxItems
    · obtain ⟨json, maxItems, action⟩ := shows
      rw [unparsed.tokens_shown action] at one
      cases one
    · have other : ∀ json maxItems, request.action ≠ .tokens json maxItems := by
        intro json maxItems action
        exact shows ⟨json, maxItems, action⟩
      rw [unparsed.runRequest_eq other]
      exact .syntactic (unparsed.misparsed verbosity world.disk)
  · exact absurd one parsed.ending_ne

end Failures

end XoLang.Command
