import Gherkin.Command.Directory
import Gherkin.Command.Run
import Gherkin.Proofs.Bytes
import Gherkin.Proofs.Compiling
import Gherkin.Proofs.DialectDocument

/-!
# How a run ends

The environment, the flags, the keyword document and the document itself can all be at
fault at once.  Which of them decides is fixed:

> `outcome_ends`: a run ends in exactly one of the ways that `Ends` lists.  A fault of
> the configuration gives status 2 whatever the document is, then a document that
> cannot be read, has no dialect or has one with a pattern that is refused gives
> status 1, and then the status is 0 with the whole output.  There is no output with
> another status, and runs that differ in valid log levels only are the same.

A dialect alone is no promise of success: a keyword may be so long that its pattern is
refused, and then the status is 1 (`outcome_of_long_keyword`).

`Ends` speaks of files as bytes and of the parts of a run, not of `outcome`.  For the
log levels the command line is compared with what is left of it without them: reading
it and forgetting the level commute, item by item (`withItem_quiet`).
-/

namespace Gherkin

variable {t : DialectTable} {d : Dialect} {source output words : Text} {c : Command}
  {compiler : PatternCompiler}

/-! ## Files -/

/-- The bytes of each file, or why there are none. -/
abbrev Files := Text → Except ReadFailure ByteArray

namespace Files

/-- Files read as text. -/
def text (files : Files) : FileReader := fun path =>
  match files path with
  | .error cause => .error cause
  | .ok content =>
    match String.fromUTF8? content with
    | some s => .ok s.toList
    | none => .error .notText

/-- That a file holds a text in UTF-8. -/
def Holds (files : Files) (path source : Text) : Prop :=
  ∃ content, files path = .ok content ∧ content.data.toList = Text.utf8 source

theorem fromUTF8?_eq_some {content : ByteArray} {s : String} :
    String.fromUTF8? content = some s ↔ content.data.toList = Text.utf8 s.toList := by
  have hbytes : s.toByteArray.data.toList = Text.utf8 s.toList := by
    rw [← String.utf8Encode_toList, List.utf8Encode, List.data_toByteArray]
    rfl
  rw [← hbytes, String.fromUTF8?]
  constructor
  · intro h
    split at h
    next hvalid =>
      obtain rfl := Option.some.inj h
      rfl
    next => cases h
  · intro h
    obtain rfl : content = s.toByteArray := ByteArray.ext (Array.ext' h)
    rw [dif_pos s.isValidUTF8]
    rfl

/-- The text of a file is the one that the file holds. -/
theorem text_eq_ok {files : Files} {path : Text} :
    files.text path = .ok source ↔ files.Holds path source := by
  rw [text, Holds]
  cases files path with
  | error cause => simp
  | ok content =>
    have hholds : String.fromUTF8? content = some (String.ofList source) ↔
        content.data.toList = Text.utf8 source := by
      rw [fromUTF8?_eq_some, String.toList_ofList]
    simp only [Except.ok.injEq, exists_eq_left', ← hholds]
    cases hs : String.fromUTF8? content with
    | none => simp
    | some s => simp [← String.toList_inj]

end Files

/-- The bytes of the files of a directory. -/
def Directory.bytes (d : Directory) : Files := fun path =>
  if path.isEmpty then .error .notFound
  else
    match d.follow (start path) (names path) with
    | .error cause => .error cause
    | .ok .folder => .error .isDirectory
    | .ok (.file content) => .ok content

/-- A directory is read by the bytes of its files. -/
theorem Directory.text_bytes (d : Directory) : d.bytes.text = d.read := by
  funext path
  rw [Files.text, bytes, read]
  cases path.isEmpty with
  | true => rfl
  | false =>
    cases d.follow (start path) (names path) with
    | error cause => rfl
    | ok e => cases e <;> rfl

/-! ## Output -/

namespace Command

/-- What a command shows of a text. -/
inductive Shows (t : DialectTable) (source : Text) (compiler : PatternCompiler) :
    Command → Text → Prop
  | tokens {file : Text} {ts : List Token} (h : t.tokenizeText source compiler = .ok ts) :
      Shows t source compiler (.tokens file) (Token.listings ts)
  | tree {file : Text} {fs : List Feature} (h : t.parseText source compiler = .ok fs) :
      Shows t source compiler (.tree file false) (dump fs)
  | json {file : Text} {fs : List Feature} (h : t.parseText source compiler = .ok fs) :
      Shows t source compiler (.tree file true) (Feature.jsonDocument fs)

theorem render_eq_ok :
    c.render t source compiler = .ok output ↔ Shows t source compiler c output := by
  cases c with
  | tokens file =>
    rw [render]
    cases hts : t.tokenizeText source compiler with
    | error e =>
      refine iff_of_false nofun ?_
      rintro ⟨h⟩
      cases hts.symm.trans h
    | ok ts =>
      constructor
      · rintro ⟨⟩
        exact .tokens hts
      · rintro ⟨h⟩
        obtain rfl := Except.ok.inj (hts.symm.trans h)
        rfl
  | tree file json =>
    rw [render]
    cases hfs : t.parseText source compiler with
    | error e =>
      refine iff_of_false nofun ?_
      rintro (_ | ⟨h⟩ | ⟨h⟩)
      · cases hfs.symm.trans h
      · cases hfs.symm.trans h
    | ok fs =>
      constructor
      · rintro ⟨⟩
        cases json with
        | false => exact .tree hfs
        | true => exact .json hfs
      · rintro (_ | ⟨h⟩ | ⟨h⟩)
        · obtain rfl := Except.ok.inj (hfs.symm.trans h)
          rfl
        · obtain rfl := Except.ok.inj (hfs.symm.trans h)
          rfl

/-- A command fails on a text exactly if the table has no dialect for its locale, or one
with a pattern that is refused. -/
theorem render_error_iff :
    (∃ f, c.render t source compiler = .error f) ↔
      t.lookup? (t.localeOf (Text.lines source)) = none ∨
        ∃ d, t.lookup? (t.localeOf (Text.lines source)) = some d ∧ compiler.Refuses d := by
  rw [← DialectTable.exists_tokenize_eq_error]
  cases c with
  | tokens file =>
    rw [render, DialectTable.tokenizeText]
    cases t.tokenize (Text.lines source) compiler <;> simp [Except.map, Except.mapError]
  | tree file json =>
    rw [render, DialectTable.parseText, DialectTable.parse]
    cases t.tokenize (Text.lines source) compiler <;> simp [Except.map, Except.mapError]

/-- What is said against a pattern is what the command fails with. -/
theorem render_of_refusal (hd : t.lookup? (t.localeOf (Text.lines source)) = some d)
    (hwords : compiler.refusal? d = some words) :
    ∃ f, c.render t source compiler = .error f ∧ f.error = .document (.matcher words) := by
  have hdialect : t.dialectOf (Text.lines source) = .ok d := by rw [DialectTable.dialectOf, hd]
  have htokens := DialectTable.tokenize_of_refusal hdialect hwords
  cases c with
  | tokens file =>
    refine ⟨.tokenizing file (.matcher words), ?_, rfl⟩
    rw [render, DialectTable.tokenizeText, htokens]
    rfl
  | tree file json =>
    refine ⟨.parsing file (.matcher words), ?_, rfl⟩
    rw [render, DialectTable.parseText, DialectTable.parse, htokens]
    rfl

end Command

/-! ## The ways to end -/

/-- Settings with a keyword document select its table. -/
theorem Settings.table_of_document {s : Settings} {read : FileReader} {path document : Text}
    (hpath : s.keywords = some path) (hread : read path = .ok document)
    (h : DialectTable.ofDocument document s.baseLocale = .ok t) : s.table read = .ok t := by
  rw [table, hpath]
  dsimp only
  rw [hread]
  dsimp only
  rw [h]
  rfl

namespace Invocation

variable {i i' : Invocation} {env env' : Environment} {files : Files}

/-- That the environment, or the table that it selects with the overrides, is at fault. -/
inductive Misconfigured (i : Invocation) (env : Environment) (files : Files) : Prop
  | environment {e : SettingError} (h : Settings.ofEnvironment env = .error e)
  | table {s : Settings} {e : CommandError} (hs : Settings.ofEnvironment env = .ok s)
      (h : (s.override i.overrides).table files.text = .error e)

/-- That an invocation works with a table. -/
def Configures (i : Invocation) (env : Environment) (files : Files) (t : DialectTable) : Prop :=
  ∃ s, Settings.ofEnvironment env = .ok s ∧ (s.override i.overrides).table files.text = .ok t

/-- The ways to end, by the status and the output. -/
inductive Ends (i : Invocation) (env : Environment) (files : Files) (compiler : PatternCompiler) :
    Nat → Text → Prop
  | misconfigured (h : i.Misconfigured env files) : Ends i env files compiler 2 []
  | unreadable {t : DialectTable} (ht : i.Configures env files t)
      (h : ∀ source, ¬ files.Holds i.command.file source) : Ends i env files compiler 1 []
  | noDialect {t : DialectTable} {source : Text} (ht : i.Configures env files t)
      (hsource : files.Holds i.command.file source)
      (h : t.lookup? (t.localeOf (Text.lines source)) = none) : Ends i env files compiler 1 []
  | refused {t : DialectTable} {source : Text} {d : Dialect} (ht : i.Configures env files t)
      (hsource : files.Holds i.command.file source)
      (hd : t.lookup? (t.localeOf (Text.lines source)) = some d) (h : compiler.Refuses d) :
      Ends i env files compiler 1 []
  | shown {t : DialectTable} {source output : Text} (ht : i.Configures env files t)
      (hsource : files.Holds i.command.file source)
      (h : i.command.Shows t source compiler output) : Ends i env files compiler 0 output

theorem table_eq_ok : i.table env files.text = .ok t ↔ i.Configures env files t := by
  rw [table, settings, Configures]
  cases Settings.ofEnvironment env with
  | error e => exact iff_of_false nofun nofun
  | ok s => simp [Except.map, Except.mapError]

theorem table_error_iff : (∃ e, i.table env files.text = .error e) ↔ i.Misconfigured env files := by
  rw [table, settings]
  constructor
  · rintro ⟨e, h⟩
    cases hs : Settings.ofEnvironment env with
    | error e => exact .environment hs
    | ok s =>
      rw [hs] at h
      exact .table hs h
  · rintro (h | ⟨hs, h⟩)
    · rw [h]
      exact ⟨_, rfl⟩
    · rw [hs]
      exact ⟨_, h⟩

/-- Once the document is there, a run fails as its command does. -/
theorem outcome_of_render_eq_error {f : RunFailure} (ht : i.Configures env files t)
    (hsource : files.Holds i.command.file source)
    (hf : i.command.render t source compiler = .error f) :
    i.outcome env files.text compiler = ⟨1, [], some (.run f)⟩ := by
  simp only [outcome, table_eq_ok.2 ht, Command.perform, Files.text_eq_ok.2 hsource, hf]

/-- Once the document is there, a run gives what its command gives. -/
theorem outcome_of_render_eq_ok (ht : i.Configures env files t)
    (hsource : files.Holds i.command.file source)
    (h : i.command.render t source compiler = .ok output) :
    i.outcome env files.text compiler = ⟨0, output, none⟩ := by
  simp only [outcome, table_eq_ok.2 ht, Command.perform, Files.text_eq_ok.2 hsource, h]

/-- A run that fails on its document, whatever the reason is. -/
theorem outcome_of_render_error (ht : i.Configures env files t)
    (hsource : files.Holds i.command.file source)
    (h : ∃ f, i.command.render t source compiler = .error f) :
    (i.outcome env files.text compiler).status = 1 ∧
      (i.outcome env files.text compiler).output = [] := by
  obtain ⟨f, hf⟩ := h
  rw [outcome_of_render_eq_error ht hsource hf]
  exact ⟨rfl, rfl⟩

/-- A pattern that is refused ends the run, and with nothing but the words of the refusal. -/
theorem outcome_of_refusal (ht : i.Configures env files t)
    (hsource : files.Holds i.command.file source)
    (hd : t.lookup? (t.localeOf (Text.lines source)) = some d)
    (hwords : compiler.refusal? d = some words) :
    ∃ f, i.outcome env files.text compiler = ⟨1, [], some (.run f)⟩ ∧
      f.error = .document (.matcher words) := by
  obtain ⟨f, hf, herror⟩ := Command.render_of_refusal (c := i.command) hd hwords
  exact ⟨f, outcome_of_render_eq_error ht hsource hf, herror⟩

theorem ends_outcome (i : Invocation) (env : Environment) (files : Files)
    (compiler : PatternCompiler) :
    Ends i env files compiler (i.outcome env files.text compiler).status
      (i.outcome env files.text compiler).output := by
  rw [outcome]
  cases htable : i.table env files.text with
  | error e => exact .misconfigured (table_error_iff.1 ⟨e, htable⟩)
  | ok t =>
    have ht := table_eq_ok.1 htable
    simp only [Command.perform]
    cases hsource : files.text i.command.file with
    | error cause =>
      refine .unreadable ht fun source hholds => ?_
      cases hsource.symm.trans (Files.text_eq_ok.2 hholds)
    | ok source =>
      have hholds := Files.text_eq_ok.1 hsource
      dsimp only
      cases hrender : i.command.render t source compiler with
      | error f =>
        rcases Command.render_error_iff.1 ⟨f, hrender⟩ with hnone | ⟨d, hd, hrefuses⟩
        · exact .noDialect ht hholds hnone
        · exact .refused ht hholds hd hrefuses
      | ok output => exact .shown ht hholds (Command.render_eq_ok.1 hrender)

theorem Ends.outcome_eq {status : Nat} (h : Ends i env files compiler status output) :
    (i.outcome env files.text compiler).status = status ∧
      (i.outcome env files.text compiler).output = output := by
  cases h with
  | misconfigured h =>
    obtain ⟨e, he⟩ := table_error_iff.2 h
    rw [outcome, he]
    exact ⟨rfl, rfl⟩
  | unreadable ht h =>
    rw [outcome, table_eq_ok.2 ht]
    simp only [Command.perform]
    cases hsource : files.text i.command.file with
    | error cause => exact ⟨rfl, rfl⟩
    | ok source => exact absurd (Files.text_eq_ok.1 hsource) (h source)
  | noDialect ht hsource h =>
    exact outcome_of_render_error ht hsource (Command.render_error_iff.2 (Or.inl h))
  | refused ht hsource hd h =>
    exact outcome_of_render_error ht hsource (Command.render_error_iff.2 (Or.inr ⟨_, hd, h⟩))
  | shown ht hsource h =>
    rw [outcome_of_render_eq_ok ht hsource (Command.render_eq_ok.2 h)]
    exact ⟨rfl, rfl⟩

end Invocation

/-! ## Log levels -/

/-- Settings differ in their table only if they differ in more than the log level. -/
theorem Settings.table_congr {s s' : Settings} {read : FileReader}
    (hkeywords : s.keywords = s'.keywords) (hlocale : s.baseLocale = s'.baseLocale) :
    s.table read = s'.table read := by
  rw [table, table, hkeywords, hlocale]

/-- Overrides without a log level. -/
def Overrides.quiet (o : Overrides) : Overrides := { o with logLevel := none }

namespace Arguments

variable {o p outer : Overrides} {a b : Operands} {value : Text} {n : OptionName} {item : Item}
  {is : List Item} {allowsJson : Bool} {i : Invocation}

/-- Whether an item gives the log level. -/
def Item.isLogLevel : Item → Bool
  | .option .logLevel _ => true
  | _ => false

/-- The items that do not give the log level. -/
def quiet (is : List Item) : List Item := is.filter (!·.isLogLevel)

/-- An option is read the same without the log level, unless it is left out. -/
theorem withOption_quiet (h : withOption o value n = some p) :
    (n = .logLevel ∧ p.quiet = o.quiet) ∨
      (n ≠ .logLevel ∧ withOption o.quiet value n = some p.quiet) := by
  cases n with
  | logLevel =>
    rw [withOption] at h
    split at h
    next =>
      cases h
      exact Or.inl ⟨rfl, rfl⟩
    next => cases h
  | keywords | baseLocale =>
    rw [withOption] at h
    split at h
    next hfree =>
      cases h
      exact Or.inr ⟨nofun, if_pos hfree⟩
    next => cases h

theorem isLogLevel_option : (Item.option n value).isLogLevel = decide (n = .logLevel) := by
  cases n <;> rfl

/-- Operands without a log level. -/
def Operands.quiet (a : Operands) : Operands := { a with overrides := a.overrides.quiet }

/-- An item is read the same without the log level, unless it is left out. -/
theorem withItem_quiet (h : withItem allowsJson a item = some b) :
    (item.isLogLevel = true ∧ b.quiet = a.quiet) ∨
      (item.isLogLevel = false ∧ withItem allowsJson a.quiet item = some b.quiet) := by
  cases item with
  | option n value =>
    obtain ⟨p, hp, rfl⟩ := Option.map_eq_some_iff.1 h
    rcases withOption_quiet hp with ⟨hn, hsame⟩ | ⟨hn, hread⟩
    · exact Or.inl ⟨by rw [isLogLevel_option, decide_eq_true hn],
        by simp only [Operands.quiet, hsame]⟩
    · refine Or.inr ⟨by rw [isLogLevel_option, decide_eq_false hn], ?_⟩
      rw [withItem, Operands.quiet, hread]
      rfl
  | json | word w =>
    rw [withItem] at h
    split at h
    next hfree =>
      cases h
      exact Or.inr ⟨rfl, if_pos hfree⟩
    next => cases h
  | version | misfit => cases h

theorem foldlM_withItem_quiet : ∀ {is : List Item} {a : Operands},
    is.foldlM (withItem allowsJson) a = some b →
      (quiet is).foldlM (withItem allowsJson) a.quiet = some b.quiet
  | [], a, h => by
    cases h
    rfl
  | item :: is, a, h => by
    rw [List.foldlM_cons] at h
    obtain ⟨p, hp, hrest⟩ := Option.bind_eq_some_iff.1 h
    have hquiet := foldlM_withItem_quiet hrest
    rcases withItem_quiet hp with ⟨hlevel, hsame⟩ | ⟨hlevel, hread⟩
    · rw [quiet, List.filter_cons_of_neg (by simp [hlevel]), ← hsame]
      exact hquiet
    · rw [quiet, List.filter_cons_of_pos (by simp [hlevel]), List.foldlM_cons, hread]
      exact hquiet

end Arguments

/-- An invocation without a log level. -/
def Invocation.quiet (i : Invocation) : Invocation := { i with overrides := i.overrides.quiet }

namespace Arguments

/-- What stands behind the name of a command that does not depend on the log level. -/
theorem operands_quiet {make : Operands → Text → Command}
    (hmake : ∀ a file, make a.quiet file = make a file)
    (h : (is.foldlM (withItem allowsJson) {}).bind (fun a => a.file.bind fun file =>
      some (Request.run ⟨merge outer a.overrides, make a file⟩)) = some (.run i)) :
    ((quiet is).foldlM (withItem allowsJson) {}).bind (fun a => a.file.bind fun file =>
      some (Request.run ⟨merge outer.quiet a.overrides, make a file⟩)) = some (.run i.quiet) := by
  obtain ⟨a, ha, h⟩ := Option.bind_eq_some_iff.1 h
  obtain ⟨file, hfile, h⟩ := Option.bind_eq_some_iff.1 h
  obtain rfl := Request.run.inj (Option.some.inj h)
  have hquiet : (quiet is).foldlM (withItem allowsJson) {} = some a.quiet :=
    foldlM_withItem_quiet ha
  have hfile' : a.quiet.file = some file := hfile
  rw [hquiet, Option.bind_some, hfile', Option.bind_some, hmake]
  rfl

theorem command_quiet {name : Text} (h : command outer name is = some (.run i)) :
    command outer.quiet name (quiet is) = some (.run i.quiet) := by
  rw [command] at h ⊢
  by_cases htokens : name = "tokens".toList
  · rw [if_pos htokens] at h ⊢
    exact operands_quiet (fun _ _ => rfl) h
  · rw [if_neg htokens] at h ⊢
    by_cases htree : name = "tree".toList
    · rw [if_pos htree] at h ⊢
      exact operands_quiet (fun _ _ => rfl) h
    · rw [if_neg htree] at h
      cases h

theorem request_quiet : ∀ {is : List Item} {o : Overrides}, request o is = some (.run i) →
    request o.quiet (quiet is) = some (.run i.quiet)
  | .option n value :: is, o, h => by
    rw [request] at h
    split at h
    next p hp =>
      have hquiet := request_quiet h
      rcases withOption_quiet hp with ⟨hn, hsame⟩ | ⟨hn, hread⟩
      · rw [quiet, List.filter_cons_of_neg (by simp [isLogLevel_option, hn]), ← hsame]
        exact hquiet
      · rw [quiet, List.filter_cons_of_pos (by simp [isLogLevel_option, hn]), request, hread]
        exact hquiet
    next => cases h
  | .word name :: is, o, h => command_quiet h
  | [], o, h => nomatch h
  | .version :: is, o, h => nomatch h
  | .json :: is, o, h => nomatch h
  | .misfit :: is, o, h => nomatch h

end Arguments

/-- That two runs are given the same, up to log levels that are the names of levels. -/
structure SameButLogLevel (args args' : List Text) (env env' : Environment) : Prop where
  args_eq : Arguments.quiet (Arguments.items false args) =
    Arguments.quiet (Arguments.items false args')
  keywords_eq : env.keywords = env'.keywords
  baseLocale_eq : env.baseLocale = env'.baseLocale
  valid : ∀ name, env.logLevel = some name → ∃ level, LogLevel.ofName? name = .ok level
  valid' : ∀ name, env'.logLevel = some name → ∃ level, LogLevel.ofName? name = .ok level

namespace Settings

variable {env env' : Environment} {o o' : Overrides}

theorem exists_logLevelOf {value : Option Text}
    (h : ∀ name, value = some name → ∃ level, LogLevel.ofName? name = .ok level) :
    ∃ level, logLevelOf value = .ok level := by
  cases value with
  | none => exact ⟨.warn, rfl⟩
  | some name => exact h name rfl

end Settings

namespace Invocation

variable {args args' : List Text} {i i' : Invocation} {env env' : Environment} {files : Files}
  {read : FileReader}

theorem quiet_eq_iff : i.quiet = i'.quiet ↔
    i.overrides.keywords = i'.overrides.keywords ∧
      i.overrides.baseLocale = i'.overrides.baseLocale ∧ i.command = i'.command := by
  simp [Invocation.quiet, Overrides.quiet, and_assoc]

theorem table_eq_of_quiet (hi : i.quiet = i'.quiet) (h : SameButLogLevel args args' env env') :
    i.table env read = i'.table env' read := by
  obtain ⟨level, hlevel⟩ := Settings.exists_logLevelOf h.valid
  obtain ⟨level', hlevel'⟩ := Settings.exists_logLevelOf h.valid'
  obtain ⟨hkeywords, hlocale, -⟩ := quiet_eq_iff.1 hi
  simp only [table, settings, Settings.ofEnvironment, hlevel, hlevel', h.keywords_eq,
    h.baseLocale_eq]
  cases Settings.baseLocaleOf env'.baseLocale with
  | error e => rfl
  | ok locale =>
    refine Settings.table_congr ?_ ?_
    · show i.overrides.keywords.or _ = i'.overrides.keywords.or _
      rw [hkeywords]
    · show i.overrides.baseLocale.getD _ = i'.overrides.baseLocale.getD _
      rw [hlocale]

theorem outcome_eq_of_quiet (hi : i.quiet = i'.quiet) (h : SameButLogLevel args args' env env') :
    i.outcome env read compiler = i'.outcome env' read compiler := by
  rw [outcome, outcome, table_eq_of_quiet hi h, (quiet_eq_iff.1 hi).2.2]

end Invocation

/-- **How a run ends.**  A command line that asks for a command ends in exactly one of
the ways of `Ends`: with status 2 and no output if the configuration is at fault,
whatever the document is, else with status 1 and no output if the document cannot be
read, there is no dialect for its locale, or a pattern of that dialect is refused, else
with status 0 and all the output of the command.  No run that fails has output, and a
run stays the same if its log levels are given otherwise, or not at all, by flags or in
the environment. -/
theorem outcome_ends {args : List Text} {i : Invocation}
    (hargs : Arguments.read args = some (.run i)) (env : Environment) (files : Files)
    (compiler : PatternCompiler) :
    (∀ status output,
      (outcome args env files.text compiler).status = status ∧
          (outcome args env files.text compiler).output = output ↔
        i.Ends env files compiler status output) ∧
      ((outcome args env files.text compiler).status ≠ 0 →
        (outcome args env files.text compiler).output = []) ∧
      ∀ args' env' i', Arguments.read args' = some (.run i') →
        SameButLogLevel args args' env env' →
        outcome args' env' files.text compiler = outcome args env files.text compiler := by
  have hrun (env : Environment) :
      outcome args env files.text compiler = i.outcome env files.text compiler := by
    rw [outcome, hargs]
  rw [hrun]
  have hends := i.ends_outcome env files compiler
  refine ⟨fun status output => ⟨?_, Invocation.Ends.outcome_eq⟩, fun hstatus => ?_, ?_⟩
  · rintro ⟨rfl, rfl⟩
    exact hends
  · generalize (i.outcome env files.text compiler).output = output at hends
    generalize (i.outcome env files.text compiler).status = status at hends hstatus
    cases hends with
    | misconfigured => rfl
    | unreadable => rfl
    | noDialect => rfl
    | refused => rfl
    | shown => exact absurd rfl hstatus
  · intro args' env' i' hargs' hsame
    have hi : i.quiet = i'.quiet := by
      have hread := Arguments.request_quiet hargs
      rw [hsame.args_eq, Arguments.request_quiet hargs'] at hread
      exact (Request.run.inj (Option.some.inj hread)).symm
    rw [outcome, hargs']
    exact (Invocation.outcome_eq_of_quiet hi hsame).symm

/-- A tree as JSON with a log level in both places, the same without any; and a base
locale that is blank, for which the file is not looked at. -/
theorem outcome_ends_of_json :
    let args : List Text := ["--log-level", "debug", "tree", "a", "--json"]
    let d : Directory := ⟨[("a", .file (Text.utf8 "Feature: A").toByteArray)]⟩
    let env : Environment := { logLevel := some "WARNING" }
    let blank : Environment := { logLevel := some "WARNING", baseLocale := some " " }
    let feature : Feature := ⟨⟨"Feature", "A", []⟩, none, none, []⟩
    let compiler : PatternCompiler := .limited
    (outcome args env d.read compiler).status = 0 ∧
      (outcome args env d.read compiler).output = Feature.jsonDocument [feature] ∧
      outcome ["tree", "a", "--json"] {} d.read compiler = outcome args env d.read compiler ∧
      (outcome args blank d.read compiler).status = 2 ∧
      (outcome args blank d.read compiler).output = [] := by
  intro args d env blank feature compiler
  rw [← Directory.text_bytes]
  have hargs : Arguments.read args = some (.run ⟨{ logLevel := some .debug }, .tree "a" true⟩) := by
    decide
  have hargs' : Arguments.read ["tree", "a", "--json"] = some (.run ⟨{}, .tree "a" true⟩) := by
    decide
  have hlevel : LogLevel.ofName? "WARNING" = .ok .warn := by decide
  have hsame : SameButLogLevel args ["tree", "a", "--json"] env {} := by
    refine ⟨by decide, rfl, rfl, ?_, nofun⟩
    rintro _ ⟨⟩
    exact ⟨.warn, hlevel⟩
  have hsource : d.bytes.Holds "a" "Feature: A" :=
    ⟨(Text.utf8 "Feature: A").toByteArray, rfl, by rw [List.data_toByteArray]⟩
  have hshown : Command.Shows DialectTable.standard "Feature: A" compiler (.tree "a" true)
      (Feature.jsonDocument [feature]) := .json (by decide)
  obtain ⟨hstatus, houtput⟩ := ((outcome_ends hargs env d.bytes compiler).1 _ _).2
    (.shown ⟨{}, by decide, by decide⟩ hsource hshown)
  have hblank := ((outcome_ends hargs blank d.bytes compiler).1 2 []).2
    (.misconfigured (.environment rfl))
  have hstatus' : (outcome args blank d.bytes.text compiler).status ≠ 0 := by
    rw [hblank.1]
    decide
  exact ⟨hstatus, houtput, (outcome_ends hargs env d.bytes compiler).2.2 _ _ _ hargs' hsame,
    hblank.1, (outcome_ends hargs blank d.bytes compiler).2.1 hstatus'⟩

/-- The English dialect with one more keyword for features, of 400,000 letters.  The
document does not use it, and the run fails all the same. -/
theorem outcome_of_long_keyword :
    let word : Text := List.replicate 400000 'f'
    let dialect : Dialect := { Dialect.english with feature := word :: Dialect.english.feature }
    let t : DialectTable := .single "en" dialect
    let args : List Text := ["--keywords", "k.json", "tokens", "d.feature"]
    let i : Invocation := ⟨{ keywords := some "k.json" }, .tokens "d.feature"⟩
    let d : Directory :=
      ⟨[("k.json", .file (Text.utf8 (dialect.document "en")).toByteArray),
        ("d.feature", .file (Text.utf8 "Feature: A").toByteArray)]⟩
    Arguments.read args = some (.run i) ∧ i.Configures {} d.bytes t ∧
      d.bytes.Holds "d.feature" "Feature: A" ∧
      t.lookup? (t.localeOf (Text.lines "Feature: A")) = some dialect ∧
      ∃ f, outcome args {} d.read .limited = ⟨1, [], some (.run f)⟩ ∧
        f.error.message = "Compiled regex exceeds size limit of 10485760 bytes." := by
  intro word dialect t args i d
  have hword : Dialect.IsWord word := by
    refine Dialect.isWord_of_forall (List.ne_nil_of_length_pos ?_) fun c hc => ?_
    · rw [List.length_replicate]
      decide
    · rw [List.eq_of_mem_replicate hc]
      decide
  have hlong : PatternCompiler.sizeLimit < PatternCompiler.stateSize * word.length := by
    rw [List.length_replicate]
    decide
  -- from here on only the length of the word matters
  clear_value word
  have hargs : Arguments.read args = some (.run i) := by decide
  have hkeywords : d.bytes.Holds "k.json" (dialect.document "en") :=
    ⟨_, rfl, by rw [List.data_toByteArray]⟩
  have hsource : d.bytes.Holds "d.feature" "Feature: A" :=
    ⟨_, rfl, by rw [List.data_toByteArray]⟩
  have ht : i.Configures {} d.bytes t := by
    refine ⟨{}, by decide, ?_⟩
    exact Settings.table_of_document rfl (Files.text_eq_ok.2 hkeywords)
      (DialectTable.ofDocument_document_english hword "en")
  have hlookup : t.lookup? (t.localeOf (Text.lines "Feature: A")) = some dialect := rfl
  have hwords : PatternCompiler.limited.refusal? dialect = some PatternCompiler.tooLarge :=
    PatternCompiler.refusal?_limited ⟨.feature, word, List.mem_cons_self, by
      rw [PatternCompiler.limited_of_length hlong]
      nofun⟩
  obtain ⟨f, hf, herror⟩ := Invocation.outcome_of_refusal ht hsource hlookup hwords
  rw [← Directory.text_bytes, outcome, hargs]
  refine ⟨rfl, ht, hsource, hlookup, f, hf, ?_⟩
  rw [herror]
  decide

end Gherkin
