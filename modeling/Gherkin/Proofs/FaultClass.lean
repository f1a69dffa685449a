import Gherkin.Command.Directory
import Gherkin.Command.Run
import Gherkin.Proofs.Bytes

/-!
# Whose fault a failure is

There are two ways to tell a fault of the configuration from one of the document: the
status of the run, which goes by the stage that fails, and `CommandError.isConfig`, which
goes by the error alone.

> `outcome_faults`: status 2 comes with the error of the configuration and status 1 with
> that of the document.  The error of a document never counts as one of the
> configuration, and the error of the configuration counts as one exactly if it is not
> that the keyword document cannot be read.

A file that cannot be read is the only error that both stages know, and it is
counted to the document whichever file it is.
-/

namespace Gherkin

/-- An error behind a map is the image of an error. -/
theorem mapError_eq_error {α ε ε' : Type} {x : Except ε α} {f : ε → ε'} {e : ε'} :
    x.mapError f = .error e ↔ ∃ e', x = .error e' ∧ f e' = e := by
  cases x <;> simp [Except.mapError]

/-- The document is at fault, whatever went wrong with it. -/
theorem RunFailure.isConfig_error (f : RunFailure) : f.error.isConfig = false := by
  cases f <;> rfl

/-- The table of some settings fails with an error of the configuration, unless there is
a keyword document and it cannot be read. -/
theorem Settings.isConfig_of_table {s : Settings} {read : FileReader} {e : CommandError}
    (h : s.table read = .error e) :
    e.isConfig = false ↔ ∃ path cause, s.keywords = some path ∧ read path = .error cause := by
  unfold Settings.table at h
  split at h
  next hnone =>
    obtain ⟨unknown, -, rfl⟩ := mapError_eq_error.1 h
    simp [CommandError.isConfig, hnone]
  next path hpath =>
    split at h
    next cause hcause =>
      cases h
      simp [CommandError.isConfig, hpath, hcause]
    next document hdocument =>
      obtain ⟨fault, -, rfl⟩ := mapError_eq_error.1 h
      simp [CommandError.isConfig, hpath, hdocument]

namespace Invocation

variable {i : Invocation} {env : Environment} {read : FileReader} {e : CommandError}

/-- That an invocation asks for a keyword document that cannot be read. -/
def LacksKeywords (i : Invocation) (env : Environment) (read : FileReader) : Prop :=
  ∃ s path cause, i.settings env = .ok s ∧ s.keywords = some path ∧ read path = .error cause

theorem isConfig_of_table (h : i.table env read = .error e) :
    e.isConfig = false ↔ i.LacksKeywords env read := by
  unfold Invocation.table at h
  split at h
  next fault hfault =>
    cases h
    obtain ⟨setting, -, rfl⟩ := mapError_eq_error.1 hfault
    simp [CommandError.isConfig, LacksKeywords, hfault]
  next s hs =>
    rw [Settings.isConfig_of_table h]
    simp [LacksKeywords, hs]

/-- What an invocation comes to, by the stage that fails. -/
theorem outcome_cases (i : Invocation) (env : Environment) (read : FileReader)
    (compiler : PatternCompiler) :
    (∃ e, i.table env read = .error e ∧
        i.outcome env read compiler = ⟨2, [], some (.configuration e)⟩) ∨
      (∃ t f, i.table env read = .ok t ∧ i.command.perform t read compiler = .error f ∧
        i.outcome env read compiler = ⟨1, [], some (.run f)⟩) ∨
      ∃ t output, i.table env read = .ok t ∧ i.command.perform t read compiler = .ok output ∧
        i.outcome env read compiler = ⟨0, output, none⟩ := by
  unfold Invocation.outcome
  split
  next e he => exact Or.inl ⟨e, he, rfl⟩
  next t ht =>
    split
    next f hf => exact Or.inr (Or.inl ⟨t, f, ht, hf, rfl⟩)
    next output houtput => exact Or.inr (Or.inr ⟨t, output, ht, houtput, rfl⟩)

end Invocation

/-- **Whose fault a failure is.**  A command ends with status 2 exactly if its
configuration fails, and with status 1 exactly if its document does.  The error is then
one of the configuration in the first case, unless it is that the keyword document
cannot be read, and never in the second. -/
theorem outcome_faults {args : List Text} {i : Invocation}
    (hargs : Arguments.read args = some (.run i)) (env : Environment) (read : FileReader)
    (compiler : PatternCompiler) :
    ((outcome args env read compiler).status = 2 ↔
        ∃ e, (outcome args env read compiler).failure = some (.configuration e)) ∧
      ((outcome args env read compiler).status = 1 ↔
        ∃ f, (outcome args env read compiler).failure = some (.run f)) ∧
      (∀ e, (outcome args env read compiler).failure = some (.configuration e) →
        (e.isConfig = false ↔ i.LacksKeywords env read)) ∧
      ∀ f, (outcome args env read compiler).failure = some (.run f) →
        f.error.isConfig = false := by
  have hrun : outcome args env read compiler = i.outcome env read compiler := by
    rw [outcome, hargs]
  rw [hrun]
  rcases i.outcome_cases env read compiler with
    ⟨e, he, ho⟩ | ⟨_, f, _, _, ho⟩ | ⟨_, output, _, _, ho⟩
  · rw [ho]
    refine ⟨by simp, by simp, ?_, fun f _ => f.isConfig_error⟩
    rintro _ ⟨⟩
    exact Invocation.isConfig_of_table he
  · rw [ho]
    exact ⟨by simp, by simp, nofun, fun f _ => f.isConfig_error⟩
  · rw [ho]
    exact ⟨by simp, by simp, nofun, fun f _ => f.isConfig_error⟩

/-- A blank base locale, and a document that is not there. -/
theorem outcome_faults_of_blank_locale :
    let args : List Text := ["tree", "d.feature"]
    let d : Directory := ⟨[]⟩
    let blank : Environment := { baseLocale := some " " }
    Arguments.read args = some (.run ⟨{}, .tree "d.feature" false⟩) ∧
      (∃ e, (outcome args blank d.read .limited).failure = some (.configuration e) ∧
        e.isConfig = true) ∧
      ∃ f, (outcome args {} d.read .limited).failure = some (.run f) ∧
        f.error.isConfig = false := by
  intro args d blank
  have hargs : Arguments.read args = some (.run ⟨{}, .tree "d.feature" false⟩) := by decide
  obtain ⟨hstatus, -, hclass, -⟩ := outcome_faults hargs blank d.read .limited
  obtain ⟨-, hstatus', -, hclass'⟩ := outcome_faults hargs {} d.read .limited
  obtain ⟨e, he⟩ := hstatus.1 (by decide)
  obtain ⟨f, hf⟩ := hstatus'.1 (by decide)
  refine ⟨hargs, ⟨e, he, ?_⟩, f, hf, hclass' f hf⟩
  by_contra hconfig
  obtain ⟨s, path, cause, hs, -⟩ := (hclass e he).1 (by simpa using hconfig)
  cases hs

/-- A keyword document that is not there is a fault of the configuration by the status of
the run, and none by its error. -/
theorem outcome_of_missing_keywords :
    let args : List Text := ["--keywords", "none.json", "tree", "d.feature"]
    let d : Directory := ⟨[("d.feature", .file (Text.utf8 "Feature: F").toByteArray)]⟩
    (outcome args {} d.read .limited).status = 2 ∧
      ∃ e, (outcome args {} d.read .limited).failure = some (.configuration e) ∧
        e.isConfig = false := by
  exact ⟨by decide, .unreadable "none.json" .notFound, by decide, rfl⟩

end Gherkin
