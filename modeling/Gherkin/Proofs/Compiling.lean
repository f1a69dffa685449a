import Gherkin.Proofs.Lookup
import Gherkin.Proofs.Wording

/-!
# Documents whose patterns may be refused

Before a document is scanned the patterns of its dialect are compiled, and the first one
that is refused ends the reading.  What is proved of reading takes every pattern to
compile; this module says what is left of it where some do not.

> `tokenize_eq_ok`: reading with a compiler succeeds exactly if reading without limits
> does and no pattern of the dialect is refused, and then both give the same tokens.

So a refusal only ever turns a result into an error, and the lines of the document have
no part in it once their locale is known.  The standard dialects are far from the limit:
for documents in these nothing is refused (`tokenize_limited_standard`).
-/

namespace Gherkin

variable {compiler : PatternCompiler} {d : Dialect}

namespace PatternCompiler

/-- That the pattern of some keyword of a dialect is refused. -/
def Refuses (compiler : PatternCompiler) (d : Dialect) : Prop :=
  ∃ r, ∃ w ∈ d.words r, compiler r w ≠ none

theorem mem_synonyms_all {r : Role} {w : Text} :
    (r, w) ∈ Line.synonyms d Role.all ↔ w ∈ d.words r := by
  simp only [Line.synonyms, List.mem_flatMap, List.mem_map, Prod.mk.injEq]
  constructor
  · rintro ⟨_, -, _, hw, rfl, rfl⟩
    exact hw
  · intro hw
    exact ⟨r, Role.mem_all r, w, hw, rfl, rfl⟩

theorem refusal?_eq_none : compiler.refusal? d = none ↔ ¬ compiler.Refuses d := by
  rw [refusal?, List.findSome?_eq_none_iff, Refuses]
  constructor
  · rintro h ⟨r, w, hw, hrefused⟩
    exact hrefused (h (r, w) (mem_synonyms_all.2 hw))
  · rintro h ⟨r, w⟩ hw
    by_contra hrefused
    exact h ⟨r, w, mem_synonyms_all.1 hw, hrefused⟩

theorem refuses_iff : compiler.Refuses d ↔ ∃ words, compiler.refusal? d = some words := by
  rw [← Option.ne_none_iff_exists', Ne, refusal?_eq_none, not_not]

theorem length_le_keywordSize : ∀ w : Text, w.length ≤ keywordSize w
  | [] => Nat.le_refl 0
  | c :: w => by
    have ih := length_le_keywordSize w
    have hc := c.utf8Size_pos
    rw [keywordSize, List.foldr_cons, ← keywordSize, List.length_cons]
    omega

/-- A keyword has at least as many bytes as characters, so that a long one is refused. -/
theorem limited_of_length {w : Text} (h : sizeLimit < stateSize * w.length) (r : Role) :
    limited r w = some tooLarge := by
  have hsize := Nat.mul_le_mul_left stateSize (length_le_keywordSize w)
  rw [limited, if_neg (Nat.not_le.2 (Nat.lt_of_lt_of_le h hsize))]

theorem refusal?_limited (h : limited.Refuses d) : limited.refusal? d = some tooLarge := by
  obtain ⟨words, hwords⟩ := refuses_iff.1 h
  obtain ⟨p, -, hp⟩ := List.exists_of_findSome?_eq_some hwords
  rw [hwords, ← hp]
  dsimp only [limited] at hp ⊢
  split at hp
  next => cases hp
  next hsize => rw [if_neg hsize]

/-- No pattern of a standard dialect is too large. -/
theorem not_refuses_standard {code : Text} (h : DialectTable.standard.Files code d) :
    ¬ limited.Refuses d := by
  have hnone : ∀ e ∈ DialectTable.standard.dialects.entries, limited.refusal? e.2 = none := by
    decide
  exact refusal?_eq_none.1 (hnone (code, d) h)

end PatternCompiler

namespace DialectTable

variable {t : DialectTable} {lines : List Text} {e : ParseError} {words : Text}

theorem compiledDialectOf_of_error (h : t.dialectOf lines = .error e) :
    t.compiledDialectOf lines compiler = .error e := by
  rw [compiledDialectOf, h]
  rfl

theorem compiledDialectOf_of_refusal (h : t.dialectOf lines = .ok d)
    (hwords : compiler.refusal? d = some words) :
    t.compiledDialectOf lines compiler = .error (.matcher words) := by
  rw [compiledDialectOf, h]
  show compiler.compile d = _
  rw [PatternCompiler.compile, hwords]

theorem compiledDialectOf_of_not_refuses (h : t.dialectOf lines = .ok d)
    (hrefuses : ¬ compiler.Refuses d) : t.compiledDialectOf lines compiler = .ok d := by
  rw [compiledDialectOf, h]
  show compiler.compile d = _
  rw [PatternCompiler.compile, PatternCompiler.refusal?_eq_none.2 hrefuses]

/-- Where no pattern is refused, reading is as it is without limits. -/
theorem tokenize_of_not_refuses
    (h : ∀ d, t.dialectOf lines = .ok d → ¬ compiler.Refuses d) :
    t.tokenize lines compiler = t.tokenize lines := by
  rw [tokenize_eq, tokenize]
  cases hd : t.dialectOf lines with
  | error e => rw [compiledDialectOf_of_error hd]
  | ok d => rw [compiledDialectOf_of_not_refuses hd (h d hd)]

/-- A pattern that is refused ends the reading, with the words of the first refusal. -/
theorem tokenize_of_refusal (h : t.dialectOf lines = .ok d)
    (hwords : compiler.refusal? d = some words) :
    t.tokenize lines compiler = .error (.matcher words) := by
  rw [tokenize, compiledDialectOf_of_refusal h hwords]
  rfl

/-- Nothing is reported then, but that reading has begun. -/
theorem parseEvents_of_refusal (h : t.dialectOf lines = .ok d)
    (hwords : compiler.refusal? d = some words) :
    t.parseEvents lines compiler = [.tokenizeSpan] := by
  rw [parseEvents, tokenizeEvents, compiledDialectOf_of_refusal h hwords,
    tokenize_of_refusal h hwords]
  rfl

/-- **A refusal is all that a compiler can change.** -/
theorem tokenize_eq_ok {ts : List Token} :
    t.tokenize lines compiler = .ok ts ↔
      t.tokenize lines = .ok ts ∧ ∀ d, t.dialectOf lines = .ok d → ¬ compiler.Refuses d := by
  constructor
  · intro h
    have hnone : ∀ d, t.dialectOf lines = .ok d → ¬ compiler.Refuses d := by
      intro d hd hrefuses
      obtain ⟨words, hwords⟩ := PatternCompiler.refuses_iff.1 hrefuses
      rw [tokenize_of_refusal hd hwords] at h
      cases h
    rw [tokenize_of_not_refuses hnone] at h
    exact ⟨h, hnone⟩
  · rintro ⟨h, hnone⟩
    rwa [tokenize_of_not_refuses hnone]

/-- Reading fails if there is no dialect for the locale, or one with a pattern that is
refused, and not otherwise. -/
theorem exists_tokenize_eq_error :
    (∃ e, t.tokenize lines compiler = .error e) ↔
      t.lookup? (t.localeOf lines) = none ∨
        ∃ d, t.lookup? (t.localeOf lines) = some d ∧ compiler.Refuses d := by
  cases hlookup : t.lookup? (t.localeOf lines) with
  | none =>
    have hd : t.dialectOf lines = .error (.localeNotFound (t.localeOf lines)) := by
      rw [dialectOf, hlookup]
    refine iff_of_true ⟨.localeNotFound (t.localeOf lines), ?_⟩ (Or.inl rfl)
    rw [tokenize, compiledDialectOf_of_error hd]
    rfl
  | some d =>
    have hd : t.dialectOf lines = .ok d := by rw [dialectOf, hlookup]
    by_cases hrefuses : compiler.Refuses d
    · obtain ⟨words, hwords⟩ := PatternCompiler.refuses_iff.1 hrefuses
      exact iff_of_true ⟨_, tokenize_of_refusal hd hwords⟩ (Or.inr ⟨d, rfl, hrefuses⟩)
    · refine iff_of_false ?_ ?_
      · rintro ⟨e, he⟩
        rw [tokenize, compiledDialectOf_of_not_refuses hd hrefuses] at he
        cases he
      · rintro (h | ⟨d', h, hrefuses'⟩)
        · cases h
        · cases h
          exact hrefuses hrefuses'

theorem exists_files_of_dialectOf (h : t.dialectOf lines = .ok d) : ∃ key, t.Files key d := by
  rw [dialectOf] at h
  split at h
  next d' hlookup =>
    obtain rfl := Except.ok.inj h
    rcases lookup?_eq_some.1 hlookup with hfiles | ⟨-, key, -, hfiles⟩
    · exact ⟨_, hfiles⟩
    · exact ⟨key, hfiles⟩
  next => cases h

/-- In the standard dialects documents are read as they are without limits, whichever of
them is the base. -/
theorem tokenize_limited_standard {code : Text} (ht : standard.rebase code = .ok t)
    (lines : List Text) : t.tokenize lines .limited = t.tokenize lines := by
  have hdialects : t.dialects = standard.dialects := by
    rw [rebase] at ht
    split at ht
    next => rw [← Except.ok.inj ht]
    next => cases ht
  refine tokenize_of_not_refuses fun d hd => ?_
  obtain ⟨key, hkey⟩ := exists_files_of_dialectOf hd
  rw [Files, hdialects] at hkey
  exact PatternCompiler.not_refuses_standard hkey

end DialectTable

end Gherkin
