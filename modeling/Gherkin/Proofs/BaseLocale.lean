import Gherkin.Proofs.Locale
import Gherkin.Command.Settings

/-!
# The base locale

A document without a language directive is in the base locale of its table.  That
the table has keywords for it is not looked up anywhere: every way to make a table
starts with the dialect of the base, nothing that is done to a table takes a
dialect out of it, and only a code that the table has can become its base.

> `Reachable.base_mem`: the base of a table is one of its codes.
>
> `tokenize_error_iff`: reading fails for one reason only, a last directive whose
> code stands for no locale of the table, and the error names that code.

`Reachable` lists what can be done to make a table; each of its constructors keeps
the base among the codes.
-/

namespace Gherkin

namespace Catalogue

variable {α : Type} {c : Catalogue α} {code k : Text} {value : α} {p : Text → Bool}

theorem mem_map_place : ∀ {es : List (Text × α)},
    k ∈ (place code value es).map (·.1) ↔ k = code ∨ k ∈ es.map (·.1)
  | [] => by simp [place]
  | e :: es => by
    rw [place]
    by_cases hlt : code < e.1
    · rw [if_pos hlt]
      simp
    · rw [if_neg hlt]
      by_cases heq : code = e.1
      · -- the code of `e` stays, only its value is another
        rw [if_pos heq]
        simp [← heq]
      · rw [if_neg heq, List.map_cons, List.mem_cons, mem_map_place, List.map_cons, List.mem_cons]
        exact or_left_comm

/-- Filing a value adds its code and loses no other. -/
theorem mem_insert : k ∈ c.insert code value ↔ k = code ∨ k ∈ c := mem_map_place

theorem first?_eq_none : c.first? p = none ↔ ∀ k ∈ c, p k = false := by
  rw [first?, Option.map_eq_none_iff, List.find?_eq_none]
  constructor
  · intro h k hk
    obtain ⟨e, he, rfl⟩ := List.mem_map.1 hk
    simpa using h e he
  · intro h e he
    have hk : e.1 ∈ c := List.mem_map_of_mem he
    simp [h e.1 hk]

end Catalogue

namespace Line

/-- That the last language directive among some lines names `code`. -/
def IsLastDirective (lines : List Text) (code : Text) : Prop :=
  ∃ before l after, lines = before ++ l :: after ∧ directive? l = some code ∧
    ∀ m ∈ after, directive? m = none

theorem lastDirective?_eq_some {lines : List Text} {code : Text} :
    lastDirective? lines = some code ↔ IsLastDirective lines code := by
  -- from the end of the lines the last directive is the first
  rw [lastDirective?, List.getLast?_filterMap, List.findSome?_eq_some_iff]
  constructor
  · rintro ⟨after, l, before, hsplit, hl, hafter⟩
    refine ⟨before.reverse, l, after.reverse, ?_, hl, ?_⟩
    · have hlines := congrArg List.reverse hsplit
      simpa using hlines
    · intro m hm
      exact hafter m (List.mem_reverse.1 hm)
  · rintro ⟨before, l, after, rfl, hl, hafter⟩
    refine ⟨after.reverse, l, before.reverse, by simp, hl, ?_⟩
    intro m hm
    exact hafter m (List.mem_reverse.1 hm)

end Line

theorem Text.sameIgnoringCase_self (s : Text) : sameIgnoringCase s s = true := by
  simp [sameIgnoringCase]

namespace DialectTable

variable {t t' : DialectTable} {code : Text} {lines : List Text}

/-! ## Codes that stand for nothing -/

/-- A code stands for no locale of the table if it is none of the codes, not even in
another case. -/
theorem lookup?_eq_none :
    t.lookup? code = none ↔ ∀ k ∈ t.codes, Text.sameIgnoringCase k code = false := by
  unfold lookup?
  cases hexact : t.dialects.get? code with
  | none => exact Catalogue.first?_eq_none
  | some d =>
    constructor
    · intro h
      cases h
    · intro hnone
      -- the code itself would be such a code
      have hget : t.dialects.get? code = none := by
        apply Catalogue.get?_eq_none
        intro hmem
        have hself := hnone code hmem
        rw [Text.sameIgnoringCase_self] at hself
        cases hself
      rw [hexact] at hget
      cases hget

theorem exists_lookup?_of_mem (h : code ∈ t.codes) : ∃ d, t.lookup? code = some d := by
  cases hd : t.lookup? code with
  | some d => exact ⟨d, rfl⟩
  | none =>
    have hself := lookup?_eq_none.1 hd code h
    rw [Text.sameIgnoringCase_self] at hself
    cases hself

/-! ## Tables that can be made -/

/-- The tables that can be made: of one dialect, the standard one, from a keyword
document, and by adding a dialect or choosing another base. -/
inductive Reachable : DialectTable → Prop
  | single (code : Text) (d : Dialect) : Reachable (single code d)
  | standard : Reachable standard
  | ofDocument {document base : Text} {t : DialectTable} :
      ofDocument document base = .ok t → Reachable t
  | insert {t : DialectTable} (code : Text) (d : Dialect) :
      Reachable t → Reachable (t.insert code d)
  | rebase {t t' : DialectTable} {code : Text} :
      Reachable t → t.rebase code = .ok t' → Reachable t'

theorem base_mem_single (code : Text) (d : Dialect) :
    (single code d).base ∈ (single code d).codes :=
  Catalogue.mem_insert.2 (Or.inl rfl)

/-- A keyword document gives a table only if it has the base. -/
theorem base_mem_ofDocument {document base : Text} (h : ofDocument document base = .ok t) :
    t.base ∈ t.codes := by
  unfold ofDocument at h
  split at h
  next => cases h
  next dialects _ =>
    split at h
    next => cases h
    next =>
      split at h
      next hbase =>
        obtain rfl := Except.ok.inj h
        exact hbase
      next => cases h

theorem base_mem_insert (h : t.base ∈ t.codes) (d : Dialect) :
    (t.insert code d).base ∈ (t.insert code d).codes :=
  Catalogue.mem_insert.2 (Or.inr h)

/-- The new base of a table is one of its codes, whatever the old one was. -/
theorem base_mem_rebase (h : t.rebase code = .ok t') : t'.base ∈ t'.codes := by
  unfold rebase at h
  split at h
  next hcode =>
    obtain rfl := Except.ok.inj h
    exact hcode
  next => cases h

/-- The base of a table is one of its codes. -/
theorem Reachable.base_mem (h : t.Reachable) : t.base ∈ t.codes := by
  induction h with
  | single code d => exact base_mem_single code d
  | standard =>
    exact base_mem_insert (base_mem_insert (base_mem_insert (base_mem_single _ _) _) _) _
  | ofDocument h => exact base_mem_ofDocument h
  | insert code d _ ih => exact base_mem_insert ih d
  | rebase _ h _ => exact base_mem_rebase h

/-- The table that settings select is made in one of two ways. -/
theorem reachable_of_settings {s : Settings} {read : FileReader} (h : s.table read = .ok t) :
    t.Reachable := by
  have hmade {e : TableError → CommandError} {r : Except TableError DialectTable}
      (hr : r.mapError e = .ok t) : r = .ok t := by
    cases r with
    | error _ => cases hr
    | ok _ => exact congrArg Except.ok (Except.ok.inj hr)
  unfold Settings.table at h
  split at h
  next => exact .rebase .standard (hmade h)
  next =>
    split at h
    next => cases h
    next => exact .ofDocument (hmade h)

/-! ## What can go wrong -/

theorem tokenize_eq_error {e : ParseError} :
    t.tokenize lines = .error e ↔
      t.lookup? (t.localeOf lines) = none ∧ e = .localeNotFound (t.localeOf lines) := by
  rw [tokenize_eq, dialectOf]
  cases t.lookup? (t.localeOf lines) with
  | some d => simp [Except.map]
  | none =>
    simp only [Except.map, Except.error.injEq, true_and]
    exact eq_comm

/-- Where the base has keywords, only a directive can make reading fail. -/
theorem tokenize_error_iff (hbase : t.base ∈ t.codes) {e : ParseError} :
    t.tokenize lines = .error e ↔
      ∃ code, Line.IsLastDirective lines code ∧
        (∀ k ∈ t.codes, Text.sameIgnoringCase k code = false) ∧ e = .localeNotFound code := by
  rw [tokenize_eq_error, lookup?_eq_none, localeOf]
  cases hlast : Line.lastDirective? lines with
  | some code =>
    rw [Option.getD_some]
    constructor
    · rintro ⟨hunknown, rfl⟩
      exact ⟨code, Line.lastDirective?_eq_some.1 hlast, hunknown, rfl⟩
    · rintro ⟨code', hcode, hunknown, rfl⟩
      rw [← Line.lastDirective?_eq_some, hlast, Option.some.injEq] at hcode
      obtain rfl := hcode
      exact ⟨hunknown, rfl⟩
  | none =>
    rw [Option.getD_none]
    constructor
    · rintro ⟨hunknown, -⟩
      have hself := hunknown t.base hbase
      rw [Text.sameIgnoringCase_self] at hself
      cases hself
    · rintro ⟨code, hcode, -⟩
      rw [← Line.lastDirective?_eq_some, hlast] at hcode
      cases hcode

/-- A document without a directive is read if the base has keywords. -/
theorem exists_parse_of_no_directive (hbase : t.base ∈ t.codes)
    (h : ∀ l ∈ lines, Line.directive? l = none) : ∃ fs, t.parse lines = .ok fs := by
  cases hts : t.tokenize lines with
  | ok ts => exact ⟨build ts, by rw [parse, hts]; rfl⟩
  | error e =>
    obtain ⟨code, ⟨before, l, after, hlines, hl, -⟩, -⟩ := (tokenize_error_iff hbase).1 hts
    have hnone := h l (by simp [hlines])
    rw [hl] at hnone
    cases hnone

/-- **There are always keywords for a document without a directive.**  A table that
can be made has its base among its codes and finds the dialect of it.  So reading
fails exactly for documents whose last directive names a code that is none of the
table, whatever its case, and the error names that code; and with the table that
settings select, a document without a directive is always read. -/
theorem reachable_finds_base :
    (∀ t, Reachable t → t.base ∈ t.codes ∧ (∃ d, t.lookup? t.base = some d) ∧
      ∀ lines e, t.tokenize lines = .error e ↔
        ∃ code, Line.IsLastDirective lines code ∧
          (∀ k ∈ t.codes, Text.sameIgnoringCase k code = false) ∧ e = .localeNotFound code) ∧
    ∀ (s : Settings) (read : FileReader) t, s.table read = .ok t →
      ∀ lines, (∀ l ∈ lines, Line.directive? l = none) → ∃ fs, t.parse lines = .ok fs := by
  refine ⟨fun t ht => ?_, fun s read t ht lines hlines => ?_⟩
  · exact ⟨ht.base_mem, exists_lookup?_of_mem ht.base_mem,
      fun lines e => tokenize_error_iff ht.base_mem⟩
  · exact exists_parse_of_no_directive (reachable_of_settings ht).base_mem hlines

/-- A table that was made in four steps, a document whose last directive is close to
two of its codes but none of them, and settings with another base. -/
theorem reachable_finds_base_of_inserted :
    let t := { (standard.insert "Pt" Dialect.french).insert "PT" Dialect.german with base := "Pt" }
    let lines : List Text := ["# language: pt", "Feature: A", " #LANGUAGE: pt-PT", "# note"]
    let s : Settings := { baseLocale := "de" }
    t.Reachable ∧ t.base ∈ t.codes ∧ t.tokenize lines = .error (.localeNotFound "pt-PT") ∧
      ∃ u, s.table (fun _ => .error .notFound) = .ok u ∧
        ∃ fs, u.parse ["Funktion: A", "# language"] = .ok fs := by
  intro t lines s
  have hinserted := (Reachable.standard.insert "Pt" Dialect.french).insert "PT" Dialect.german
  have ht : t.Reachable := hinserted.rebase (rebase_of_mem (by decide))
  have hu : s.table (fun _ => .error .notFound) = .ok { standard with base := "de" } := by decide
  obtain ⟨hbase, -, herror⟩ := reachable_finds_base.1 t ht
  have hlast : Line.IsLastDirective lines "pt-PT" :=
    ⟨["# language: pt", "Feature: A"], " #LANGUAGE: pt-PT", ["# note"], rfl, by decide, by decide⟩
  refine ⟨ht, hbase, (herror lines _).2 ⟨"pt-PT", hlast, by decide, rfl⟩, _, hu, ?_⟩
  exact reachable_finds_base.2 s _ _ hu _ (by decide)

end DialectTable

end Gherkin
