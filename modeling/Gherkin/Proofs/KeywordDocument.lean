import Gherkin.Proofs.Directives
import Gherkin.Proofs.Lookup
import Gherkin.Proofs.Wording
import Gherkin.Dialect.Document

/-!
# What comes of a keyword document

A keyword document is read into records, which hold the strings of each role as they
are written.  What becomes of it depends on the records alone:

> `ofDocument_outcome`: a document that has no records is malformed; otherwise the
> first role without a word is reported, whatever the base is; otherwise a base
> without a record; otherwise the table files the records, each string trimmed and
> the blank ones left out.

Strings are trimmed while they are read, so a role may be left without a word although
strings are written for it.  Records and dialects are put together from the values of
their roles (`fields?`), and reading a dialect is reading a record and tidying it
(`ofJson?_eq`).
-/

namespace Gherkin

/-- A list is mapped if each of its members is. -/
theorem mapM_eq_ite {α β : Type} (f : α → Option β) : ∀ l : List α,
    l.mapM f = if l.all (fun a => (f a).isSome) then some (l.filterMap f) else none
  | [] => rfl
  | a :: l => by
    rw [List.mapM_cons, mapM_eq_ite f l, List.all_cons]
    cases ha : f a with
    | none => rfl
    | some b =>
      rw [Option.isSome_some, Bool.true_and, List.filterMap_cons_some ha]
      split <;> rfl

theorem mapM_map_option {α β γ : Type} (f : α → Option β) (g : β → γ) (l : List α) :
    (l.mapM fun a => (f a).map g) = (l.mapM f).map (List.map g) := by
  rw [mapM_eq_ite, mapM_eq_ite, ← List.map_filterMap]
  simp only [Option.isSome_map]
  split <;> rfl

namespace Text

theorem trim_eq_nil {s : Text} : trim s = [] ↔ ∀ c ∈ s, isBlank c = true := by
  constructor
  · intro h
    obtain ⟨v, w, hv, hw, hs⟩ := padded_trim s
    rw [h, List.append_nil] at hs
    rw [hs]
    exact isBlankRun_append hv hw
  · intro h
    have htrim := trim_append_of_blank h []
    rwa [List.append_nil] at htrim

end Text

/-! ## Records -/

namespace Dialect

/-- The strings that a JSON value gives for a role, as they are written. -/
def stringsOfJson? : Json → Option (List Text)
  | .string (some s) => some [s]
  | .array items => Json.texts? items
  | _ => none

theorem synonymsOfJson?_eq (value : Json) :
    synonymsOfJson? value = (stringsOfJson? value).map cleaned := by
  cases value with
  | string content => cases content <;> rfl
  | _ => rfl

/-- The values that a JSON value gives for the roles. -/
def fields? : Json → Option (Role → Option Json)
  | .object members => (members.mapM namedMember?).map memberFor?
  | .array items =>
    if items.length = Role.all.length then some fun r => items[Role.all.idxOf r]? else none
  | _ => none

/-- The record that a JSON value describes: its strings by role, as they are written. -/
def recordOfJson? (value : Json) : Option Dialect :=
  (fields? value).bind fun f => collect? fun r => (f r).bind stringsOfJson?

/-- The dialect of a record: its strings as they count. -/
def tidied (raw : Dialect) : Dialect := ofWords fun r => cleaned (raw.words r)

/-- Dialects with the same words are the same. -/
theorem ext_words {d d' : Dialect} (h : ∀ r, d.words r = d'.words r) : d = d' := by
  rw [← ofWords_words d, ← ofWords_words d', funext h]

theorem words_tidied (raw : Dialect) (r : Role) : raw.tidied.words r = cleaned (raw.words r) :=
  words_ofWords _ r

theorem collect?_eq_some {f : Role → Option (List Text)} {d : Dialect} :
    collect? f = some d ↔ ∀ r, f r = some (d.words r) := by
  unfold collect?
  by_cases h : ∀ r, (f r).isSome = true
  · have hword (r : Role) : f r = some ((f r).getD []) := by
      rw [Option.getD_eq_iff.2 (Or.inl (Option.some_get (h r)).symm), Option.some_get]
    rw [if_pos (List.all_eq_true.2 fun r _ => h r), Option.some.injEq]
    constructor
    · rintro rfl r
      rw [words_ofWords]
      exact hword r
    · intro hd
      refine ext_words fun r => ?_
      rw [words_ofWords, hd r, Option.getD_some]
  · rw [if_neg fun hall => h fun r => List.all_eq_true.1 hall r (Role.mem_all r)]
    refine iff_of_false nofun fun hd => h fun r => ?_
    rw [hd r]
    rfl

theorem collect?_map_cleaned (f : Role → Option (List Text)) :
    (collect? fun r => (f r).map cleaned) = (collect? f).map tidied := by
  apply Option.ext
  intro d
  rw [Option.map_eq_some_iff]
  simp only [collect?_eq_some, Option.map_eq_some_iff]
  constructor
  · intro h
    refine ⟨ofWords fun r => (f r).getD [], fun r => ?_, ext_words fun r => ?_⟩
    · obtain ⟨l, hl, -⟩ := h r
      rw [words_ofWords, hl, Option.getD_some]
    · obtain ⟨l, hl, hclean⟩ := h r
      rw [words_tidied, words_ofWords, hl, Option.getD_some, hclean]
  · rintro ⟨raw, hraw, rfl⟩ r
    exact ⟨raw.words r, hraw r, (words_tidied raw r).symm⟩

/-- To read a dialect is to read the values of its roles. -/
theorem ofJson?_eq_fields (value : Json) :
    ofJson? value = (fields? value).bind fun f => collect? fun r => (f r).bind synonymsOfJson? := by
  cases value with
  | object members =>
    rw [ofJson?, fields?, Option.bind_map]
    rfl
  | array items =>
    rw [ofJson?, fields?]
    split <;> rfl
  | _ => rfl

/-- To read a dialect is to read a record and tidy it. -/
theorem ofJson?_eq (value : Json) : ofJson? value = (recordOfJson? value).map tidied := by
  have hword (x : Option Json) : x.bind synonymsOfJson? = (x.bind stringsOfJson?).map cleaned := by
    cases x with
    | none => rfl
    | some v => exact synonymsOfJson?_eq v
  rw [ofJson?_eq_fields, recordOfJson?, Option.map_bind]
  congr 1
  funext f
  simp only [hword, Function.comp]
  exact collect?_map_cleaned _

end Dialect

/-- The records that a JSON value describes, with their codes, in the order in which
they stand. -/
def Json.records? : Json → Option (List (Text × Dialect))
  | .object members =>
    members.mapM fun m => do
      let (code, value) ← Dialect.namedMember? m
      let raw ← Dialect.recordOfJson? value
      some (code, raw)
  | _ => none

theorem Json.dialects?_eq (value : Json) :
    value.dialects? = value.records?.map fun records =>
      Catalogue.ofList (records.map fun e => (e.1, e.2.tidied)) := by
  cases value with
  | object members =>
    have hmember (m : Option Text × Json) :
        (do
          let (code, value) ← Dialect.namedMember? m
          let d ← Dialect.ofJson? value
          some (code, d)) =
        (do
          let (code, value) ← Dialect.namedMember? m
          let raw ← Dialect.recordOfJson? value
          some (code, raw) : Option (Text × Dialect)).map fun e => (e.1, e.2.tidied) := by
      cases Dialect.namedMember? m with
      | none => rfl
      | some e =>
        show (Dialect.ofJson? e.2).bind _ = Option.map _ ((Dialect.recordOfJson? e.2).bind _)
        rw [Dialect.ofJson?_eq]
        cases Dialect.recordOfJson? e.2 <;> rfl
    rw [Json.dialects?, Json.records?]
    simp only [hmember]
    rw [mapM_map_option, Option.map_map]
    rfl
  | _ => rfl

/-! ## Roles without a word -/

/-- That a role stands before another one in the list of all roles. -/
def Role.ListedBefore (r role : Role) : Prop := Role.all.idxOf r < Role.all.idxOf role

/-- The order of the list, by the names of the roles. -/
example : Role.all.map Role.key = ["feature", "background", "scenario", "scenario_outline",
    "examples", "given", "when", "then", "and", "but"] := by decide

namespace Dialect

variable {d raw : Dialect} {role : Role}

/-- That no string of a role is more than white space. -/
def Lacks (raw : Dialect) (role : Role) : Prop := ∀ s ∈ raw.words role, Text.IsBlankRun s

/-- The words of a role: its strings without the blank ones, each of them trimmed. -/
theorem cleaned_eq (l : List Text) :
    cleaned l = (l.filter fun s => !s.all Text.isBlank).map Text.trim := by
  have hblank (s : Text) : (Text.trim s).isEmpty = s.all Text.isBlank := by
    rw [Bool.eq_iff_iff, List.isEmpty_iff, Text.trim_eq_nil, List.all_eq_true]
  rw [cleaned, List.filter_map]
  simp only [Function.comp_def, hblank]

/-- A word of a dialect: not empty, and without white space at its ends. -/
structure IsWord (w : Text) : Prop where
  ne_nil : w ≠ []
  head : ∀ c, w.head? = some c → Text.isBlank c = false
  last : ∀ c, w.getLast? = some c → Text.isBlank c = false

theorem isWord_of_mem_cleaned {l : List Text} {w : Text} (h : w ∈ cleaned l) : IsWord w := by
  rw [cleaned, List.mem_filter] at h
  obtain ⟨hmem, hne⟩ := h
  obtain ⟨s, -, rfl⟩ := List.mem_map.1 hmem
  exact ⟨by simpa using hne, fun _ => Text.head?_trim, fun _ => Text.getLast?_trim⟩

theorem words_tidied_eq_nil : raw.tidied.words role = [] ↔ raw.Lacks role := by
  rw [words_tidied, cleaned_eq, List.map_eq_nil_iff, List.filter_eq_nil_iff]
  simp [Lacks, Text.IsBlankRun]

/-- The role that is reported is the first one without a word. -/
theorem missing?_eq_some :
    d.missing? = some role ↔
      d.words role = [] ∧ ∀ r, Role.ListedBefore r role → d.words r ≠ [] := by
  have hidx (r : Role) : Role.all.idxOf r < Role.all.length :=
    List.idxOf_lt_length_iff.2 (Role.mem_all r)
  have hnodup : Role.all.Nodup := by decide
  rw [missing?, List.find?_eq_some_iff_getElem]
  constructor
  · rintro ⟨hrole, i, hi, rfl, hbefore⟩
    refine ⟨List.isEmpty_iff.1 hrole, fun r hr hnil => ?_⟩
    rw [Role.ListedBefore, hnodup.idxOf_getElem] at hr
    have hne := hbefore _ hr
    rw [List.getElem_idxOf, hnil] at hne
    cases hne
  · rintro ⟨hrole, hbefore⟩
    refine ⟨List.isEmpty_iff.2 hrole, _, hidx role, List.getElem_idxOf _, fun j hj => ?_⟩
    have hlt : j < Role.all.length := hj.trans (hidx role)
    have hne := hbefore Role.all[j] (by rwa [Role.ListedBefore, hnodup.idxOf_getElem])
    simpa using hne

theorem missing?_eq_none : d.missing? = none ↔ ∀ r, d.words r ≠ [] := by
  rw [missing?, List.find?_eq_none]
  simp [Role.mem_all]

end Dialect

/-! ## The outcome -/

namespace DialectTable

variable {records : List (Text × Dialect)} {code locale : Text} {role : Role} {d raw : Dialect}

/-- The records of a keyword document, if it is JSON of the right shape. -/
def recordsOf? (document : Text) : Option (List (Text × Dialect)) :=
  (Json.read document).bind Json.records?

/-- The gap that is reported: the first role that the record of a locale lacks, where
the code of the locale comes first, in the order of the bytes, among those whose record
lacks a role.  The record of a locale is the last one written for it. -/
structure IsFirstGap (records : List (Text × Dialect)) (locale : Text) (role : Role) : Prop where
  record : ∃ raw, Catalogue.IsLastFor records locale raw ∧ raw.Lacks role ∧
    ∀ r, Role.ListedBefore r role → ¬ raw.Lacks r
  least : ∀ other raw, Catalogue.IsLastFor records other raw → (∃ r, raw.Lacks r) →
    ¬ Text.utf8 other < Text.utf8 locale

/-- That no record lacks a role, as far as records are the last for their locale. -/
def HasNoGap (records : List (Text × Dialect)) : Prop :=
  ∀ code raw, Catalogue.IsLastFor records code raw → ∀ role, ¬ raw.Lacks role

/-- The table of some records with the given base: for each code the last record, with
its strings trimmed and the blank ones left out. -/
structure IsTableOf (t : DialectTable) (records : List (Text × Dialect)) (base : Text) : Prop where
  base : t.base = base
  codes : ∀ code, code ∈ t.codes ↔ code ∈ records.map (·.1)
  files : ∀ code raw, Catalogue.IsLastFor records code raw → ∃ d, t.Files code d ∧
    ∀ role, d.words role = ((raw.words role).filter fun s => !s.all Text.isBlank).map Text.trim
  words : ∀ code d, t.Files code d → ∀ role,
    d.words role ≠ [] ∧ ∀ w ∈ d.words role, Dialect.IsWord w

/-- What some records file. -/
def filed (records : List (Text × Dialect)) : Catalogue Dialect :=
  Catalogue.ofList (records.map fun e => (e.1, e.2.tidied))

theorem mem_entries_filed :
    (code, d) ∈ (filed records).entries ↔
      ∃ raw, Catalogue.IsLastFor records code raw ∧ raw.tidied = d := by
  rw [filed, Catalogue.mem_entries_ofList, Catalogue.isLastFor_map]

theorem mem_filed : code ∈ filed records ↔ code ∈ records.map (·.1) := by
  rw [filed, Catalogue.mem_ofList, List.map_map]
  rfl

theorem missing?_tidied_isSome : raw.tidied.missing?.isSome = true ↔ ∃ r, raw.Lacks r := by
  rw [Option.isSome_iff_ne_none, Ne, Dialect.missing?_eq_none]
  simp [Dialect.words_tidied_eq_nil]

theorem missing?_tidied_eq_some :
    raw.tidied.missing? = some role ↔
      raw.Lacks role ∧ ∀ r, Role.ListedBefore r role → ¬ raw.Lacks r := by
  simp only [Dialect.missing?_eq_some, Ne, Dialect.words_tidied_eq_nil]

theorem firstGap?_filed :
    firstGap? (filed records) = some (locale, role) ↔ IsFirstGap records locale role := by
  rw [firstGap?, Catalogue.findSome?_entries_eq_some]
  constructor
  · rintro ⟨⟨code, d⟩, hmem, hgap, hleast⟩
    obtain ⟨raw, hraw, rfl⟩ := mem_entries_filed.1 hmem
    obtain ⟨role', hrole, heq⟩ := Option.map_eq_some_iff.1 hgap
    obtain ⟨rfl, rfl⟩ := Prod.mk.inj heq
    refine ⟨⟨raw, hraw, missing?_tidied_eq_some.1 hrole⟩, fun other raw' hraw' hlacks => ?_⟩
    have hmem' : (other, raw'.tidied) ∈ (filed records).entries :=
      mem_entries_filed.2 ⟨raw', hraw', rfl⟩
    refine mt Text.utf8_lt_utf8.1 (hleast _ hmem' ?_)
    rw [Option.isSome_map]
    exact missing?_tidied_isSome.2 hlacks
  · rintro ⟨⟨raw, hraw, hrole⟩, hleast⟩
    refine ⟨(locale, raw.tidied), mem_entries_filed.2 ⟨raw, hraw, rfl⟩, ?_, ?_⟩
    · rw [missing?_tidied_eq_some.2 hrole]
      rfl
    · rintro ⟨other, d⟩ hmem hgap
      obtain ⟨raw', hraw', rfl⟩ := mem_entries_filed.1 hmem
      rw [Option.isSome_map] at hgap
      exact mt Text.utf8_lt_utf8.2 (hleast other raw' hraw' (missing?_tidied_isSome.1 hgap))

theorem firstGap?_filed_eq_none : firstGap? (filed records) = none ↔ HasNoGap records := by
  rw [firstGap?, List.findSome?_eq_none_iff]
  constructor
  · intro h code raw hraw role hlacks
    have hnone := h (code, raw.tidied) (mem_entries_filed.2 ⟨raw, hraw, rfl⟩)
    rw [Option.map_eq_none_iff, Dialect.missing?_eq_none] at hnone
    exact hnone role (Dialect.words_tidied_eq_nil.2 hlacks)
  · rintro h ⟨code, d⟩ hmem
    obtain ⟨raw, hraw, rfl⟩ := mem_entries_filed.1 hmem
    rw [Option.map_eq_none_iff, Dialect.missing?_eq_none]
    exact fun role hnil => h code raw hraw role (Dialect.words_tidied_eq_nil.1 hnil)

theorem isTableOf_filed (h : HasNoGap records) (base : Text) :
    IsTableOf ⟨filed records, base⟩ records base where
  base := rfl
  codes _ := mem_filed
  files code raw hraw := by
    refine ⟨raw.tidied, mem_entries_filed.2 ⟨raw, hraw, rfl⟩, fun role => ?_⟩
    rw [Dialect.words_tidied, Dialect.cleaned_eq]
  words code d hmem role := by
    obtain ⟨raw, hraw, rfl⟩ := mem_entries_filed.1 hmem
    refine ⟨fun hnil => h code raw hraw role (Dialect.words_tidied_eq_nil.1 hnil), fun w hw => ?_⟩
    rw [Dialect.words_tidied] at hw
    exact Dialect.isWord_of_mem_cleaned hw

/-- The outcome depends on the records of the document alone. -/
theorem ofDocument_eq (document base : Text) :
    ofDocument document base =
      match recordsOf? document with
      | none => .error .malformed
      | some records =>
        match firstGap? (filed records) with
        | some (locale, role) => .error (.missingKeyword locale role)
        | none =>
          if base ∈ records.map (·.1) then .ok ⟨filed records, base⟩
          else .error (.unknownBase base) := by
  have hdialects : (Json.read document).bind Json.dialects? =
      (recordsOf? document).map filed := by
    rw [recordsOf?, Option.map_bind]
    congr 1
    funext value
    exact Json.dialects?_eq value
  rw [ofDocument, hdialects]
  cases recordsOf? document with
  | none => rfl
  | some records =>
    simp only [Option.map_some]
    cases firstGap? (filed records) with
    | none => exact if_congr mem_filed rfl rfl
    | some gap => rfl

theorem ofDocument_of_none {document : Text} (h : recordsOf? document = none) (base : Text) :
    ofDocument document base = .error .malformed := by
  rw [ofDocument_eq, h]

theorem ofDocument_of_gap {document : Text} (h : recordsOf? document = some records)
    (hgap : IsFirstGap records locale role) (base : Text) :
    ofDocument document base = .error (.missingKeyword locale role) := by
  rw [ofDocument_eq, h]
  simp only [firstGap?_filed.2 hgap]

theorem ofDocument_of_no_gap {document : Text} (h : recordsOf? document = some records)
    (hgap : HasNoGap records) (base : Text) :
    ofDocument document base =
      if base ∈ records.map (·.1) then .ok ⟨filed records, base⟩
      else .error (.unknownBase base) := by
  rw [ofDocument_eq, h]
  simp only [firstGap?_filed_eq_none.2 hgap]

/-- There is a first gap unless there is none. -/
theorem exists_isFirstGap (h : ¬ HasNoGap records) :
    ∃ locale role, IsFirstGap records locale role := by
  rw [← firstGap?_filed_eq_none, ← Ne, Option.ne_none_iff_exists'] at h
  obtain ⟨⟨locale, role⟩, hgap⟩ := h
  exact ⟨locale, role, firstGap?_filed.1 hgap⟩

/-- With records, the outcome is one of three. -/
theorem ofDocument_cases {document : Text} (h : recordsOf? document = some records) (base : Text) :
    (∃ locale role, IsFirstGap records locale role ∧
      ofDocument document base = .error (.missingKeyword locale role)) ∨
    ofDocument document base = .error (.unknownBase base) ∨
    ofDocument document base = .ok ⟨filed records, base⟩ := by
  by_cases hgap : HasNoGap records
  · rw [ofDocument_of_no_gap h hgap]
    by_cases hbase : base ∈ records.map (·.1)
    · exact Or.inr (Or.inr (if_pos hbase))
    · exact Or.inr (Or.inl (if_neg hbase))
  · obtain ⟨locale, role, hfirst⟩ := exists_isFirstGap hgap
    exact Or.inl ⟨locale, role, hfirst, ofDocument_of_gap h hfirst base⟩

/-- **What comes of a keyword document.**  It is malformed if and only if it has no
records.  Otherwise the first gap of the records is reported, whatever the base is.  If
there is no gap, the base is reported exactly if no record is written for it, and
otherwise the outcome is the table of the records with that base. -/
theorem ofDocument_outcome (document base : Text) :
    (ofDocument document base = .error .malformed ↔ recordsOf? document = none) ∧
    ∀ records, recordsOf? document = some records →
      (∀ locale role, ofDocument document base = .error (.missingKeyword locale role) ↔
        IsFirstGap records locale role) ∧
      (¬ HasNoGap records → ∃ locale role, IsFirstGap records locale role) ∧
      (HasNoGap records →
        (∀ code, ofDocument document base = .error (.unknownBase code) ↔
          code = base ∧ base ∉ records.map (·.1)) ∧
        (base ∈ records.map (·.1) →
          ∃ t, ofDocument document base = .ok t ∧ t.IsTableOf records base)) := by
  refine ⟨⟨fun h => ?_, fun h => ofDocument_of_none h base⟩, fun records h => ?_⟩
  · cases hrecords : recordsOf? document with
    | none => rfl
    | some records =>
      obtain ⟨_, _, -, heq⟩ | heq | heq := ofDocument_cases hrecords base
      all_goals
        rw [heq] at h
        cases h
  · refine ⟨fun locale role => ⟨fun hgap => ?_, fun hgap => ofDocument_of_gap h hgap base⟩,
      exists_isFirstGap, fun hnone => ?_⟩
    · obtain ⟨_, _, hfirst, heq⟩ | heq | heq := ofDocument_cases h base
      all_goals
        rw [heq] at hgap
        cases hgap
      exact hfirst
    · rw [ofDocument_of_no_gap h hnone]
      refine ⟨fun code => ?_, fun hbase => ⟨_, if_pos hbase, isTableOf_filed hnone base⟩⟩
      by_cases hbase : base ∈ records.map (·.1)
      · rw [if_pos hbase]
        exact iff_of_false nofun fun hcode => hcode.2 hbase
      · rw [if_neg hbase, Except.error.injEq, TableError.unknownBase.injEq]
        exact ⟨fun heq => ⟨heq.symm, hbase⟩, fun hcode => hcode.1.symm⟩

/-- Three records, the last of them for the code of the first.  Blanks count as no word
in whichever of them they stand, but not in a record that another one replaces. -/
theorem ofDocument_outcome_of_blanks :
    let good : Text :=
      "[\"F\",\"B\",\"S\",\"O\",\"E\",\" G \",\"W\",\"T\",\"A\",[\"U\",\"\",\"U\"]]"
    let blank : Text :=
      "[\"F\",\"B\",\"S\",\"O\",\"E\",[\" \",\"\\t\"],\"W\",\"T\",\"A\",[]]"
    let document (first second third : Text) : Text :=
      "\x7b\"sv\":" ++ first ++ ",\"da\":" ++ second ++ ",\"sv\":" ++ third ++ "\x7d"
    let sv : Text := "sv"
    let da : Text := "da"
    ofDocument (document good blank blank) sv = .error (.missingKeyword da (.step .givenStep)) ∧
      ofDocument (document blank good blank) da = .error (.missingKeyword sv (.step .givenStep)) ∧
      ofDocument (document blank good good) "SV" = .error (.unknownBase "SV") ∧
      (∃ t d, ofDocument (document blank good good) da = .ok t ∧ t.Files sv d ∧
        d.words (.step .butStep) = ["U", "U"]) ∧
      ofDocument "\x7b\"sv\":[\"F\"]\x7d" sv = .error .malformed := by
  intro good blank document sv da
  let rich : Dialect := ⟨["F"], ["B"], ["S"], ["O"], ["E"], [" G "], ["W"], ["T"], ["A"],
    ["U", "", "U"]⟩
  let poor : Dialect := ⟨["F"], ["B"], ["S"], ["O"], ["E"], [" ", "\t"], ["W"], ["T"], ["A"], []⟩
  have hlate : recordsOf? (document good blank blank) =
      some [(sv, rich), (da, poor), (sv, poor)] := by decide +kernel
  have hlast : recordsOf? (document blank good blank) =
      some [(sv, poor), (da, rich), (sv, poor)] := by decide +kernel
  have hfirst : recordsOf? (document blank good good) =
      some [(sv, poor), (da, rich), (sv, rich)] := by decide +kernel
  have hnone : HasNoGap [(sv, poor), (da, rich), (sv, rich)] :=
    firstGap?_filed_eq_none.1 (by decide +kernel)
  obtain ⟨hother, -⟩ := ((ofDocument_outcome _ "SV".toList).2 _ hfirst).2.2 hnone
  obtain ⟨t, ht, htable⟩ := (((ofDocument_outcome _ da).2 _ hfirst).2.2 hnone).2 (by decide)
  obtain ⟨d, hd, hwords⟩ := htable.files sv rich ⟨[(sv, poor), (da, rich)], [], rfl, nofun⟩
  exact ⟨(((ofDocument_outcome _ sv).2 _ hlate).1 _ _).2 (firstGap?_filed.1 (by decide +kernel)),
    (((ofDocument_outcome _ da).2 _ hlast).1 _ _).2 (firstGap?_filed.1 (by decide +kernel)),
    (hother _).2 ⟨rfl, by decide⟩, ⟨t, d, ht, hd, hwords _⟩,
    (ofDocument_outcome _ sv).1.2 (by decide +kernel)⟩

end DialectTable

end Gherkin
