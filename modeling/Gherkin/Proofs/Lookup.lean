import Gherkin.Proofs.BaseLocale
import Gherkin.Proofs.Bytes
import Gherkin.Proofs.Catalogue

/-!
# Looking a locale up

A table finds a code under itself, or else under the least of its codes that differs
from it in the case of ASCII letters only.  So a dialect more can change what is
found for its own code and for other spellings of it that have no dialect of their
own, and for these only if its code comes before the spellings that were there.

> `lookup?_insert_frame`: what is found, and what another dialect changes about it.

`lookup?_eq_some` says what is found without looking into the table entry by entry;
what is said about another dialect follows from it and from what is filed then
(`Catalogue.mem_entries_insert`).
-/

namespace Gherkin.DialectTable

variable {t : DialectTable} {c k key : Text} {d r : Dialect}

/-- That `key` is the first code of the table, in the order of the bytes, that is `c` in
some ASCII case. -/
structure IsLeastSpelling (t : DialectTable) (c key : Text) : Prop where
  mem : key ∈ t.codes
  same : Text.sameIgnoringCase key c = true
  least : ∀ k ∈ t.codes, Text.sameIgnoringCase k c = true → ¬ Text.utf8 k < Text.utf8 key

/-- The dialect that is filed under exactly this code. -/
def Files (t : DialectTable) (code : Text) (d : Dialect) : Prop := (code, d) ∈ t.dialects.entries

theorem mem_codes_of_files (h : t.Files c d) : c ∈ t.codes := Catalogue.mem_of_mem_entries h

theorem lookup?_of_mem (h : c ∈ t.codes) : t.lookup? c = some d ↔ t.Files c d := by
  obtain ⟨d', hd'⟩ := Catalogue.mem_iff.1 h
  rw [Files, ← Catalogue.get?_eq_some, lookup?, Catalogue.get?_eq_some.2 hd']

theorem lookup?_of_not_mem (h : c ∉ t.codes) :
    t.lookup? c = some d ↔ ∃ key, t.IsLeastSpelling c key ∧ t.Files key d := by
  rw [lookup?, Catalogue.get?_eq_none h]
  constructor
  · intro hfirst
    obtain ⟨key, hmem, hsame, hleast⟩ := Catalogue.first?_eq_some.1 hfirst
    exact ⟨key, ⟨Catalogue.mem_of_mem_entries hmem, hsame,
      fun j hj hjc => mt Text.utf8_lt_utf8.1 (hleast j hj hjc)⟩, hmem⟩
  · rintro ⟨key, hkey, hmem⟩
    exact Catalogue.first?_eq_some.2 ⟨key, hmem, hkey.same,
      fun j hj hjc => mt Text.utf8_lt_utf8.2 (hkey.least j hj hjc)⟩

/-- What a table finds for a code. -/
theorem lookup?_eq_some :
    t.lookup? c = some d ↔
      t.Files c d ∨ c ∉ t.codes ∧ ∃ key, t.IsLeastSpelling c key ∧ t.Files key d := by
  by_cases h : c ∈ t.codes
  · rw [lookup?_of_mem h]
    exact ⟨Or.inl, fun h' => h'.resolve_right fun hnot => hnot.1 h⟩
  · rw [lookup?_of_not_mem h]
    refine ⟨fun hd => Or.inr ⟨h, hd⟩, ?_⟩
    rintro (hd | hd)
    · exact absurd (mem_codes_of_files hd) h
    · exact hd.2

/-! ## One dialect more -/

theorem mem_codes_insert : c ∈ (t.insert k r).codes ↔ c = k ∨ c ∈ t.codes := Catalogue.mem_insert

theorem files_insert : (t.insert k r).Files c d ↔ c = k ∧ d = r ∨ c ≠ k ∧ t.Files c d := by
  rw [Files, insert, Catalogue.mem_entries_insert, Prod.mk.injEq, Files]

theorem lookup?_insert_self : (t.insert k r).lookup? k = some r :=
  (lookup?_of_mem (mem_codes_insert.2 (Or.inl rfl))).2 (files_insert.2 (Or.inl ⟨rfl, rfl⟩))

/-- The other codes of the table stand for their own dialects. -/
theorem lookup?_insert_of_mem (hne : c ≠ k) (hc : c ∈ t.codes) :
    (t.insert k r).lookup? c = t.lookup? c := by
  apply Option.ext
  intro d
  rw [lookup?_of_mem (mem_codes_insert.2 (Or.inr hc)), lookup?_of_mem hc, files_insert]
  exact ⟨fun h => h.elim (fun heq => absurd heq.1 hne) And.right, fun h => Or.inr ⟨hne, h⟩⟩

/-- Another spelling finds the new dialect if it comes first. -/
theorem lookup?_insert_of_least (hne : c ≠ k) (hc : c ∉ t.codes)
    (hk : (t.insert k r).IsLeastSpelling c k) : (t.insert k r).lookup? c = some r := by
  have hnot : c ∉ (t.insert k r).codes := fun h => (mem_codes_insert.1 h).elim hne hc
  exact (lookup?_of_not_mem hnot).2 ⟨k, hk, files_insert.2 (Or.inl ⟨rfl, rfl⟩)⟩

/-- The first spelling stays the first with another dialect. -/
theorem IsLeastSpelling.insert_self (h : t.IsLeastSpelling c k) :
    (t.insert k r).IsLeastSpelling c k := by
  refine ⟨mem_codes_insert.2 (Or.inl rfl), h.same, fun j hj hjc => ?_⟩
  rcases mem_codes_insert.1 hj with rfl | hj
  · exact List.lt_irrefl _
  · exact h.least j hj hjc

/-- A code that does not come first leaves the first one where it was. -/
theorem isLeastSpelling_insert (hne : key ≠ k) (hk : ¬ (t.insert k r).IsLeastSpelling c k) :
    (t.insert k r).IsLeastSpelling c key ↔ t.IsLeastSpelling c key := by
  constructor
  · intro h
    exact ⟨(mem_codes_insert.1 h.mem).resolve_left hne, h.same,
      fun j hj => h.least j (mem_codes_insert.2 (Or.inr hj))⟩
  · intro h
    refine ⟨mem_codes_insert.2 (Or.inr h.mem), h.same, fun j hj hjc => ?_⟩
    rcases mem_codes_insert.1 hj with rfl | hj
    · -- otherwise `j` would come before `key`, and so before all of them
      intro hlt
      refine hk ⟨mem_codes_insert.2 (Or.inl rfl), hjc, fun i hi hic => ?_⟩
      rcases mem_codes_insert.1 hi with rfl | hi
      · exact List.lt_irrefl _
      · exact fun hij => h.least i hi hic (List.lt_trans hij hlt)
    · exact h.least j hj hjc

/-- Other spellings find what they found before if the new code does not come first. -/
theorem lookup?_insert_of_not_least (hne : c ≠ k) (hc : c ∉ t.codes)
    (hk : ¬ (t.insert k r).IsLeastSpelling c k) : (t.insert k r).lookup? c = t.lookup? c := by
  have hnot : c ∉ (t.insert k r).codes := fun h => (mem_codes_insert.1 h).elim hne hc
  apply Option.ext
  intro d
  rw [lookup?_of_not_mem hnot, lookup?_of_not_mem hc]
  refine exists_congr fun key => ?_
  by_cases hkey : key = k
  · -- neither table has `k` as the first spelling
    subst hkey
    exact iff_of_false (fun h => hk h.1) fun h => hk h.1.insert_self
  · rw [isLeastSpelling_insert hkey hk, files_insert]
    simp [hkey]

/-- What differs from the new code by more than case is found as before. -/
theorem lookup?_insert_of_ne (h : Text.sameIgnoringCase k c = false) :
    (t.insert k r).lookup? c = t.lookup? c := by
  have hne : c ≠ k := by
    rintro rfl
    rw [Text.sameIgnoringCase_self] at h
    cases h
  by_cases hc : c ∈ t.codes
  · exact lookup?_insert_of_mem hne hc
  · refine lookup?_insert_of_not_least hne hc fun hk => ?_
    rw [hk.same] at h
    cases h

theorem insert_insert_comm {k' : Text} {r' : Dialect} (h : k ≠ k') :
    (t.insert k r).insert k' r' = (t.insert k' r').insert k r := by
  rw [insert, insert, insert, insert, Catalogue.insert_comm h]

/-- **Looking up, and what another dialect changes about it.**  A code finds what is
filed under it, or else under the first of its spellings, and nothing only if the
table has no spelling of it.  A dialect more is found under its code.  It leaves alone
what differs from its code by more than case, and the other codes of the table; other
spellings find it if its code is the first of them then, and else what they found
before.  The base stays, and it does not matter which of two dialects comes first. -/
theorem lookup?_insert_frame (t : DialectTable) (k : Text) (r : Dialect) :
    (∀ c d, t.lookup? c = some d ↔
      t.Files c d ∨ c ∉ t.codes ∧ ∃ key, t.IsLeastSpelling c key ∧ t.Files key d) ∧
    (∀ c, t.lookup? c = none ↔ ∀ key ∈ t.codes, Text.sameIgnoringCase key c = false) ∧
    (t.insert k r).lookup? k = some r ∧
    (∀ c, Text.sameIgnoringCase k c = false → (t.insert k r).lookup? c = t.lookup? c) ∧
    (∀ c ∈ t.codes, c ≠ k → (t.insert k r).lookup? c = t.lookup? c) ∧
    (∀ c, c ∉ t.codes → c ≠ k → Text.sameIgnoringCase k c = true →
      ((t.insert k r).IsLeastSpelling c k → (t.insert k r).lookup? c = some r) ∧
        (¬ (t.insert k r).IsLeastSpelling c k → (t.insert k r).lookup? c = t.lookup? c)) ∧
    (t.insert k r).base = t.base ∧
    ∀ k' r', k ≠ k' → (t.insert k r).insert k' r' = (t.insert k' r').insert k r := by
  refine ⟨fun _ _ => lookup?_eq_some, fun _ => lookup?_eq_none, lookup?_insert_self,
    fun _ => lookup?_insert_of_ne, fun _ hc hne => lookup?_insert_of_mem hne hc,
    fun _ hc hne _ => ?_, rfl, fun _ _ => insert_insert_comm⟩
  exact ⟨lookup?_insert_of_least hne hc, lookup?_insert_of_not_least hne hc⟩

/-- Three spellings of one code.  The second comes before the first, so that a fourth
one finds it; the third comes behind both and is found under itself only. -/
theorem lookup?_insert_frame_of_spellings :
    let t := standard.insert "Pt" Dialect.french
    let t' := t.insert "PT" Dialect.german
    let t'' := t.insert "pt" Dialect.german
    let pT : Text := "pT"
    pT ∉ t.codes ∧ t'.IsLeastSpelling pT "PT" ∧ ¬ t''.IsLeastSpelling pT "pt" ∧
      t.lookup? pT = some Dialect.french ∧ t'.lookup? pT = some Dialect.german ∧
      t''.lookup? pT = some Dialect.french ∧ t'.lookup? "Pt" = some Dialect.french ∧
      t'.lookup? "EN" = t.lookup? "EN" ∧ t'.insert "pt" Dialect.spanish =
        (t.insert "pt" Dialect.spanish).insert "PT" Dialect.german := by
  intro t t' t'' pT
  have hnot : pT ∉ t.codes := by decide
  have hfirst : t'.IsLeastSpelling pT "PT" := ⟨by decide, by decide, by decide⟩
  have hbehind : ¬ t''.IsLeastSpelling pT "pt" := fun h => absurd h.least (by decide)
  have hold : t.lookup? pT = some Dialect.french := by decide
  obtain ⟨-, -, -, hother, hcode, hspelling, -, hcomm⟩ :=
    lookup?_insert_frame t "PT" Dialect.german
  obtain ⟨-, -, -, -, -, hspelling', -⟩ := lookup?_insert_frame t "pt" Dialect.german
  exact ⟨hnot, hfirst, hbehind, hold, (hspelling pT hnot (by decide) (by decide)).1 hfirst,
    ((hspelling' pT hnot (by decide) (by decide)).2 hbehind).trans hold,
    (hcode "Pt".toList (by decide) (by decide)).trans (by decide), hother "EN".toList (by decide),
    hcomm "pt".toList Dialect.spanish (by decide)⟩

end Gherkin.DialectTable
