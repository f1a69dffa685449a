import Gherkin.Proofs.JsonReading
import Gherkin.Proofs.Respelling

/-!
# The keyword document of a dialect

A dialect can be written down as a keyword document of one locale, its ten lists in the
order of the roles.  Reading takes white space off the synonyms and wants one for each
role, so nothing else can be lost:

> `ofDocument_document`: a dialect that has a word for each role, and words only, is read
> back from its document, as the only one of its table.
-/

namespace Gherkin

theorem Json.texts?_map_text : ∀ l : List Text, texts? (l.map text) = some l
  | [] => rfl
  | s :: l => by
    rw [List.map_cons, texts?_cons, texts?_map_text l]
    rfl

namespace Dialect

variable {d : Dialect}

/-- A dialect as a JSON value: its lists in the order of the roles. -/
def json (d : Dialect) : Json := .array (Role.all.map fun r => .array ((d.words r).map Json.text))

/-- The keyword document with a dialect for one locale. -/
def document (d : Dialect) (code : Text) : Text := Json.pretty 0 (.object [(some code, d.json)])

theorem isPlain_json (d : Dialect) : Json.IsPlain d.json := by
  refine .array fun v hv => ?_
  obtain ⟨r, -, rfl⟩ := List.mem_map.1 hv
  refine .array fun v hv => ?_
  obtain ⟨s, -, rfl⟩ := List.mem_map.1 hv
  exact .string (some s)

theorem recordOfJson?_json (d : Dialect) : recordOfJson? d.json = some d := by
  have hlength : (Role.all.map fun r => Json.array ((d.words r).map Json.text)).length =
      Role.all.length := List.length_map _
  rw [recordOfJson?, json, fields?, if_pos hlength, Option.bind_some, collect?_eq_some]
  intro r
  dsimp only
  rw [getElem?_map_all, Option.bind_some, stringsOfJson?, Json.texts?_map_text]

theorem isWord_of_trim_eq {w : Text} (hne : w ≠ []) (h : Text.trim w = w) : IsWord w where
  ne_nil := hne
  head _ hc := Text.head?_trim (h.symm ▸ hc)
  last _ hc := Text.getLast?_trim (h.symm ▸ hc)

theorem isWord_of_forall {w : Text} (hne : w ≠ []) (h : ∀ c ∈ w, Text.isBlank c = false) :
    IsWord w where
  ne_nil := hne
  head c hc := h c (List.mem_of_head? hc)
  last c hc := h c (List.mem_of_getLast? hc)

/-- The words of the English dialect have no white space around them. -/
theorem isWord_english (r : Role) : ∀ w ∈ english.words r, IsWord w := by
  have htrim : ∀ r ∈ Role.all, ∀ w ∈ english.words r, w ≠ [] ∧ Text.trim w = w := by decide
  exact fun w hw => isWord_of_trim_eq (htrim r (Role.mem_all r) w hw).1
    (htrim r (Role.mem_all r) w hw).2

/-- Words count as they are. -/
theorem cleaned_of_isWord : ∀ {l : List Text}, (∀ w ∈ l, IsWord w) → cleaned l = l
  | [], _ => rfl
  | w :: l, h => by
    have hw := h w List.mem_cons_self
    have ih := cleaned_of_isWord fun v hv => h v (List.mem_cons_of_mem w hv)
    rw [cleaned_cons, ih, cleaned, List.map_singleton, Text.trim_eq_self hw.head hw.last,
      List.filter_cons_of_pos (by simpa using hw.ne_nil)]
    rfl

theorem tidied_of_isWord (h : ∀ r, ∀ w ∈ d.words r, IsWord w) : d.tidied = d :=
  ext_words fun r => by rw [words_tidied, cleaned_of_isWord (h r)]

end Dialect

namespace DialectTable

theorem recordsOf?_document (d : Dialect) (code : Text) :
    recordsOf? (d.document code) = some [(code, d)] := by
  have hplain : Json.IsPlain (.object [(some code, d.json)]) := by
    refine .object fun m hm => ?_
    obtain rfl := List.mem_singleton.1 hm
    exact d.isPlain_json
  have hread := Json.read_pretty hplain 0 (w := []) nofun
  rw [List.append_nil] at hread
  rw [recordsOf?, Dialect.document, hread]
  simp [Json.records?, Dialect.namedMember?, Dialect.recordOfJson?_json]

/-- **A dialect is read back from its document.** -/
theorem ofDocument_document {d : Dialect} (hne : ∀ r, d.words r ≠ [])
    (hwords : ∀ r, ∀ w ∈ d.words r, Dialect.IsWord w) (code : Text) :
    ofDocument (d.document code) code = .ok (single code d) := by
  have hfiled : filed [(code, d)] = Catalogue.empty.insert code d := by
    show Catalogue.empty.insert code d.tidied = _
    rw [Dialect.tidied_of_isWord hwords]
  have hgap : HasNoGap [(code, d)] := by
    rw [← firstGap?_filed_eq_none, hfiled]
    show [(code, d)].findSome? (fun e => e.2.missing?.map (e.1, ·)) = none
    rw [List.findSome?_cons, Dialect.missing?_eq_none.2 hne]
    rfl
  rw [ofDocument_of_no_gap (recordsOf?_document d code) hgap,
    if_pos (by simp), hfiled]
  rfl

/-- The English dialect with one more keyword for features. -/
theorem ofDocument_document_english {w : Text} (hw : Dialect.IsWord w) (code : Text) :
    let d : Dialect := { Dialect.english with feature := w :: Dialect.english.feature }
    ofDocument (d.document code) code = .ok (single code d) := by
  intro d
  have hother : ∀ r, r ≠ .feature → d.words r = Dialect.english.words r := by
    intro r hr
    cases r with
    | feature => exact absurd rfl hr
    | step family => cases family <;> rfl
    | _ => rfl
  have henglish : ∀ r ∈ Role.all, Dialect.english.words r ≠ [] := by decide
  refine ofDocument_document (fun r => ?_) (fun r => ?_) code
  · by_cases hr : r = .feature
    · subst hr
      exact List.cons_ne_nil _ _
    · rw [hother r hr]
      exact henglish r (Role.mem_all r)
  · by_cases hr : r = .feature
    · subst hr
      exact List.forall_mem_cons.2 ⟨hw, Dialect.isWord_english .feature⟩
    · rw [hother r hr]
      exact Dialect.isWord_english r

end DialectTable

end Gherkin
