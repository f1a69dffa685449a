import Gherkin.Proofs.KeywordDocument
import Mathlib.Logic.Relation

/-!
# Keyword documents that say the same

A keyword document can be written in many ways: locales and members stand in any order,
members with other names do not count, a list of one string may be a bare string,
outlines have two names, strings may be padded, blank ones may be added, and the ten
values of a record may stand in an array.

> `ofDocument_respelled`: all these documents have the same outcome, and a record that
> gives a role twice makes its document malformed.

What a record says is what stands for each role, whatever the order
(`Dialect.ofJson?_object`), so each way of writing is looked at on its own, for one
value (`Json.SameStrings`), one record (`Json.SameRecord`) and one document
(`Json.Respelled`).  Documents that differ in many of these ways are connected by
documents that differ in one.
-/

namespace Gherkin

/-! ## Ways of writing -/

/-- The names that a keyword document may have for a role. -/
def Role.names : Role → List Text
  | scenarioOutline => ["scenario_outline", "scenarioOutline"]
  | r => [r.key]

namespace Json

/-- Two values that give a role the same words. -/
inductive SameStrings : Json → Json → Prop
  /-- A list of one string, or the bare string. -/
  | bare (content : Option Text) : SameStrings (array [string content]) (string content)
  /-- White space around a bare string. -/
  | padded {s s' : Text} (h : Text.Padded s s') : SameStrings (text s) (text s')
  /-- White space around a string of a list. -/
  | paddedItem (xs ys : List Json) {s s' : Text} (h : Text.Padded s s') :
    SameStrings (array (xs ++ text s :: ys)) (array (xs ++ text s' :: ys))
  /-- A blank string more in a list. -/
  | blank (xs ys : List Json) {s : Text} (h : Text.IsBlankRun s) :
    SameStrings (array (xs ++ ys)) (array (xs ++ text s :: ys))

/-- Two records that say the same. -/
inductive SameRecord : Json → Json → Prop
  /-- The members in another order. -/
  | order {members members' : List (Option Text × Json)} (h : members.Perm members') :
    SameRecord (object members) (object members')
  /-- Another member, whose name is not the name of a role. -/
  | unknown (xs ys : List (Option Text × Json)) {name : Text} (value : Json)
    (h : ∀ r : Role, name ∉ r.names) :
    SameRecord (object (xs ++ ys)) (object (xs ++ (some name, value) :: ys))
  /-- The other name for outlines. -/
  | outline (xs ys : List (Option Text × Json)) (value : Json) :
    SameRecord (object (xs ++ (some "scenario_outline".toList, value) :: ys))
      (object (xs ++ (some "scenarioOutline".toList, value) :: ys))
  /-- The strings of a member in another form. -/
  | member (xs ys : List (Option Text × Json)) (name : Option Text) {value value' : Json}
    (h : SameStrings value value') :
    SameRecord (object (xs ++ (name, value) :: ys)) (object (xs ++ (name, value') :: ys))
  /-- The strings of an item in another form. -/
  | item (xs ys : List Json) {value value' : Json} (h : SameStrings value value') :
    SameRecord (array (xs ++ value :: ys)) (array (xs ++ value' :: ys))
  /-- The values of all roles, with their names or in an array. -/
  | array (values : Role → Json) :
    SameRecord (object (Role.all.map fun r => (some r.key.toList, values r)))
      (array (Role.all.map values))

/-- Two documents that differ in the order of the locales or in one record. -/
inductive Respelled : Json → Json → Prop
  | locales {members members' : List (Option Text × Json)} (h : members.Perm members') :
    Respelled (object members) (object members')
  | record (xs ys : List (Option Text × Json)) (code : Option Text) {value value' : Json}
    (h : SameRecord value value') :
    Respelled (object (xs ++ (code, value) :: ys)) (object (xs ++ (code, value') :: ys))

/-- That no code is given twice. -/
def DistinctCodes : Json → Prop
  | object members => (members.filterMap (·.1)).Nodup
  | _ => True

end Json

/-! ## One value -/

namespace Json

theorem texts?_append (xs ys : List Json) :
    texts? (xs ++ ys) = (texts? xs).bind fun a => (texts? ys).map fun b => a ++ b := by
  rw [texts?, List.mapM_append]
  simp only [Option.map_eq_bind]
  rfl

theorem texts?_cons (s : Text) (ys : List Json) :
    texts? (text s :: ys) = (texts? ys).map (s :: ·) := by
  rw [texts?, List.mapM_cons, Option.map_eq_bind]
  rfl

end Json

namespace Dialect

theorem cleaned_append (a b : List Text) : cleaned (a ++ b) = cleaned a ++ cleaned b := by
  rw [cleaned, List.map_append, List.filter_append]
  rfl

theorem cleaned_cons (s : Text) (b : List Text) : cleaned (s :: b) = cleaned [s] ++ cleaned b :=
  cleaned_append [s] b

theorem cleaned_of_padded {s s' : Text} (h : Text.Padded s s') : cleaned [s'] = cleaned [s] := by
  rw [cleaned, List.map_singleton, h.trim_eq]
  rfl

theorem cleaned_of_isBlankRun {s : Text} (h : Text.IsBlankRun s) : cleaned [s] = [] := by
  rw [cleaned, List.map_singleton, Text.trim_eq_nil.2 h]
  rfl

theorem synonymsOfJson?_sameStrings {value value' : Json} (h : Json.SameStrings value value') :
    synonymsOfJson? value = synonymsOfJson? value' := by
  cases h with
  | bare content => cases content <;> rfl
  | padded h =>
    show some (cleaned [_]) = some (cleaned [_])
    rw [cleaned_of_padded h]
  | @paddedItem xs ys s s' h =>
    have hclean (a b : List Text) : cleaned (a ++ s :: b) = cleaned (a ++ s' :: b) := by
      rw [cleaned_append, cleaned_append, cleaned_cons s, cleaned_cons s', cleaned_of_padded h]
    simp only [synonymsOfJson?, Json.texts?_append, Json.texts?_cons, Option.map_bind,
      Option.map_map, Function.comp_def, hclean]
  | @blank xs ys s h =>
    have hclean (a b : List Text) : cleaned (a ++ s :: b) = cleaned (a ++ b) := by
      rw [cleaned_append, cleaned_append, cleaned_cons s, cleaned_of_isBlankRun h, List.nil_append]
    simp only [synonymsOfJson?, Json.texts?_append, Json.texts?_cons, Option.map_bind,
      Option.map_map, Function.comp_def, hclean]

end Dialect

/-! ## One record -/

theorem Role.ofKey?_eq_some {k : Text} {r : Role} : ofKey? k = some r ↔ k ∈ r.names := by
  constructor
  · intro h
    unfold ofKey? at h
    by_cases hk : k = "scenarioOutline".toList
    · rw [if_pos hk] at h
      cases h
      exact List.mem_cons_of_mem _ (List.mem_singleton.2 hk)
    · rw [if_neg hk] at h
      have hkey : r.key.toList = k := by simpa using List.find?_some h
      have hname : ∀ r ∈ all, r.key.toList ∈ r.names := by decide
      exact hkey ▸ hname r (mem_all r)
  · have hname : ∀ r ∈ all, ∀ n ∈ r.names, ofKey? n = some r := by decide
    exact hname r (mem_all r) k

/-- The one member of a list. -/
def single? {α : Type} : List α → Option α
  | [a] => some a
  | _ => none

theorem single?_map {α β : Type} (f : α → β) : ∀ l : List α, single? (l.map f) = (single? l).map f
  | [] => rfl
  | [_] => rfl
  | _ :: _ :: _ => rfl

theorem single?_of_length_ne {α : Type} : ∀ {l : List α}, l.length ≠ 1 → single? l = none
  | [], _ => rfl
  | [_], h => absurd rfl h
  | _ :: _ :: _, _ => rfl

theorem single?_perm {α : Type} {l l' : List α} (h : l.Perm l') : single? l = single? l' := by
  by_cases hone : l.length = 1
  · obtain ⟨a, rfl⟩ := List.length_eq_one_iff.1 hone
    rw [List.singleton_perm.1 h]
  · rw [single?_of_length_ne hone, single?_of_length_ne (h.length_eq ▸ hone)]

namespace Dialect

/-- What a member of a record says about a role: nothing, or the words of its value. -/
def reading? (r : Role) (m : Option Text × Json) : Option (Option (List Text)) :=
  if m.1.bind Role.ofKey? = some r then some (synonymsOfJson? m.2) else none

theorem memberFor?_eq (named : List (Text × Json)) (r : Role) :
    memberFor? named r =
      (single? (named.filter fun m => Role.ofKey? m.1 == some r)).map (·.2) := by
  rw [memberFor?]
  cases named.filter fun m => Role.ofKey? m.1 == some r with
  | nil => rfl
  | cons m l => cases l <;> rfl

theorem memberFor?_bind (members : List (Option Text × Json)) (r : Role) :
    (memberFor? (members.filterMap namedMember?) r).bind synonymsOfJson? =
      (single? (members.filterMap (reading? r))).join := by
  have hreading : members.filterMap (reading? r) =
      ((members.filterMap namedMember?).filter fun m => Role.ofKey? m.1 == some r).map
        fun m => synonymsOfJson? m.2 := by
    rw [← List.filterMap_eq_filter, List.filterMap_filterMap, List.map_filterMap]
    congr 1
    funext m
    rcases m with ⟨_ | name, value⟩
    · rfl
    · by_cases h : Role.ofKey? name = some r <;> simp [reading?, namedMember?, h, Option.guard]
  rw [hreading, single?_map, memberFor?_eq]
  cases single? ((members.filterMap namedMember?).filter fun m => Role.ofKey? m.1 == some r) <;> rfl

/-- A record says about a role what its only member for the role says. -/
theorem ofJson?_object (members : List (Option Text × Json)) :
    ofJson? (.object members) =
      if members.all (fun m => m.1.isSome) then
        collect? fun r => (single? (members.filterMap (reading? r))).join
      else none := by
  have hnamed (m : Option Text × Json) : (namedMember? m).isSome = m.1.isSome :=
    Option.isSome_map
  rw [ofJson?, mapM_eq_ite]
  simp only [hnamed]
  split
  · simp only [← memberFor?_bind]
    rfl
  · rfl

/-- A record is read from what its members say. -/
theorem ofJson?_object_congr {members members' : List (Option Text × Json)}
    (hnames : members.all (fun m => m.1.isSome) = members'.all (fun m => m.1.isSome))
    (hreading : ∀ r, single? (members.filterMap (reading? r)) =
      single? (members'.filterMap (reading? r))) :
    ofJson? (.object members) = ofJson? (.object members') := by
  rw [ofJson?_object, ofJson?_object, hnames]
  simp only [hreading]

/-- One member may be replaced by another one that says the same. -/
theorem ofJson?_object_replace (xs ys : List (Option Text × Json)) {m m' : Option Text × Json}
    (hname : m.1.isSome = m'.1.isSome) (hreading : ∀ r, reading? r m = reading? r m') :
    ofJson? (.object (xs ++ m :: ys)) = ofJson? (.object (xs ++ m' :: ys)) := by
  apply ofJson?_object_congr
  · rw [List.all_append, List.all_append, List.all_cons, List.all_cons, hname]
  · intro r
    rw [List.filterMap_append, List.filterMap_append, List.filterMap_cons, List.filterMap_cons,
      hreading r]

/-- An array says about a role what its item for the role says. -/
theorem ofJson?_array (items : List Json) :
    ofJson? (.array items) =
      if (items.map synonymsOfJson?).length = Role.all.length then
        collect? fun r => ((items.map synonymsOfJson?)[Role.all.idxOf r]?).join
      else none := by
  have hitem (r : Role) : ((items.map synonymsOfJson?)[Role.all.idxOf r]?).join =
      (items[Role.all.idxOf r]?).bind synonymsOfJson? := by
    rw [List.getElem?_map]
    cases items[Role.all.idxOf r]? <;> rfl
  simp only [ofJson?, List.length_map, hitem]

/-- The item for a role in an array of the values of all roles. -/
theorem getElem?_map_all {α : Type} (f : Role → α) (r : Role) :
    (Role.all.map f)[Role.all.idxOf r]? = some (f r) := by
  rw [List.getElem?_map, List.getElem?_idxOf (Role.mem_all r)]
  rfl

/-- The only member for a role in an object of the values of all roles. -/
theorem filterMap_reading?_all (values : Role → Json) (r : Role) :
    (Role.all.map fun r => (some r.key.toList, values r)).filterMap (reading? r) =
      [synonymsOfJson? (values r)] := by
  cases r with
  | step family => cases family <;> rfl
  | _ => rfl

theorem ofJson?_sameRecord {value value' : Json} (h : Json.SameRecord value value') :
    ofJson? value = ofJson? value' := by
  cases h with
  | order h => exact ofJson?_object_congr h.all_eq fun r => single?_perm (h.filterMap _)
  | @unknown xs ys name value h =>
    apply ofJson?_object_congr
    · rw [List.all_append, List.all_append, List.all_cons]
      rfl
    · intro r
      have hnone : reading? r (some name, value) = none :=
        if_neg fun hr => h r (Role.ofKey?_eq_some.1 hr)
      rw [List.filterMap_append, List.filterMap_append, List.filterMap_cons_none hnone]
  | outline xs ys value =>
    have hkey : Role.ofKey? "scenario_outline" = Role.ofKey? "scenarioOutline" := by decide
    refine ofJson?_object_replace xs ys ?_ fun r => ?_
    · simp only [Option.isSome_some]
    · simp only [reading?, Option.bind_some, hkey]
  | member xs ys name h =>
    refine ofJson?_object_replace xs ys rfl fun r => ?_
    rw [reading?, reading?, synonymsOfJson?_sameStrings h]
  | item xs ys h =>
    rw [ofJson?_array, ofJson?_array, List.map_append, List.map_append, List.map_cons,
      List.map_cons, synonymsOfJson?_sameStrings h]
  | array values =>
    rw [ofJson?_object, ofJson?_array, if_pos (by simp), if_pos (by simp)]
    simp only [filterMap_reading?_all, List.map_map, getElem?_map_all, Function.comp_apply, single?]

/-- A role that is given twice leaves no dialect. -/
theorem ofJson?_of_twice {members : List (Option Text × Json)} {role : Role} {n n' : Text}
    {a b : Json} (hn : n ∈ role.names) (hn' : n' ∈ role.names)
    (h : [(some n, a), (some n', b)].Sublist members) : ofJson? (.object members) = none := by
  have hsome {n : Text} (hn : n ∈ role.names) (a : Json) :
      reading? role (some n, a) = some (synonymsOfJson? a) :=
    if_pos (Role.ofKey?_eq_some.2 hn)
  have htwo : 2 ≤ (members.filterMap (reading? role)).length := by
    have hlen := (h.filterMap (reading? role)).length_le
    rwa [List.filterMap_cons_some (hsome hn a), List.filterMap_cons_some (hsome hn' b)] at hlen
  rw [ofJson?_object]
  split
  · apply Option.eq_none_iff_forall_ne_some.2
    intro d hd
    have hrole := collect?_eq_some.1 hd role
    rw [single?_of_length_ne (by omega)] at hrole
    cases hrole
  · rfl

end Dialect

/-! ## A document -/

namespace Json

/-- What a member of a document files. -/
def filing? (m : Option Text × Json) : Option (Text × Dialect) :=
  m.1.bind fun code => (Dialect.ofJson? m.2).map (code, ·)

theorem dialects?_object (members : List (Option Text × Json)) :
    dialects? (object members) =
      if members.all (fun m => (filing? m).isSome) then
        some (Catalogue.ofList (members.filterMap filing?))
      else none := by
  have hmapM : dialects? (object members) = (members.mapM filing?).map Catalogue.ofList := by
    rw [dialects?]
    congr 2
    funext m
    rcases m with ⟨_ | code, value⟩
    · rfl
    · simp only [filing?, Option.bind_some, Option.map_eq_bind]
      rfl
  rw [hmapM, mapM_eq_ite]
  split <;> rfl

theorem nodup_codes {members : List (Option Text × Json)} (h : (object members).DistinctCodes) :
    ((members.filterMap filing?).map (·.1)).Nodup := by
  have hcode {m : Option Text × Json} {e : Text × Dialect} (he : filing? m = some e) :
      m.1 = some e.1 := by
    obtain ⟨code, hm, hd⟩ := Option.bind_eq_some_iff.1 he
    obtain ⟨d, -, rfl⟩ := Option.map_eq_some_iff.1 hd
    exact hm
  rw [DistinctCodes, List.Nodup, List.pairwise_filterMap] at h
  rw [List.Nodup, List.pairwise_map, List.pairwise_filterMap]
  exact h.imp fun hne (e : Text × Dialect) he (e' : Text × Dialect) he' =>
    hne e.1 (hcode he) e'.1 (hcode he')

variable {value value' : Json}

theorem Respelled.distinctCodes_iff (h : Respelled value value') :
    value.DistinctCodes ↔ value'.DistinctCodes := by
  cases h with
  | locales h => exact (h.filterMap _).nodup_iff
  | record xs ys code h =>
    simp only [DistinctCodes, List.filterMap_append, List.filterMap_cons]

/-- Two documents that differ in one way file the same dialects. -/
theorem Respelled.dialects?_eq (h : Respelled value value') (hcodes : value.DistinctCodes) :
    value.dialects? = value'.dialects? := by
  cases h with
  | locales h =>
    rw [dialects?_object, dialects?_object, h.all_eq,
      Catalogue.ofList_eq_of_perm (nodup_codes hcodes) (h.filterMap _)]
  | @record xs ys code value value' h =>
    have hfiling : filing? (code, value) = filing? (code, value') := by
      rw [filing?, filing?, Dialect.ofJson?_sameRecord h]
    simp only [dialects?_object, List.all_append, List.all_cons, List.filterMap_append,
      List.filterMap_cons, hfiling]

/-- So do two documents that are connected by others. -/
theorem dialects?_eq_of_eqvGen (h : Relation.EqvGen Respelled value value') :
    (value.DistinctCodes ↔ value'.DistinctCodes) ∧
      (value.DistinctCodes → value.dialects? = value'.dialects?) := by
  induction h with
  | rel _ _ h => exact ⟨h.distinctCodes_iff, h.dialects?_eq⟩
  | refl => exact ⟨Iff.rfl, fun _ => rfl⟩
  | symm _ _ _ ih => exact ⟨ih.1.symm, fun hcodes => (ih.2 (ih.1.2 hcodes)).symm⟩
  | trans _ _ _ _ _ ih ih' =>
    exact ⟨ih.1.trans ih'.1, fun hcodes => (ih.2 hcodes).trans (ih'.2 (ih.1.1 hcodes))⟩

/-- One record that gives a role twice leaves no dialects at all. -/
theorem dialects?_of_twice {members record : List (Option Text × Json)} {code : Option Text}
    {role : Role} {n n' : Text} {a b : Json} (hmem : (code, object record) ∈ members)
    (hn : n ∈ role.names) (hn' : n' ∈ role.names)
    (h : [(some n, a), (some n', b)].Sublist record) : dialects? (object members) = none := by
  have hfiling : filing? (code, object record) = none := by
    rw [filing?, Dialect.ofJson?_of_twice hn hn' h]
    cases code <;> rfl
  rw [dialects?_object, if_neg]
  intro hall
  have hsome := List.all_eq_true.1 hall _ hmem
  rw [hfiling] at hsome
  cases hsome

end Json

namespace DialectTable

/-- **All ways to write a keyword document have the same outcome.**  If no locale is
written twice, a document and every other one that says the same in another way give the
same table or the same error, whatever the base is.  But a record that gives a role
twice, under one of its names or under both, makes its document malformed. -/
theorem ofDocument_respelled :
    (∀ (document document' : Text) (value value' : Json), Json.read document = some value →
      Json.read document' = some value' → value.DistinctCodes →
        Relation.EqvGen Json.Respelled value value' →
          ∀ base, ofDocument document base = ofDocument document' base) ∧
    ∀ (document : Text) (members record : List (Option Text × Json)) (code : Option Text)
      (role : Role) (n n' : Text) (a b : Json), Json.read document = some (.object members) →
        (code, .object record) ∈ members → n ∈ role.names → n' ∈ role.names →
          [(some n, a), (some n', b)].Sublist record →
            ∀ base, ofDocument document base = .error .malformed := by
  constructor
  · intro document document' value value' hread hread' hcodes hsame base
    have hdialects := (Json.dialects?_eq_of_eqvGen hsame).2 hcodes
    rw [ofDocument, ofDocument, hread, hread', Option.bind_some, Option.bind_some, hdialects]
  · intro document members record code role n n' a b hread hmem hn hn' htwice base
    rw [ofDocument, hread, Option.bind_some, Json.dialects?_of_twice hmem hn hn' htwice]

/-- A record as an array, and as an object with its members in another order, with one
member more, the other name for outlines, a padded string and a blank one.  Outlines
under both of their names are refused. -/
theorem ofDocument_respelled_of_two_locales :
    let letters : Text := "\"f\",\"b\",\"s\",\"s\",\"e\",\"g\",\"w\",\"t\",\"a\","
    let others (outlines : Text) : Text :=
      "\"background\":\"b\",\"scenario\":\"s\",\"" ++ outlines ++ "\":\"s\",\"examples\":\"e\"," ++
        "\"given\":\"g\",\"when\":\"w\",\"then\":\"t\",\"and\":\"a\""
    let document : Text :=
      "\x7b\"en\":[" ++ letters ++ "[\"b\"]],\"sv\":[" ++ letters ++ "\"b\"]\x7d"
    let document' : Text :=
      "\x7b\"sv\":[" ++ letters ++ "\"b\"],\"en\":\x7b\"but\":[\" \",\"b\"],\"note\":[1]," ++
        "\"feature\":\" f\"," ++ others "scenarioOutline" ++ "\x7d\x7d"
    let twice : Text :=
      "\x7b\"en\":\x7b\"feature\":\"f\",\"but\":\"b\"," ++ "\"scenarioOutline\":\"s\"," ++
        others "scenario_outline" ++ "\x7d\x7d"
    (∀ base, ofDocument document base = ofDocument document' base) ∧
      ∀ base, ofDocument twice base = .error .malformed := by
  intro letters others document document' twice
  let items : List Json := Role.all.map fun r => .text (r.key.toList.take 1)
  let inner (outlines : Text) : List (Option Text × Json) :=
    [(some "background".toList, .text "b"), (some "scenario".toList, .text "s"),
      (some outlines, .text "s"), (some "examples".toList, .text "e"),
      (some "given".toList, .text "g"), (some "when".toList, .text "w"),
      (some "then".toList, .text "t"), (some "and".toList, .text "a")]
  let members (feature but : Json) (outlines : Text) : List (Option Text × Json) :=
    (some "feature".toList, feature) :: inner outlines ++ [(some "but".toList, but)]
  let whole (en : Json) : Json := .object [(some "en".toList, en), (some "sv".toList, .array items)]
  let unlisted : List (Option Text × Json) :=
    (some "but".toList, .array [.text " ", .text "b"]) ::
      (some "note".toList, .array [.number "1"]) :: (some "feature".toList, .text " f") ::
        inner "scenarioOutline"
  let doubled : List (Option Text × Json) :=
    (some "feature".toList, .text "f") :: (some "but".toList, .text "b") ::
      (some "scenarioOutline".toList, .text "s") :: inner "scenario_outline"
  obtain ⟨hread, hread', htwice⟩ :
      Json.read document = some (whole (.array (items.take 9 ++ [.array [.text "b"]]))) ∧
      Json.read document' = some (.object
        [(some "sv".toList, .array items), (some "en".toList, .object unlisted)]) ∧
      Json.read twice = some (.object [(some "en".toList, .object doubled)]) := by
    simp only [document, document', twice, letters, others, whole, unlisted, doubled, items, inner]
    exact ⟨by decide +kernel, by decide +kernel, by decide +kernel⟩
  have lift {en en' : Json} (h : Json.SameRecord en en') :
      Relation.EqvGen Json.Respelled (whole en) (whole en') :=
    .rel _ _ (.record [] [(some "sv".toList, .array items)] (some "en".toList) h)
  have hblank : Text.IsBlankRun " " := List.all_eq_true.1 (by decide)
  have hnote : ∀ r : Role, ("note" : Text) ∉ r.names := by
    have hall : ∀ r ∈ Role.all, ("note" : Text) ∉ r.names := by decide
    exact fun r => hall r (Role.mem_all r)
  have hperm : ((some "note".toList, Json.array [.number "1"]) :: members (.text " f")
      (.array [.text " ", .text "b"]) "scenarioOutline").Perm unlisted :=
    List.perm_append_singleton _ (_ :: _ :: _)
  have hsub : [(some "scenarioOutline".toList, Json.text "s"),
      (some "scenario_outline".toList, Json.text "s")].Sublist doubled :=
    .cons _ (.cons _ (.cons_cons _ (List.singleton_sublist.2 (.tail _ (.tail _ (.head _))))))
  have hpadded : Text.Padded "f" " f" := ⟨[' '], [], hblank, nofun, rfl⟩
  refine ⟨fun base => ?_, ?_⟩
  · refine ofDocument_respelled.1 _ _ _ _ hread hread' ?_ ?_ base
    · show [("en".toList : Text), "sv".toList].Nodup
      decide
    · -- the array as an object, then one way of writing after the other
      refine .trans _ _ _ (lift (.item (items.take 9) [] (.bare (some "b".toList)))) ?_
      refine .trans _ _ _ (.symm _ _ (lift (.array fun r => .text (r.key.toList.take 1)))) ?_
      refine .trans _ _ _ (.symm _ _ (lift (.member ((some "feature".toList, .text "f") ::
        inner "scenario_outline") [] _ (.bare (some "b".toList))))) ?_
      refine .trans _ _ _ (lift (.member ((some "feature".toList, .text "f") ::
        inner "scenario_outline") [] _ (.blank [] [.text "b"] hblank))) ?_
      refine .trans _ _ _ (lift (.member [] _ _ (.padded hpadded))) ?_
      refine .trans _ _ _ (lift (.outline [_, _, _] _ (.text "s"))) ?_
      refine .trans _ _ _ (lift (.unknown [] _ (.array [.number "1"]) hnote)) ?_
      refine .trans _ _ _ (lift (.order hperm)) ?_
      exact .rel _ _ (.locales (.swap _ _ _))
  · intro base
    exact ofDocument_respelled.2 _ _ _ _ .scenarioOutline "scenarioOutline" "scenario_outline"
      (.text "s") (.text "s") htwice (List.mem_singleton.2 rfl) (by decide) (by decide) hsub
      base

end DialectTable

end Gherkin
