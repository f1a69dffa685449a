import Gherkin.Feature.Json
import Gherkin.Proofs.JsonReading

/-!
# Features can be told apart by their JSON

A list of features is printed as one JSON document, and nothing of it is lost there.

> `jsonDocument_inj`: the document is read as the array of the features' values, and
> two lists of features with the same document are the same.

There are no numbers in the value of a feature, so that it is read from its own text
(`Json.read_pretty`).  What is left is that each kind of node has its own value
(`toJson_injective`, one for each kind): where a value can stand for two kinds of thing,
the two have different members, or one of them is `null`.
-/

namespace Gherkin

namespace Json

variable {s t : Text} {ms ns : List (String × Json)}

@[simp] theorem text_inj : text s = text t ↔ s = t := by simp [text]

@[simp] theorem record_inj : record ms = record ns ↔ ms = ns := by
  have hinjective : Function.Injective fun m : String × Json => (some m.1.toList, m.2) := by
    rintro ⟨k, v⟩ ⟨l, w⟩ h
    simpa [String.toList_inj] using h
  rw [record, record, object.injEq, (List.map_injective_iff.2 hinjective).eq_iff]

theorem isPlain_text (s : Text) : IsPlain (text s) := .string _

theorem isPlain_record (h : ∀ m ∈ ms, IsPlain m.2) : IsPlain (record ms) := by
  apply IsPlain.object
  intro m hm
  obtain ⟨n, hn, rfl⟩ := List.mem_map.1 hm
  exact h n hn

/-- The array of values that are made from the members of a list. -/
theorem isPlain_array_map {α : Type} {f : α → Json} (h : ∀ a, IsPlain (f a)) (l : List α) :
    IsPlain (array (l.map f)) := by
  apply IsPlain.array
  intro v hv
  obtain ⟨a, -, rfl⟩ := List.mem_map.1 hv
  exact h a

/-- The same for such arrays. -/
theorem array_map_inj {α : Type} {f : α → Json} (h : Function.Injective f) {k l : List α} :
    array (k.map f) = array (l.map f) ↔ k = l := by
  rw [array.injEq, (List.map_injective_iff.2 h).eq_iff]

end Json

open Json (IsPlain isPlain_text isPlain_record isPlain_array_map array_map_inj)

/-! ## Steps -/

namespace Tag

theorem toJson_injective : Function.Injective Tag.toJson := by
  intro t u h
  cases t
  cases u
  simpa [toJson] using h

theorem isPlain_toJson (t : Tag) : IsPlain t.toJson :=
  isPlain_record (by simp [isPlain_text])

end Tag

namespace Row

theorem toJson_injective : Function.Injective Row.toJson := by
  intro r s h
  exact (array_map_inj fun _ _ => Json.text_inj.1).1 h

theorem isPlain_toJson (cells : Row) : IsPlain (Row.toJson cells) :=
  isPlain_array_map isPlain_text cells

end Row

namespace StepArgument

theorem toJson_injective : Function.Injective StepArgument.toJson := by
  intro a b h
  cases a with
  | block s =>
    cases b with
    | block t => simpa [toJson] using h
    | row cells => simp [toJson] at h
  | row cells =>
    cases b with
    | block t => simp [toJson] at h
    | row cells' => simpa [toJson, Row.toJson_injective.eq_iff] using h

theorem isPlain_toJson (a : StepArgument) : IsPlain a.toJson := by
  cases a with
  | block s => exact isPlain_record (by simp [isPlain_text])
  | row cells => exact isPlain_record (by simp [Row.isPlain_toJson])

end StepArgument

namespace StepFamily

theorem toJson_injective : Function.Injective StepFamily.toJson := by
  intro f g h
  revert h
  cases f <;> cases g <;> decide

end StepFamily

namespace Step

theorem toJson_injective : Function.Injective Step.toJson := by
  intro s t h
  cases s
  cases t
  simpa [toJson, StepFamily.toJson_injective.eq_iff,
    array_map_inj StepArgument.toJson_injective] using h

theorem isPlain_toJson (s : Step) : IsPlain s.toJson :=
  isPlain_record (by
    simp [isPlain_text, StepFamily.toJson, isPlain_array_map StepArgument.isPlain_toJson])

end Step

/-! ## Nodes -/

namespace Heading

theorem jsonFields_injective : Function.Injective Heading.jsonFields := by
  intro h k heq
  cases h
  cases k
  simpa [jsonFields, array_map_inj Tag.toJson_injective] using heq

theorem length_jsonFields (h : Heading) : h.jsonFields.length = 3 := rfl

/-- Behind the fields of two headings the rest can be told apart. -/
theorem jsonFields_append_inj {h k : Heading} {ms ns : List (String × Json)} :
    h.jsonFields ++ ms = k.jsonFields ++ ns ↔ h = k ∧ ms = ns := by
  constructor
  · intro heq
    obtain ⟨hfields, hrest⟩ := List.append_inj heq (by rw [length_jsonFields, length_jsonFields])
    exact ⟨jsonFields_injective hfields, hrest⟩
  · rintro ⟨rfl, rfl⟩
    rfl

theorem isPlain_jsonFields (h : Heading) : ∀ m ∈ h.jsonFields, IsPlain m.2 := by
  simp [jsonFields, isPlain_text, isPlain_array_map Tag.isPlain_toJson]

end Heading

/-- The fields of a node that starts with a heading. -/
theorem isPlain_node {h : Heading} {ms : List (String × Json)} (hms : ∀ m ∈ ms, IsPlain m.2) :
    IsPlain (.record (h.jsonFields ++ ms)) := by
  apply isPlain_record
  intro m hm
  rcases List.mem_append.1 hm with hm | hm
  · exact h.isPlain_jsonFields m hm
  · exact hms m hm

namespace Examples

theorem toJson_injective : Function.Injective Examples.toJson := by
  intro e f h
  cases e
  cases f
  simpa [toJson, Heading.jsonFields_injective.eq_iff, array_map_inj Row.toJson_injective] using h

theorem isPlain_toJson (e : Examples) : IsPlain e.toJson :=
  isPlain_node (by simp [isPlain_array_map Row.isPlain_toJson])

end Examples

namespace Container

theorem jsonFields_inj {c d : Container} : c.jsonFields = d.jsonFields ↔ c = d := by
  cases c
  cases d
  simp [jsonFields, Heading.jsonFields_injective.eq_iff, array_map_inj Step.toJson_injective]

theorem toJson_injective : Function.Injective Container.toJson := by
  intro c d h
  exact jsonFields_inj.1 (Json.record_inj.1 h)

theorem isPlain_jsonFields (c : Container) : ∀ m ∈ c.jsonFields, IsPlain m.2 := by
  intro m hm
  rcases List.mem_append.1 hm with hm | hm
  · exact c.toHeading.isPlain_jsonFields m hm
  · rw [List.mem_singleton.1 hm]
    exact isPlain_array_map Step.isPlain_toJson _

theorem isPlain_toJson (c : Container) : IsPlain c.toJson := isPlain_record c.isPlain_jsonFields

end Container

namespace ScenarioItem

/-- The `type` of an item tells a scenario from an outline without examples. -/
theorem toJson_injective : Function.Injective ScenarioItem.toJson := by
  intro i j h
  cases i with
  | scenario c =>
    cases j with
    | scenario d => simpa [toJson, Container.jsonFields_inj] using h
    | outline o => simp [toJson] at h
  | outline o =>
    cases j with
    | scenario d => simp [toJson] at h
    | outline p =>
      simp only [toJson, List.cons_append, Json.record_inj, List.cons.injEq, true_and] at h
      obtain ⟨hfields, hexamples⟩ := List.append_inj' h rfl
      have hcontainer := Container.jsonFields_inj.1 hfields
      simp only [List.cons.injEq, Prod.mk.injEq, true_and, and_true,
        array_map_inj Examples.toJson_injective] at hexamples
      cases o
      cases p
      simp_all

theorem isPlain_toJson (i : ScenarioItem) : IsPlain i.toJson := by
  cases i with
  | scenario c =>
    apply isPlain_record
    intro m hm
    rcases List.mem_cons.1 hm with rfl | hm
    · exact isPlain_text _
    · exact c.isPlain_jsonFields m hm
  | outline o =>
    apply isPlain_record
    intro m hm
    rcases List.mem_append.1 hm with hm | hm
    · rcases List.mem_cons.1 hm with rfl | hm
      · exact isPlain_text _
      · exact o.toContainer.isPlain_jsonFields m hm
    · rw [List.mem_singleton.1 hm]
      exact isPlain_array_map Examples.isPlain_toJson _

end ScenarioItem

/-! ## Features -/

namespace Feature

/-- What is missing is told apart from what is there, even if that is empty. -/
theorem optionalJson_injective {α : Type} {f : α → Json} (hf : Function.Injective f)
    (hnull : ∀ a, f a ≠ .null) : Function.Injective (optionalJson f) := by
  intro a b h
  cases a with
  | none =>
    cases b with
    | none => rfl
    | some b => exact absurd h.symm (hnull b)
  | some a =>
    cases b with
    | none => exact absurd h (hnull a)
    | some b => exact congrArg some (hf h)

theorem isPlain_optionalJson {α : Type} {f : α → Json} (hf : ∀ a, IsPlain (f a)) (a : Option α) :
    IsPlain (optionalJson f a) := by
  cases a with
  | none => exact .null
  | some a => exact hf a

theorem optionalText_injective : Function.Injective (optionalJson Json.text) :=
  optionalJson_injective (fun _ _ => Json.text_inj.1) nofun

theorem optionalContainer_injective : Function.Injective (optionalJson Container.toJson) :=
  optionalJson_injective Container.toJson_injective nofun

theorem toJson_injective : Function.Injective Feature.toJson := by
  intro f g h
  cases f
  cases g
  simpa [toJson, Heading.jsonFields_append_inj, optionalText_injective.eq_iff,
    optionalContainer_injective.eq_iff, array_map_inj ScenarioItem.toJson_injective] using h

theorem isPlain_toJson (f : Feature) : IsPlain f.toJson :=
  isPlain_node (by
    simp [isPlain_optionalJson isPlain_text, isPlain_optionalJson Container.isPlain_toJson,
      isPlain_array_map ScenarioItem.isPlain_toJson])

theorem read_jsonDocument (fs : List Feature) :
    Json.read (jsonDocument fs) = some (.array (fs.map toJson)) := by
  have hspace : ∀ c ∈ ['\n'], Json.isSpace c = true := by simp [Json.isSpace]
  exact Json.read_pretty (isPlain_array_map isPlain_toJson fs) 0 hspace

/-- **The JSON of features loses nothing.**  The document is JSON for the features'
values, and it determines the features. -/
theorem jsonDocument_inj (fs gs : List Feature) :
    Json.read (jsonDocument fs) = some (.array (fs.map toJson)) ∧
      (jsonDocument fs = jsonDocument gs ↔ fs = gs) := by
  refine ⟨read_jsonDocument fs, fun h => ?_, fun h => by rw [h]⟩
  have hread := read_jsonDocument gs
  rw [← h, read_jsonDocument fs, Option.some.injEq] at hread
  exact (array_map_inj toJson_injective).1 hread

end Feature

end Gherkin
