import Gherkin.Dialect.Table

/-!
# The standard dialects

English, which is the base, French, German and Spanish.
-/

namespace Gherkin

namespace Dialect

/-- A list of synonyms. -/
def synonyms (l : List String) : List Text := l.map String.toList

def english : Dialect where
  feature := synonyms ["Feature", "Business Need", "Ability"]
  background := synonyms ["Background"]
  scenario := synonyms ["Scenario", "Example"]
  scenarioOutline := synonyms ["Scenario Outline", "Scenario Template"]
  examples := synonyms ["Examples", "Scenarios"]
  givenSteps := synonyms ["Given"]
  whenSteps := synonyms ["When"]
  thenSteps := synonyms ["Then"]
  andSteps := synonyms ["And"]
  butSteps := synonyms ["But"]

def french : Dialect where
  feature := synonyms ["Fonctionnalité"]
  background := synonyms ["Contexte"]
  scenario := synonyms ["Scénario", "Exemple"]
  scenarioOutline := synonyms ["Plan du scénario", "Plan du Scénario"]
  examples := synonyms ["Exemples"]
  givenSteps := synonyms
    ["Soit", "Sachant que", "Sachant qu'", "Sachant", "Etant donné que", "Etant donné qu'",
     "Etant donné", "Etant donnée", "Etant donnés", "Etant données", "Étant donné que",
     "Étant donné qu'", "Étant donné", "Étant donnée", "Étant donnés", "Étant données"]
  whenSteps := synonyms ["Quand", "Lorsque", "Lorsqu'"]
  thenSteps := synonyms ["Alors", "Donc"]
  andSteps := synonyms ["Et que", "Et qu'", "Et"]
  butSteps := synonyms ["Mais que", "Mais qu'", "Mais"]

def german : Dialect where
  feature := synonyms ["Funktionalität", "Funktion"]
  background := synonyms ["Grundlage", "Hintergrund", "Voraussetzungen", "Vorbedingungen"]
  scenario := synonyms ["Szenario", "Beispiel"]
  scenarioOutline := synonyms ["Szenariogrundriss", "Szenarien"]
  examples := synonyms ["Beispiele"]
  givenSteps := synonyms ["Angenommen", "Gegeben seien", "Gegeben sei"]
  whenSteps := synonyms ["Wenn"]
  thenSteps := synonyms ["Dann"]
  andSteps := synonyms ["Und"]
  butSteps := synonyms ["Aber"]

def spanish : Dialect where
  feature := synonyms ["Característica", "Necesidad del negocio", "Requisito"]
  background := synonyms ["Antecedentes"]
  scenario := synonyms ["Escenario", "Ejemplo"]
  scenarioOutline := synonyms ["Esquema del escenario"]
  examples := synonyms ["Ejemplos"]
  givenSteps := synonyms ["Dado", "Dada", "Dados", "Dadas"]
  whenSteps := synonyms ["Cuando"]
  thenSteps := synonyms ["Entonces"]
  andSteps := synonyms ["Y", "E"]
  butSteps := synonyms ["Pero"]

end Dialect

/-- The table of the standard dialects. -/
def DialectTable.standard : DialectTable :=
  (((single "en" Dialect.english).insert "fr" Dialect.french).insert "de" Dialect.german).insert
    "es" Dialect.spanish

end Gherkin
