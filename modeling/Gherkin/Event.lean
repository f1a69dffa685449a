import Gherkin.Text.Basic

/-!
# Events

Reading is lenient: what has no place is left out, and every such decision is
reported as an event.  An event is a cause with its data; how it is shown, under
which level, with which words and fields, is decided by `record` alone.
-/

namespace Gherkin

/-- What a run reports. -/
inductive Event where
  /-- The lines of a document are about to be read. -/
  | tokenizeSpan
  /-- Trees are about to be built from this many tokens. -/
  | buildSpan (tokens : Nat)
  /-- The document has this locale and this many lines. -/
  | tokenizing (locale : Text) (lines : Nat)
  /-- A line has no meaning where it stands. -/
  | ignoredLine (line : Nat)
  /-- A text block was never closed. -/
  | unclosedBlock (line : Nat)
  /-- Tokens stand before the first feature. -/
  | tokensOutsideFeature (tokens : Nat)
  /-- Tags stand behind everything else. -/
  | tagsWithoutFeature (tags : Nat)
  /-- Tags stand behind the last node of a feature that could bear them. -/
  | tagsWithoutNode (tags : Nat)
  | descriptionWithoutFeature (line : Nat)
  | containerWithoutFeature
  /-- A feature has another background, whose name is given. -/
  | replacedBackground (name : Text)
  | examplesOutsideOutline (line : Nat)
  | stepWithoutContainer (line : Nat)
  | rowWithoutExamples (line : Nat)
  /-- A row belongs to examples that were left out themselves. -/
  | rowOfDiscardedExamples (line : Nat)
  | rowWithoutStep (line : Nat)
  | blockWithoutStep (line : Nat)
deriving DecidableEq, Repr

/-- The value of a field of an event. -/
inductive EventField where
  | number (n : Nat)
  | text (t : Text)
deriving DecidableEq, Repr

/-- How loud an event is. -/
inductive EventLevel where
  | trace
  | debug
deriving DecidableEq, Repr

/-- An event as it is shown: the start of a stage, or a message. -/
inductive EventRecord where
  | span (name : String) (fields : List (String × EventField))
  | message (level : EventLevel) (text : String) (fields : List (String × EventField))
deriving DecidableEq, Repr

namespace Event

/-- How an event is shown. -/
def record : Event → EventRecord
  | tokenizeSpan => .span "tokenize" []
  | buildSpan n => .span "build" [("tokens", .number n)]
  | tokenizing locale lines =>
    .message .debug "tokenizing document" [("locale", .text locale), ("lines", .number lines)]
  | ignoredLine n => .message .trace "ignoring unrecognised line" [("line", .number n)]
  | unclosedBlock n => .message .debug "dropping unclosed multiline block" [("line", .number n)]
  | tokensOutsideFeature n =>
    .message .debug "dropping tokens outside any feature" [("tokens", .number n)]
  | tagsWithoutFeature n =>
    .message .debug "dropping tags with no following feature" [("tags", .number n)]
  | tagsWithoutNode n =>
    .message .debug "dropping tags with no following node" [("tags", .number n)]
  | descriptionWithoutFeature n =>
    .message .debug "dropping description without feature" [("line", .number n)]
  | containerWithoutFeature => .message .debug "dropping container without feature" []
  | replacedBackground name =>
    .message .debug "replacing earlier background" [("name", .text name)]
  | examplesOutsideOutline n =>
    .message .debug "dropping examples outside a scenario outline" [("line", .number n)]
  | stepWithoutContainer n =>
    .message .debug "dropping step without container" [("line", .number n)]
  | rowWithoutExamples n =>
    .message .debug "dropping row without examples" [("line", .number n)]
  | rowOfDiscardedExamples n =>
    .message .debug "dropping row of discarded examples" [("line", .number n)]
  | rowWithoutStep n => .message .debug "dropping row without step" [("line", .number n)]
  | blockWithoutStep n =>
    .message .debug "dropping multiline block without step" [("line", .number n)]

end Event

end Gherkin
