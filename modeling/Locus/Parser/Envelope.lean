import Locus.Parser.Definition
import Std.Data.TreeMap

/-!
# Tool call envelopes

JSON is read and written by a library outside the repository. What the parsers use of it
is collected in `Serde`, and nothing is assumed of it.
-/

namespace Locus.Parser

open Std (TreeMap)

/-- What is used of `serde_json`. -/
structure Serde where
  /-- `Value` -/
  Value : Type
  /-- `from_str::<Value>`, with the text of its error -/
  fromStr : Text → Except String Value
  /-- `Value::Object` -/
  asObject : Value → Option (TreeMap String Value)
  /-- `Value::as_str` -/
  asStr : Value → Option String
  /-- `to_string` -/
  toText : Value → Text

/-- The text is a JSON object. -/
def Serde.IsObject (serde : Serde) (text : Text) : Prop :=
  ∃ value object, serde.fromStr text = .ok value ∧ serde.asObject value = some object

/-- `parse_tool_envelope`: the name and the normalized arguments of a call. -/
def parseToolEnvelope (serde : Serde) (input : Text) : Except ParserError (String × Text) :=
  match serde.fromStr input with
  | .error error => .error (.processing (.invalidToolJson error))
  | .ok value =>
    match serde.asObject value with
    | none => .error (.processing .toolEnvelopeNotObject)
    | some object =>
      if h : object.size = 2 ∧ "name" ∈ object ∧ "arguments" ∈ object then
        match (serde.asStr (object.get "name" h.2.1)).filter fun name => name ≠ "" with
        | none => .error (.processing .toolNameNotString)
        | some name =>
          let arguments := object.get "arguments" h.2.2
          if (serde.asObject arguments).isSome then .ok (name, serde.toText arguments)
          else .error (.processing .toolArgumentsNotObject)
      else .error (.processing .toolEnvelopeKeys)

/-- The JSON values of one call. -/
inductive SampleValue
  | envelope
  | name
  | arguments

/-- The envelope of a call without arguments. -/
def sampleEnvelope : Text := "\x7b\"name\":\"f\",\"arguments\":\x7b\x7d\x7d".toList

/-- The arguments of that call. -/
def sampleArguments : Text := "\x7b\x7d".toList

/-- JSON as far as that call needs it. -/
def sampleSerde : Serde where
  Value := SampleValue
  fromStr text :=
    if text = sampleEnvelope then .ok .envelope
    else if text = sampleArguments then .ok .arguments
    else .error "expected value"
  asObject value :=
    match value with
    | .envelope => some (((∅ : TreeMap String SampleValue).insert "name" .name).insert
        "arguments" .arguments)
    | .arguments => some ∅
    | .name => none
  asStr value :=
    match value with
    | .name => some "f"
    | _ => none
  toText value :=
    match value with
    | .envelope => sampleEnvelope
    | .name => "\"f\"".toList
    | .arguments => sampleArguments

/-- The sample call is read from its envelope. -/
theorem parseToolEnvelope_sample :
    parseToolEnvelope sampleSerde sampleEnvelope = .ok ("f", sampleArguments) := by
  rfl

end Locus.Parser
