import Locus.Lib.Lines
import Locus.Lib.Utf8
import Locus.Store.NexusKv
import Mathlib.Data.List.DropRight
import Std.Data.ExtTreeMap

/-!
# Reading an exposition

What a remote engine says about itself is a text in the format of Prometheus, one sample a line.
The reader cuts a line at the first blank outside of quotes and braces, and then reads the labels
byte by byte. How a number is read is left open.
-/

namespace Locus.Engine

open Std (ExtTreeMap)
open Locus.Lib Locus.Store

/-- One sample: a metric, its labels and its value. -/
structure PrometheusSample (Number : Type) where
  name : String
  labels : ExtTreeMap String String
  value : Number

/-- What is wrong with the metric of a line. -/
inductive MetricError
  | unterminatedLabelSet
  | emptyName
  | invalidName (name : List Char)
  | invalidLabelName
  | omittedEquals (key : String)
  | notQuoted (key : String)
  | unterminatedEscape
  | notAscii
  | unterminatedLabel (key : String)
  | duplicateLabel (key : String)
  | notSeparated
  deriving DecidableEq

/-- The text of an error, with how names are quoted. Label names need no escapes. -/
def MetricError.text (quoteName : List Char → String) : MetricError → String
  | unterminatedLabelSet => "unterminated Prometheus label set"
  | emptyName => "empty Prometheus metric name"
  | invalidName name => "invalid Prometheus metric name " ++ quoteName name
  | invalidLabelName => "invalid Prometheus label name"
  | omittedEquals key => "Prometheus label \"" ++ key ++ "\" omitted '='"
  | notQuoted key => "Prometheus label \"" ++ key ++ "\" is not quoted"
  | unterminatedEscape => "unterminated Prometheus label escape"
  | notAscii => "Prometheus labels must be UTF-8 ASCII escapes"
  | unterminatedLabel key => "unterminated Prometheus label \"" ++ key ++ "\""
  | duplicateLabel key => "duplicate Prometheus label \"" ++ key ++ "\""
  | notSeparated => "Prometheus labels must be comma separated"

/-- Why an exposition is refused. Lines are counted from one. -/
inductive PrometheusError
  | tooManySamples (maxSamples : ℕ)
  | invalidSample (line : ℕ)
  | missingValue (line : ℕ)
  | invalidValue (line : ℕ)
  | metric (error : MetricError) (line : ℕ)
  deriving DecidableEq

def PrometheusError.text (quoteName : List Char → String) : PrometheusError → String
  | tooManySamples maxSamples =>
    "Prometheus response exceeds the " ++ toString maxSamples ++ "-sample limit"
  | invalidSample line => "invalid Prometheus sample on line " ++ toString line
  | missingValue line => "missing Prometheus value on line " ++ toString line
  | invalidValue line => "invalid Prometheus value on line " ++ toString line
  | metric error line => error.text quoteName ++ " on line " ++ toString line

section Texts

/-- `str::trim_start` -/
def trimStart (text : List Char) : List Char := text.dropWhile isWhitespace

/-- `str::trim` -/
def trim (text : List Char) : List Char := (trimStart text).rdropWhile isWhitespace

/-- `is_ascii_whitespace`, of the number of a character or of a byte -/
def isAsciiWhitespace (n : ℕ) : Bool := n ∈ [9, 10, 12, 13, 32]

/-- `split_ascii_whitespace().next()` -/
def firstWord (text : List Char) : Option (List Char) :=
  let word := (text.dropWhile fun c => isAsciiWhitespace c.toNat).takeWhile fun c =>
    !isAsciiWhitespace c.toNat
  if word = [] then none else some word

end Texts

section Metrics

/-- The scan of `split_metric_and_value`: the metric up to the first blank outside of quotes and
braces, and the rest of the line. -/
def scanMetric (quoted escaped : Bool) (braces : UInt32) :
    List Char → Option (List Char × List Char)
  | [] => none
  | c :: rest =>
    let next (quoted escaped : Bool) (braces : UInt32) :=
      (scanMetric quoted escaped braces rest).map fun (metric, remainder) =>
        (c :: metric, remainder)
    if escaped then next quoted false braces
    else if quoted && c == '\\' then next quoted true braces
    else if c == '"' then next (!quoted) false braces
    else if quoted then next quoted false braces
    else if c == '{' then next quoted false (if braces = 4294967295 then braces else braces + 1)
    else if c == '}' then next quoted false (if braces = 0 then 0 else braces - 1)
    else if isAsciiWhitespace c.toNat && braces == 0 then some ([], trimStart (c :: rest))
    else next quoted false braces

/-- `split_metric_and_value` -/
def splitMetricAndValue (line : List Char) : Option (List Char × List Char) :=
  scanMetric false false 0 line

/-- A character that a metric name may begin with. -/
def isNameStart (c : Char) : Bool := c.isAlpha || c == '_' || c == ':'

/-- A character that a metric name may hold. -/
def isNameChar (c : Char) : Bool := c.isAlphanum || c == '_' || c == ':'

/-- `validate_metric_name` -/
def validateMetricName (name : List Char) : Except MetricError Unit :=
  match name with
  | [] => .error .emptyName
  | first :: characters =>
    if !isNameStart first || characters.any fun c => !isNameChar c then .error (.invalidName name)
    else .ok ()

end Metrics

section Labels

/-- `char::from` -/
def charOfByte (byte : UInt8) : Char := Char.ofNat byte.toNat

/-- A byte that a label name may hold. -/
def isLabelByte (byte : UInt8) : Bool :=
  let c := charOfByte byte
  c.isAlphanum || c == '_'

/-- The byte of a blank. -/
def isBlankByte (byte : UInt8) : Bool := isAsciiWhitespace byte.toNat

/-- What an escaped byte stands for. -/
def unescape (byte : UInt8) : Char := if byte = 110 then '\n' else charOfByte byte

/-- The value of a label, after its opening quote, and what follows its closing quote. -/
def readValue (key : String) (value : List Char) :
    List UInt8 → Except MetricError (List Char × List UInt8)
  | [] => .error (.unterminatedLabel key)
  | byte :: rest =>
    if byte = 34 then .ok (value, rest)
    else if byte = 92 then
      match rest with
      | [] => .error .unterminatedEscape
      | escaped :: rest => readValue key (value ++ [unescape escaped]) rest
    else if byte < 128 then readValue key (value ++ [charOfByte byte]) rest
    else .error .notAscii

/-- One label, with what follows it. -/
def readLabel (bytes : List UInt8) : Except MetricError (String × String × List UInt8) :=
  let key := String.ofList ((bytes.takeWhile isLabelByte).map charOfByte)
  if bytes.takeWhile isLabelByte = [] then .error .invalidLabelName
  else
    match (bytes.dropWhile isLabelByte).dropWhile isBlankByte with
    | 61 :: rest =>
      match rest.dropWhile isBlankByte with
      | 34 :: rest =>
        match readValue key [] rest with
        | .error error => .error error
        | .ok (value, rest) => .ok (key, String.ofList value, rest)
      | _ => .error (.notQuoted key)
    | _ => .error (.omittedEquals key)

theorem length_readValue_le {key : String} {value text : List Char} {bytes rest : List UInt8}
    (h : readValue key value bytes = .ok (text, rest)) : rest.length ≤ bytes.length := by
  fun_induction readValue key value bytes with
  | case1 => cases h
  | case2 value rest =>
    cases h
    exact Nat.le_succ _
  | case3 => cases h
  | case4 value escaped bytes _ ih =>
    have hle := ih h
    simp only [List.length_cons]
    omega
  | case5 value byte bytes _ _ _ ih => exact Nat.le_succ_of_le (ih h)
  | case6 => cases h

/-- A label takes up bytes. -/
theorem length_readLabel_lt {key value : String} {bytes rest : List UInt8}
    (h : readLabel bytes = .ok (key, value, rest)) : rest.length < bytes.length := by
  have hdrop : ∀ (p : UInt8 → Bool) (bytes : List UInt8),
      (bytes.dropWhile p).length ≤ bytes.length :=
    fun p bytes => (List.dropWhile_sublist p).length_le
  unfold readLabel at h
  split_ifs at h with hkey
  split at h
  next afterEquals hequals =>
    split at h
    next afterQuote hquote =>
      dsimp only at h
      split at h
      next => cases h
      next hvalue =>
        cases h
        have hle := length_readValue_le hvalue
        have hafterQuote := hdrop isBlankByte afterEquals
        have hafterEquals := hdrop isBlankByte (bytes.dropWhile isLabelByte)
        have hafterKey := hdrop isLabelByte bytes
        rw [hquote, List.length_cons] at hafterQuote
        rw [hequals, List.length_cons] at hafterEquals
        omega
    next => cases h
  next => cases h

/-- Skip blanks and commas before a label, also more than one comma. -/
def skipSeparators (bytes : List UInt8) : List UInt8 :=
  bytes.dropWhile fun byte => isBlankByte byte || byte == 44

/-- The loop of `parse_labels`. -/
def parseLabelsFrom (labels : ExtTreeMap String String) (bytes : List UInt8) :
    Except MetricError (ExtTreeMap String String) :=
  if skipSeparators bytes = [] then .ok labels
  else
    match _hlabel : readLabel (skipSeparators bytes) with
    | .error error => .error error
    | .ok (key, value, rest) =>
      if labels.contains key then .error (.duplicateLabel key)
      else if rest.dropWhile isBlankByte ≠ [] ∧ (rest.dropWhile isBlankByte).head? ≠ some 44 then
        .error .notSeparated
      else parseLabelsFrom (labels.insert key value) (rest.dropWhile isBlankByte)
  termination_by bytes.length
  decreasing_by
    have hshorter := length_readLabel_lt _hlabel
    have hnext : (skipSeparators bytes).length ≤ bytes.length :=
      (List.dropWhile_sublist _).length_le
    have hleft : (rest.dropWhile isBlankByte).length ≤ rest.length :=
      (List.dropWhile_sublist _).length_le
    omega

/-- `parse_labels` -/
def parseLabels (input : List Char) : Except MetricError (ExtTreeMap String String) :=
  parseLabelsFrom ∅ (utf8 input)

end Labels

section Samples

/-- `parse_metric` -/
def parseMetric (metric : List Char) : Except MetricError (String × ExtTreeMap String String) :=
  if '{' ∉ metric then do
    validateMetricName metric
    .ok (String.ofList metric, ∅)
  else if metric.getLast? ≠ some '}' then .error .unterminatedLabelSet
  else do
    let name := metric.takeWhile (· ≠ '{')
    validateMetricName name
    let labels ← parseLabels (metric.drop (name.length + 1)).dropLast
    .ok (String.ofList name, labels)

variable {Number : Type}

/-- The sample of one line that is neither empty nor a comment. -/
def parseSample (parse : List Char → Option Number) (lineNumber : ℕ) (line : List Char) :
    Except PrometheusError (PrometheusSample Number) :=
  match splitMetricAndValue line with
  | none => .error (.invalidSample lineNumber)
  | some (metric, remainder) =>
    match firstWord remainder with
    | none => .error (.missingValue lineNumber)
    | some valueText =>
      match parse valueText with
      | none => .error (.invalidValue lineNumber)
      | some value =>
        match parseMetric metric with
        | .error error => .error (.metric error lineNumber)
        | .ok (name, labels) => .ok ⟨name, labels, value⟩

/-- The loop of `parse_prometheus`, from the line with this index on. -/
def parseLines (parse : List Char → Option Number) (maxSamples : ℕ) (index : ℕ)
    (samples : List (PrometheusSample Number)) :
    List (List Char) → Except PrometheusError (List (PrometheusSample Number))
  | [] => .ok samples
  | rawLine :: rest =>
    let line := trim rawLine
    if line = [] ∨ line.head? = some '#' then parseLines parse maxSamples (index + 1) samples rest
    else if maxSamples ≤ samples.length then .error (.tooManySamples maxSamples)
    else do
      let sample ← parseSample parse (index + 1) line
      parseLines parse maxSamples (index + 1) (samples ++ [sample]) rest

/-- `parse_prometheus` -/
def parsePrometheus (parse : List Char → Option Number) (input : List Char) (maxSamples : ℕ) :
    Except PrometheusError (List (PrometheusSample Number)) :=
  parseLines parse maxSamples 0 [] (lines input)

end Samples

end Locus.Engine
