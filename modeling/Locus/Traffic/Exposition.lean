import Mathlib.Data.List.Basic

/-!
# Writing an exposition

The admission controller reports its counters in the format of Prometheus, one sample a line.
Values of labels are escaped by three replacements, one after the other.
-/

namespace Locus.Traffic

/-- `str::replace` of a character -/
def replaceChar (text : List Char) (c : Char) (replacement : List Char) : List Char :=
  text.flatMap fun d => if d = c then replacement else [d]

/-- `escape_label` -/
def escapeLabel (value : List Char) : List Char :=
  replaceChar (replaceChar (replaceChar value '\\' ['\\', '\\']) '\n' ['\\', 'n']) '"' ['\\', '"']

/-- One label of a sample. -/
def labelText (label : String × String) : List Char :=
  label.1.toList ++ '=' :: '"' :: escapeLabel label.2.toList ++ ['"']

/-- `metric_float_line`, with how a value is displayed. -/
def metricFloatLine {V : Type} (display : V → List Char) (output : List Char) (name : String)
    (labels : List (String × String)) (value : V) : List Char :=
  output ++ (name.toList ++ '{' :: [','].intercalate (labels.map labelText) ++ '}' :: ' ' ::
    display value ++ ['\n'])

/-- What an escaped character becomes. -/
def escapeChar (c : Char) : List Char :=
  if c = '\\' then ['\\', '\\']
  else if c = '\n' then ['\\', 'n']
  else if c = '"' then ['\\', '"']
  else [c]

/-- The replacements do not meddle with each other: every character is escaped once. -/
theorem escapeLabel_eq (value : List Char) : escapeLabel value = value.flatMap escapeChar := by
  simp only [escapeLabel, replaceChar, List.flatMap_assoc]
  congr 1
  funext c
  unfold escapeChar
  split_ifs <;> simp_all

@[simp] theorem escapeLabel_nil : escapeLabel [] = [] :=
  rfl

@[simp] theorem escapeLabel_cons (c : Char) (value : List Char) :
    escapeLabel (c :: value) = escapeChar c ++ escapeLabel value := by
  simp [escapeLabel_eq]

end Locus.Traffic
