/-!
# Record notation

Diagnostics show a value as its name followed by its fields in braces, in
declaration order: a timestamp reads as `Timestamp`, then `unix_secs: 7` and
`micros: 0` between braces. This module holds that one notation, so that
every value that is shown this way agrees on blanks, commas and the form of
an optional field.
-/

namespace StoreForward.Text

/-- One field of a record: its label and the text of its value. -/
abbrev Field := String × String

/-- A field as it is written, label first. -/
def field (label value : String) : String := label ++ ": " ++ value

/-- A record: its name, then the fields in order between braces. -/
def record (name : String) (fields : List Field) : String :=
  name ++ " \x7b " ++ ", ".intercalate (fields.map fun f => field f.1 f.2) ++ " \x7d"

/-- A value in round brackets after the name of its wrapper. -/
def wrapped (name value : String) : String := name ++ "(" ++ value ++ ")"

/-- A truth value in lower case. -/
def flag (b : Bool) : String := if b then "true" else "false"

/-- A 32-bit count in decimal. -/
def count (n : UInt32) : String := toString n.toNat

/-- An optional value: `None`, or the text of the value inside `Some(…)`. -/
def optional : Option String → String
  | none => "None"
  | some text => wrapped "Some" text

end StoreForward.Text
