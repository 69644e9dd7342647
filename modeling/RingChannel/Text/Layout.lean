/-!
# Record text

A value is shown in two forms: on one line, `Name { field: value, … }`, and spread over several, one
field a line, four spaces deep, with a trailing comma. A nested value is spread inside a spread one.
A record that keeps some of its fields to itself ends in two dots.
-/

namespace RingChannel.Text

/-- The text of a value in its two forms. The spread form is a list of lines, of which the first
follows the label of the field that holds the value. -/
structure Layout where
  inline : String
  lines : List String
  deriving DecidableEq, Repr

namespace Layout

/-- A value of one word, the same in both forms. -/
def word (text : String) : Layout :=
  ⟨text, [text]⟩

/-- Put a comma behind the last line. -/
def closeField : List String → List String
  | [] => []
  | [line] => [line ++ ","]
  | line :: rest => line :: closeField rest

/-- The lines of one field inside a spread record. -/
def fieldLines (label : String) (value : Layout) : List String :=
  match value.lines with
  | [] => []
  | first :: rest => (closeField ((label ++ ": " ++ first) :: rest)).map ("    " ++ ·)

/-- A record with its fields in order; `complete` says that none is left out. -/
def record (name : String) (fields : List (String × Layout)) (complete : Bool) : Layout :=
  let shown := fields.map fun (label, value) => label ++ ": " ++ value.inline
  let omitted := if complete then [] else [".."]
  { inline := name ++ " \x7b " ++ ", ".intercalate (shown ++ omitted) ++ " \x7d"
    lines := (name ++ " \x7b") ::
      (fields.flatMap (fun (label, value) => fieldLines label value) ++
        omitted.map ("    " ++ ·) ++ ["\x7d"]) }

def spread (layout : Layout) : String :=
  "\n".intercalate layout.lines

def number (n : Nat) : Layout :=
  word (Nat.repr n)

end Layout

end RingChannel.Text
