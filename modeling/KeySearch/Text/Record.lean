/-! The written form of structured values, for people to read: a name, then the fields in braces as
`field: value`, separated by commas. A record that keeps fields to itself ends in two dots. -/

namespace KeySearch.Text.Record

def fields (fs : List (String × String)) : String :=
  ", ".intercalate (fs.map fun (name, value) => name ++ ": " ++ value)

/-- A record with all its fields. -/
def render (name : String) (fs : List (String × String)) : String :=
  name ++ " \x7b " ++ fields fs ++ " \x7d"

/-- A record of which some fields are not shown. -/
def renderPartly (name : String) (fs : List (String × String)) : String :=
  name ++ " \x7b " ++ fields fs ++ ", .. \x7d"

/-- A value with a name before it, as in `Some(3)`. -/
def wrap (name value : String) : String := name ++ "(" ++ value ++ ")"

/-- A value that may be absent: `None`, or `Some` around its text. -/
def optional {α : Type} (text : α → String) : Option α → String
  | none => "None"
  | some a => wrap "Some" (text a)

end KeySearch.Text.Record
