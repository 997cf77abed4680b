/-!
# Records as text

How records, optional values and dictionaries are written out for a reader who wants to see
everything that is in them.

## Main definitions

* `Regroup.Text.record` — `Name { field: value, … }`.
* `Regroup.Text.optional` — `Some(value)` or `None`.
* `Regroup.Text.dictionary` — `{key: value, …}`.
-/

namespace Regroup.Text

/-- A named record with its fields in order. An open record ends in `..`, which says that it has
more fields than are shown. -/
def record (name : String) (fields : List (String × String)) (isOpen : Bool) : String :=
  let shown := fields.map (fun f => f.1 ++ ": " ++ f.2) ++ (if isOpen then [".."] else [])
  match shown with
  | [] => name
  | _ => name ++ " \x7b " ++ ", ".intercalate shown ++ " \x7d"

/-- A value that may be missing. -/
def optional {α : Type} (render : α → String) : Option α → String
  | some a => "Some(" ++ render a ++ ")"
  | none => "None"

/-- A dictionary with its entries in order. -/
def dictionary (entries : List (String × String)) : String :=
  "\x7b" ++ ", ".intercalate (entries.map fun e => e.1 ++ ": " ++ e.2) ++ "\x7d"

/-- A truth value. -/
def truth (b : Bool) : String := if b then "true" else "false"

end Regroup.Text
