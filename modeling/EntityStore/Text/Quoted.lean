import EntityStore.Text.Digits
import EntityStore.Text.Unprinted

/-!
# Quoted text

How a text stands inside the description of a value: between double quotes, with a backslash
before a quote or a backslash, short names for the common controls, and the code point in braces
for everything else that has no form of its own (`isUnprinted`).
-/

namespace EntityStore.Text

/-- A code point by its number. -/
def byNumber (c : Char) : List Char := "\\u\x7b".toList ++ toLowerHex c.toNat ++ ['}']

/-- One character of quoted text. -/
def quoteChar (c : Char) : List Char :=
  match c with
  | '"' => ['\\', '"']
  | '\\' => ['\\', '\\']
  | '\n' => ['\\', 'n']
  | '\r' => ['\\', 'r']
  | '\t' => ['\\', 't']
  | '\x00' => ['\\', '0']
  | c => if isUnprinted c.toNat then byNumber c else [c]

/-- A text between quotes. -/
def quoted (s : String) : String := String.ofList ('"' :: s.toList.flatMap quoteChar ++ ['"'])

/-- A list of described values. -/
def listed (items : List String) : String := "[" ++ ", ".intercalate items ++ "]"

/-- A described optional value. -/
def describedOption (item : Option String) : String :=
  match item with
  | none => "None"
  | some text => "Some(" ++ text ++ ")"

/-- A described record: its name and its described fields, and whether more fields are left out. -/
def described (name : String) (fields : List (String × String)) (more : Bool) : String :=
  let written := fields.map fun (field, text) => field ++ ": " ++ text
  name ++ " \x7b " ++ ", ".intercalate (if more then written ++ [".."] else written) ++ " \x7d"

end EntityStore.Text
