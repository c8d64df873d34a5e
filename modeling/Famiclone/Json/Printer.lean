/-!
# Writing JSON text

A value is written either without blanks or over several lines, indented by two blanks for each
level. Strings hold no characters that need an escape.
-/
namespace Famiclone.Json

inductive Value where
  | null
  | bool (b : Bool)
  /-- A number by its text. -/
  | number (text : String)
  | string (text : String)
  | object (members : List (String × Value))

def quote (text : String) : String := "\"" ++ text ++ "\""

/-- A value without parts. -/
def Value.atom : Value → String
  | null => "null"
  | bool b => toString b
  | number text => text
  | string text => quote text
  | object _ => ""

mutual

/-- A value without blanks. -/
def Value.compact : Value → String
  | .object members => "\x7b" ++ ",".intercalate (compactMembers members) ++ "\x7d"
  | v => v.atom

def compactMembers : List (String × Value) → List String
  | [] => []
  | (name, v) :: rest => (quote name ++ ":" ++ v.compact) :: compactMembers rest

end

/-- The start of a line at a level. -/
def indentation (level : Nat) : String := "\n".pushn ' ' (2 * level)

mutual

/-- A value over several lines; its first line is not indented. -/
def Value.pretty (level : Nat) : Value → String
  | .object [] => "\x7b\x7d"
  | .object members =>
    "\x7b" ++ ",".intercalate (prettyMembers (level + 1) members) ++ indentation level ++ "\x7d"
  | v => v.atom

def prettyMembers (level : Nat) : List (String × Value) → List String
  | [] => []
  | (name, v) :: rest =>
    (indentation level ++ quote name ++ ": " ++ v.pretty level) :: prettyMembers level rest

end

end Famiclone.Json
