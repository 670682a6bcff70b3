import CoreLocator.Text.Hidden

/-! Inspection texts: strings in quotes, and records as name and labelled fields. A quoted text
stays on one line and shows each of its characters. -/
namespace CoreLocator.Text

def quotedChar (c : Char) : List Char :=
  match c with
  | '\x00' => ['\\', '0']
  | '\t' => ['\\', 't']
  | '\r' => ['\\', 'r']
  | '\n' => ['\\', 'n']
  | '"' => ['\\', '"']
  | '\\' => ['\\', '\\']
  | c => if isHidden c then ['\\', 'u', '\x7b'] ++ Nat.toDigits 16 c.toNat ++ ['\x7d'] else [c]

def quoted (s : String) : String :=
  String.ofList ('"' :: s.toList.flatMap quotedChar ++ ['"'])

/-- An optional value with its text. -/
def optional : Option String → String
  | none => "None"
  | some text => s!"Some({text})"

/-- A record with its fields in order; `partly` says that some are left out. -/
def record (name : String) (fields : List (String × String)) (partly : Bool := false) : String :=
  let labelled := fields.map fun (label, text) => s!"{label}: {text}"
  let shown := ", ".intercalate (if partly then labelled ++ [".."] else labelled)
  s!"{name} \x7b {shown} \x7d"

end CoreLocator.Text
