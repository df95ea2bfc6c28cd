namespace Scriptlet.Text

/-- What the character behind a backslash stands for. -/
def escaped? : Char → Option Char
  | 'n' => some '\n'
  | 't' => some '\t'
  | 'r' => some '\r'
  | '0' => some '\x00'
  | '\\' => some '\\'
  | '"' => some '"'
  | '\'' => some '\''
  | _ => none

/-- Decodes backslash pairs; a pair that stands for nothing, and a backslash at the end, stay as
they are. -/
def decode : List Char → List Char
  | [] => []
  | '\\' :: c :: rest =>
    match escaped? c with
    | some d => d :: decode rest
    | none => '\\' :: c :: decode rest
  | c :: rest => c :: decode rest

/-- What stands between the quotes; a text without both quotes is kept whole. -/
def unquote (cs : List Char) : List Char :=
  match cs with
  | '"' :: rest => if rest.getLast? = some '"' then rest.dropLast else cs
  | _ => cs

def unescape (lexeme : String) : String :=
  String.ofList (decode (unquote lexeme.toList))

end Scriptlet.Text
