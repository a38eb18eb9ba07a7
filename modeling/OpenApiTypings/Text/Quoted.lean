/-!
# Names and string literals of the declaration language

A property key is written bare when it is an identifier and as a double-quoted
literal otherwise; every other text of a document reaches the declarations only
inside a double-quoted literal.  Quotes, backslashes and control characters are
escaped, everything else stands for itself.
-/

namespace OpenApiTypings.Text

/-! ### Identifiers -/

/-- A character that may begin an identifier: an ASCII letter, `_` or `$`. -/
def isIdentStart (c : Char) : Bool :=
  c.isAlpha || c = '_' || c = '$'

def isIdentPart (c : Char) : Bool :=
  c.isAlphanum || c = '_' || c = '$'

/-- True when a name can be written bare.  Only ASCII identifiers are written
bare, although the target language admits more. -/
def isIdentifier (name : String) : Bool :=
  match name.toList with
  | [] => false
  | c :: rest => isIdentStart c && rest.all isIdentPart

/-! ### Literals -/

/-- Control characters: the blocks C0 and C1, and the delete character. -/
def isControl (c : Char) : Bool :=
  c.toNat < 0x20 || (0x7F ≤ c.toNat && c.toNat ≤ 0x9F)

def hexDigit (n : Nat) : Char :=
  if n < 10 then Char.ofNat (0x30 + n) else Char.ofNat (0x61 + (n - 10))

/-- The last four hexadecimal digits of a number. -/
def hex4 (n : Nat) : List Char :=
  [hexDigit (n / 4096 % 16), hexDigit (n / 256 % 16), hexDigit (n / 16 % 16),
    hexDigit (n % 16)]

def escapeChar (c : Char) : List Char :=
  if c = '\\' then ['\\', '\\']
  else if c = '"' then ['\\', '"']
  else if c = '\n' then ['\\', 'n']
  else if c = '\r' then ['\\', 'r']
  else if c = '\t' then ['\\', 't']
  else if isControl c then '\\' :: 'u' :: hex4 c.toNat
  else [c]

def escape (s : String) : String :=
  String.ofList (s.toList.flatMap escapeChar)

def quote (s : String) : String :=
  "\"" ++ escape s ++ "\""

/-- A property key: bare when it is an identifier, quoted otherwise. -/
def propertyKey (name : String) : String :=
  if isIdentifier name then name else quote name

end OpenApiTypings.Text
