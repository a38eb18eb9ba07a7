import OpenApiTypings.Text.CaseMapping

/-!
# Naming hints and the words in them

While a schema is compiled, a *hint* records the way from the top of the document
to the place at hand: `User`, `User_role`, `get_Response_200_Media_text_plain`.
An extracted enum is named after its hint.  The name is built from the words of
the hint, in Pascal case, without the words that only tell how the schema is
built (`allOf`, `item`, `properties`, …).
-/

namespace OpenApiTypings.Text

/-! ### Hints -/

/-- Extends a hint by one segment; an empty side is skipped. -/
def joinHint (base part : String) : String :=
  if part.isEmpty then base
  else if base.isEmpty then part
  else base ++ "_" ++ part

/-- Replaces every character that no identifier can hold by `_`, and puts `_` in
front of a leading digit. -/
def sanitize (s : String) : String :=
  let keep (c : Char) : Char :=
    if c.isAlphanum || c = '_' || c = '$' then c else '_'
  match s.toList with
  | [] => ""
  | c :: rest =>
      let body := String.ofList ((c :: rest).map keep)
      if c.isDigit then "_" ++ body else body

/-- The hint segment of a media type, as in `Media_application_json`. -/
def mediaTypeSegment (mediaType : String) : String :=
  if mediaType.isEmpty then "" else "Media_" ++ sanitize mediaType

/-! ### Words -/

/-- A word ends between a lower-case and an upper-case letter, and between a digit
and a character that is none. -/
def isWordBoundary (previous current : Char) : Bool :=
  (previous.isLower && current.isUpper) || (previous.isDigit != current.isDigit)

/-- Cuts a token at its word boundaries.  A non-empty token gives non-empty
words, and the empty token gives one empty word. -/
def splitToken : List Char → List (List Char)
  | [] => [[]]
  | [c] => [[c]]
  | c :: d :: rest =>
      match splitToken (d :: rest) with
      | [] => [[c]]
      | word :: more =>
          if isWordBoundary c d then [c] :: word :: more else (c :: word) :: more

/-- Maximal runs of ASCII letters and digits, with an empty run wherever two other
characters meet. -/
def tokens (text : List Char) : List (List Char) :=
  text.foldr
    (fun c acc =>
      if c.isAlphanum then
        match acc with
        | [] => [[c]]
        | token :: more => (c :: token) :: more
      else [] :: acc)
    [[]]

/-- The words, in lower case, that tell only how a schema is put together. -/
def structuralWords : List String :=
  ["allof", "anyof", "oneof", "of", "item", "media", "additional", "properties",
    "response", "requestbody"]

/-- The combinator words that may carry a number, as in `OneOf2`. -/
def numberedWords : List String :=
  ["allof", "anyof", "oneof", "of"]

/-- True when `word` is `head` followed by at least one digit and nothing else. -/
def isNumbered (word head : List Char) : Bool :=
  match head, word with
  | [], rest => !rest.isEmpty && rest.all Char.isDigit
  | _ :: _, [] => false
  | h :: hs, w :: ws => h = w && isNumbered ws hs

/-- A word that says nothing about the data: the empty word, a structural word, or
a numbered combinator word.  Case does not matter. -/
def isStructural (word : List Char) : Bool :=
  word.isEmpty ||
    structuralWords.any (fun w => w.toList = word.map Char.toLower) ||
    numberedWords.any (fun w => isNumbered (word.map Char.toLower) w.toList)

/-- The words of a hint.  Structural words are dropped before a token is cut, so
that `OneOf2` goes as a whole, and once more after that. -/
def words (hint : String) : List (List Char) :=
  (((tokens hint.toList).filter (!isStructural ·)).flatMap splitToken).filter
    (!isStructural ·)

def capitalize : List Char → List Char
  | [] => []
  | c :: rest => upperMapping c ++ rest.flatMap lowerMapping

/-- The Pascal-case name of a hint: `UserRole` for `User_OneOf1_role`. -/
def pascalCase (hint : String) : String :=
  String.ofList ((words hint).flatMap capitalize)

end OpenApiTypings.Text
