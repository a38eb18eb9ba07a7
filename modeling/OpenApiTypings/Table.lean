/-!
# Tables with text keys

The mappings of a document are lists of entries.  A reader gives them in the order
of its source; nothing that is generated depends on that order, because every
mapping is walked in the order of its keys (by code point, as `String` is ordered).
`insert` keeps a sorted table sorted and its keys distinct, and `sorted` brings any
table into that form, the last entry of a key winning.
-/

namespace OpenApiTypings

/-- Entries with text keys, in the order they were given. -/
abbrev Table (α : Type) := List (String × α)

namespace Table

/-- The value of the first entry with the key. -/
def get? (table : Table α) (key : String) : Option α :=
  List.lookup key table

def keys (table : Table α) : List String :=
  table.map Prod.fst

section Ordered

variable {κ α : Type} [LT κ] [DecidableLT κ] [DecidableEq κ]

/-- Sets the value of a key in a list of entries that is sorted by key. -/
def insert (key : κ) (value : α) : List (κ × α) → List (κ × α)
  | [] => [(key, value)]
  | (k, v) :: rest =>
      if key < k then (key, value) :: (k, v) :: rest
      else if key = k then (key, value) :: rest
      else (k, v) :: insert key value rest

/-- Like `insert`, but an entry that is already there is kept. -/
def insertNew (key : κ) (value : α) : List (κ × α) → List (κ × α)
  | [] => [(key, value)]
  | (k, v) :: rest =>
      if key < k then (key, value) :: (k, v) :: rest
      else if key = k then (k, v) :: rest
      else (k, v) :: insertNew key value rest

/-- The entries sorted by key; the last entry of a key wins. -/
def sorted (entries : List (κ × α)) : List (κ × α) :=
  entries.foldr (fun entry acc => insertNew entry.1 entry.2 acc) []

end Ordered

end Table

end OpenApiTypings
