import ClaimPolicy.Document.Reading

/-!
TOML values. A table remembers how it came about, since that decides who may still add to it: a
table under a header of its own and an inline table are complete, a table that was only named on the
way to another one may still get its header, and a table made by a dotted key may get further dotted
keys.
-/
namespace ClaimPolicy.Toml

inductive Origin where
  | header
  | implied
  | dotted
  | inline
  deriving DecidableEq, Repr

inductive Value where
  | text (value : String)
  | boolean (value : Bool)
  | number
  | moment
  | list (items : List Value)
  | table (origin : Origin) (entries : List (String × Value))
  /-- Tables under repeated headers; the last one is the one that is still written to. -/
  | tables (elements : List Value)

abbrev Entries := List (String × Value)

def put (entries : Entries) (key : String) (value : Value) : Entries :=
  entries.filter (fun entry => entry.1 != key) ++ [(key, value)]

/-- Changes the table at the end of a path, making the tables on the way that do not exist yet.
A path of dotted keys does not enter a table that has a header, and no path enters a plain value. -/
def changeAt (byDots : Bool) (change : Origin → Entries → Option Entries) :
    List String → Origin → Entries → Option Entries
  | [], origin, entries => change origin entries
  | key :: path, _, entries =>
      match entries.lookup key with
      | none => do
          let origin := if byDots then Origin.dotted else .implied
          let inner ← changeAt byDots change path origin []
          return put entries key (.table origin inner)
      | some (.table origin inner) =>
          if origin = .inline ∨ (byDots = true ∧ origin = .header) then none
          else do
            let inner ← changeAt byDots change path origin inner
            return put entries key (.table origin inner)
      | some (.tables elements) =>
          match elements.getLast? with
          | some (.table origin inner) => do
              let inner ← changeAt byDots change path origin inner
              return put entries key (.tables (elements.dropLast ++ [.table origin inner]))
          | _ => none
      | some _ => none

/-- Adds a key under a path of dotted keys. No key is set twice, and dotted keys add only to tables
that dotted keys have made. -/
def insert (path : List String) (key : String) (value : Value) (origin : Origin)
    (entries : Entries) : Option Entries :=
  changeAt true (fun origin entries =>
    if (origin == .dotted) == path.isEmpty then none
    else if (entries.lookup key).isSome then none
    else some (put entries key value)) path origin entries

/-- A header: the table is new, or was only named on the way to another table. -/
def openTable (key : String) (_ : Origin) (entries : Entries) : Option Entries :=
  match entries.lookup key with
  | none => some (put entries key (.table .header []))
  | some (.table .implied inner) => some (put entries key (.table .header inner))
  | some _ => none

/-- A repeated header: one more table under the same key. -/
def openElement (key : String) (_ : Origin) (entries : Entries) : Option Entries :=
  match entries.lookup key with
  | none => some (put entries key (.tables [.table .header []]))
  | some (.tables elements) => some (put entries key (.tables (elements ++ [.table .header []])))
  | some _ => none

namespace Value

def asBoolean? : Value → Option Bool
  | .boolean value => some value
  | _ => none

def asText? : Value → Option String
  | .text value => some value
  | _ => none

def asItems? : Value → Option (List Value)
  | .list items => some items
  | .tables elements => some elements
  | _ => none

/-- A list may stand for a structure; what it has beyond the known fields is passed over. -/
def asFields? (names : List String) : Value → Option (List (String × Value))
  | .table _ entries => some entries
  | .list items => some (names.zip items)
  | .tables elements => some (names.zip elements)
  | _ => none

def reading : Reading Value := ⟨asBoolean?, asText?, asItems?, asFields?⟩

end Value

end ClaimPolicy.Toml
