/-! TOML values, and the rules by which headers and dotted keys build up tables: no key
is given twice, and no finished table is taken up again. -/

namespace Wireframe

/-- How a table came to be: written in braces, by a header of its own, by a longer
header, or by a dotted key. -/
inductive TableOrigin
  | inline
  | header
  | implied
  | dotted
  deriving Repr, DecidableEq

inductive Toml
  | string (text : String)
  | integer (value : Int)
  | float (written : String)
  | boolean (value : Bool)
  | datetime (text : String)
  | array (items : List Toml)
  | table (origin : TableOrigin) (entries : List (String × Toml))
  | tables (items : List Toml)
  deriving Repr, Inhabited

namespace Toml

abbrev Entries := List (String × Toml)

/-- Changes the value of a key, or gives it one. -/
def alter? (key : String) (change : Option Toml → Option Toml) : Entries → Option Entries
  | [] => (change none).map fun value => [(key, value)]
  | (other, value) :: rest =>
      if other = key then (change (some value)).map fun value => (other, value) :: rest
      else (alter? key change rest).map ((other, value) :: ·)

/-- Changes the entries of the last of several tables. -/
def alterLast? (change : Entries → Option Entries) : List Toml → Option (List Toml)
  | [] => none
  | [.table origin entries] => (change entries).map fun entries => [.table origin entries]
  | item :: rest => (alterLast? change rest).map (item :: ·)

/-- Gives a value to a key that has none. -/
def add? (key : String) (value : Toml) : Entries → Option Entries :=
  alter? key fun
    | none => some value
    | some _ => none

/-- Gives a value to a dotted key. The tables on the way may have been made by dotted
keys or implied by headers, but the innermost by dotted keys alone. -/
def put? (path : List String) (key : String) (value : Toml) (entries : Entries) :
    Option Entries :=
  match path with
  | [] => add? key value entries
  | first :: rest =>
      entries |> alter? first fun
        | none => (put? rest key value []).map (.table .dotted)
        | some (.table .dotted inner) => (put? rest key value inner).map (.table .dotted)
        | some (.table .implied inner) =>
            if rest.isEmpty then none else (put? rest key value inner).map (.table .implied)
        | some (.tables items) =>
            if rest.isEmpty then none
            else (alterLast? (put? rest key value) items).map .tables
        | some _ => none

/-- Changes what stands at the end of a header's path. Tables on the way that do not
exist are implied; of an array of tables, the last is meant. -/
def alterAt? (path : List String) (key : String) (change : Option Toml → Option Toml)
    (entries : Entries) : Option Entries :=
  match path with
  | [] => alter? key change entries
  | first :: rest =>
      entries |> alter? first fun
        | none => (alterAt? rest key change []).map (.table .implied)
        | some (.table .inline _) => none
        | some (.table origin inner) =>
            (alterAt? rest key change inner).map (.table origin)
        | some (.tables items) => (alterLast? (alterAt? rest key change) items).map .tables
        | some _ => none

/-- A key with a value; the path holds all parts of a dotted key but the last. -/
structure Pair where
  path : List String
  key : String
  value : Toml

def putAll? (pairs : List Pair) (entries : Entries) : Option Entries :=
  pairs.foldlM (fun entries pair => put? pair.path pair.key pair.value entries) entries

/-- A table in braces. -/
def ofPairs? (pairs : List Pair) : Option Toml :=
  (putAll? pairs []).map (.table .inline)

/-- A header, of a table or of one more table of an array. -/
structure Header where
  path : List String
  key : String
  isElement : Bool

/-- A header with the pairs below it. -/
structure Section where
  header : Header
  pairs : List Pair

/-- Adds what a section says. Only a table that is merely implied may be defined
later. -/
def addSection? (entries : Entries) (part : Section) : Option Entries :=
  let table (inner : Entries) := (putAll? part.pairs inner).map (.table .header)
  entries |> alterAt? part.header.path part.header.key fun item =>
    if part.header.isElement then
      match item with
      | none => (table []).map fun first => .tables [first]
      | some (.tables items) => (table []).map fun last => .tables (items ++ [last])
      | some _ => none
    else
      match item with
      | none => table []
      | some (.table .implied inner) => table inner
      | some _ => none

/-- A line that says something. -/
inductive Statement
  | pair (pair : Pair)
  | header (header : Header)

/-- The pairs before the first header, and the sections. -/
def sections : List Statement → List Pair × List Section
  | [] => ([], [])
  | .pair pair :: rest =>
      let (pairs, later) := sections rest
      (pair :: pairs, later)
  | .header header :: rest =>
      let (pairs, later) := sections rest
      ([], ⟨header, pairs⟩ :: later)

/-- The entries of the whole document. -/
def ofStatements? (statements : List Statement) : Option Entries := do
  let (pairs, later) := sections statements
  later.foldlM addSection? (← putAll? pairs [])

end Toml

end Wireframe
