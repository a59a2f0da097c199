/-
  This file defines tables: lists of keys and values in
  ascending order of keys, each key once.

  Key definitions include:
    * `Table`
    * `Table.insert`
    * `Table.ofList`
    * `Table.erase`
-/

namespace Federation

/- Keys with values, in ascending order of keys. -/
abbrev Table (κ α : Type) := List (κ × α)

namespace Table

variable {κ α : Type}
variable [LT κ] [DecidableLT κ] [DecidableEq κ]

/- Set the value of a key, keeping keys ascending. -/
def insert
    (key : κ)
    (value : α) : Table κ α → Table κ α
| [] => [(key, value)]
| (k, v) :: rest =>
    if key < k then (key, value) :: (k, v) :: rest
    else if key = k then (key, value) :: rest
    else (k, v) :: insert key value rest

/- The table of a list, the last of equal keys winning. -/
def ofList (list : List (κ × α)) : Table κ α :=
  list.foldl
    (fun table (key, value) => insert key value table) []

/- The value of a key. -/
def get?
    (key : κ) : Table κ α → Option α
| [] => none
| (k, v) :: rest => if key = k then some v else get? key rest

/- A table without a key. -/
def erase
    (key : κ)
    (table : Table κ α) : Table κ α :=
  table.filter fun (k, _) => k ≠ key

/- The keys of a table. -/
def keys (table : Table κ α) : List κ :=
  table.map Prod.fst

end Table

end Federation
