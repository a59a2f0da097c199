import Federation.Json.Reader
import Federation.Reading.Fault

/-
  This file defines how records are read from values. The
  fields that are given are judged in the order in which
  they stand, and missing fields are found afterwards, in the
  order of the record.

  Key definitions include:
    * `Reading.Form`
    * `Reading.Source`
    * `Reading.Reader`
    * `Reading.Record`
    * `Reading.Record.read`
    * `Reading.Record.readShared`
-/

namespace Federation

namespace Reading

------------------------------------------------------------
-- Sources
------------------------------------------------------------

/- A record's fields, by name or by position. -/
inductive Form (σ : Type) where
| entries (list : List (String × σ))
| positions (list : List σ)

/-
  A kind of value that records can be read from. `isAbsent?`
  tells whether a value means that there is none, and
  `settle?` fixes the type of a value that has yet no type.
-/
class Source (σ : Type) where
  found : σ → Found
  text? : σ → Option String
  integer? : σ → Option Int
  flag? : σ → Option Bool
  items? : σ → Option (List σ)
  form? : σ → Option (Form σ)
  isAbsent? : σ → Option Bool
  settle? : σ → Option σ

/- A reader of a value, or of its fault. -/
abbrev Reader (σ α : Type) :=
  σ → Except Fault α

variable {σ α β : Type}

/- Try a reading that fails only for the wrong form. -/
def expect
    [Source σ]
    (wanted : String)
    (read? : σ → Option α) : Reader σ α :=
  fun v =>
    match read? v with
    | some a => .ok a
    | none => .error (.form (Source.found v) wanted)

/- Read a text. -/
def text [Source σ] : Reader σ String :=
  expect "a string" Source.text?

/- Read a truth value. -/
def flag [Source σ] : Reader σ Bool :=
  expect "a boolean" Source.flag?

/- Read a number with a given count of bits. -/
def unsigned
    [Source σ]
    (bits : Nat) : Reader σ Nat :=
  fun v => do
    let wanted := "u" ++ toString bits
    let n ← expect wanted Source.integer? v
    if 0 ≤ n ∧ n < Nat.pow 2 bits then return n.toNat
    else throw (.range (.integer n) wanted)

/- Read the items of a list in order. -/
def list
    [Source σ]
    (item : Reader σ α) : Reader σ (List α) :=
  fun v => do
    let items ← expect "a sequence" Source.items? v
    items.mapM item

/- Read a value that may be absent. -/
def optional
    [Source σ]
    (item : Reader σ α) : Reader σ (Option α) :=
  fun v =>
    match Source.isAbsent? v with
    | none => .error (.form (Source.found v) "null")
    | some true => .ok none
    | some false => (item v).map some

------------------------------------------------------------
-- Records
------------------------------------------------------------

/- A field: its name and the judgement of a value for it. -/
structure Field (σ : Type) where
  name : String
  judge : Reader σ Unit

/-
  A record: its fields, and how to take it from named fields
  or from the values at successive positions.
-/
structure Record (σ α : Type) where
  fields : List (Field σ)
  ofEntries : List (String × σ) → Except Fault α
  ofPositions :
    (wanted : String) → (index : Nat) → List σ →
      Except Fault (α × List σ)

namespace Record

/- A record without fields. -/
def pure (a : α) : Record σ α :=
  { fields := []
    ofEntries := fun _ => .ok a
    ofPositions := fun _ _ values => .ok (a, values) }

/- The fields of two records, one after the other. -/
def seq
    (f : Record σ (α → β))
    (x : Record σ α) : Record σ β :=
  { fields := f.fields ++ x.fields
    ofEntries := fun entries => do
      let g ← f.ofEntries entries
      let a ← x.ofEntries entries
      return g a
    ofPositions := fun wanted index values => do
      let (g, rest) ← f.ofPositions wanted index values
      let (a, rest) ←
        x.ofPositions wanted (index + f.fields.length) rest
      return (g a, rest) }

/- A single field that has a fallback or none. -/
def field
    (name : String)
    (reader : Reader σ α)
    (fallback : Option α) : Record σ α :=
  { fields := [⟨name, fun v => (reader v).map fun _ => ()⟩]
    ofEntries := fun entries =>
      match entries.lookup name, fallback with
      | some v, _ => reader v
      | none, some a => .ok a
      | none, none => .error (.missing name)
    ofPositions := fun wanted index values =>
      match values, fallback with
      | v :: rest, _ => (reader v).map fun a => (a, rest)
      | [], some a => .ok (a, [])
      | [], none => .error (.length index wanted) }

/- Add a field that must be given. -/
def required
    (f : Record σ (α → β))
    (name : String)
    (reader : Reader σ α) : Record σ β :=
  f.seq (field name reader none)

/- Add a field with a value that it has when not given. -/
def withDefault
    (f : Record σ (α → β))
    (name : String)
    (reader : Reader σ α)
    (fallback : α) : Record σ β :=
  f.seq (field name reader (some fallback))

------------------------------------------------------------
-- Reading Records
------------------------------------------------------------

/-
  Judge named values in order: a field may be named once,
  and other names are refused where only fields may stand.
-/
def judge
    (fields : List (Field σ))
    (closed : Bool) :
    (seen : List String) → List (String × σ) →
      Except Fault Unit
| _, [] => .ok ()
| seen, (name, v) :: rest =>
    match fields.find? (fun f => f.name = name) with
    | some f => do
        if name ∈ seen then throw (.duplicate name)
        f.judge v
        judge fields closed (name :: seen) rest
    | none =>
        if closed then .error (.unknown name)
        else judge fields closed seen rest

/- Read a record from named values. -/
def readEntries
    (r : Record σ α)
    (closed : Bool)
    (entries : List (String × σ)) : Except Fault α := do
  judge r.fields closed [] entries
  r.ofEntries entries

/- Read a record from values at positions. -/
def readPositions
    (r : Record σ α)
    (name : String)
    (values : List σ) : Except Fault α := do
  let count := r.fields.length
  let wanted :=
    s!"struct {name} with {count} elements"
  let (a, rest) ← r.ofPositions wanted 0 values
  if rest = [] then return a
  else throw (.length values.length "fewer elements in array")

/- Read a record from a value of either form. -/
def read
    [Source σ]
    (name : String)
    (closed : Bool)
    (r : Record σ α) : Reader σ α :=
  fun v =>
    match Source.form? v with
    | some (.entries entries) => r.readEntries closed entries
    | some (.positions values) => r.readPositions name values
    | none =>
        .error (.form (Source.found v) ("struct " ++ name))

/-
  Read a record that shares its value with another one. The
  named values that are not the record's own are settled and
  go to the other; positions are refused.
-/
def readShared
    [Source σ]
    (name : String)
    (r : Record σ (α → β))
    (other : List (String × σ) → Except Fault α) :
    Reader σ β :=
  fun v =>
    match Source.form? v with
    | some (.entries entries) => do
        let f ← r.readEntries false entries
        let own := r.fields.map Field.name
        let rest :=
          entries.filter fun (key, _) => key ∉ own
        let settled ← rest.mapM fun (key, v) => do
          return (key, ← expect "a value" Source.settle? v)
        return f (← other settled)
    | _ => .error (.form (Source.found v) ("struct " ++ name))

end Record

------------------------------------------------------------
-- JSON Values
------------------------------------------------------------

instance : Source Json where
  found := Found.ofJson
  text? := Json.asString?
  integer?
    | .integer n => some n
    | _ => none
  flag?
    | .bool b => some b
    | _ => none
  items? := Json.asArray?
  form?
    | .object members => some (.entries members)
    | .array items => some (.positions items)
    | _ => none
  isAbsent? v := some (v = .null)
  settle? := some

/- What the draft of a JSON text is found to be. -/
def Found.ofDraft : Json.Draft → Found
| .leaf value => (value.map Found.ofJson).getD .unreadable
| .array _ => .sequence
| .object _ => .map

/- The value of a leaf. -/
def leaf? : Json.Draft → Option Json
| .leaf value => value
| _ => none

instance : Source Json.Draft where
  found := Found.ofDraft
  text? d := (leaf? d).bind Source.text?
  integer? d := (leaf? d).bind Source.integer?
  flag? d := (leaf? d).bind Source.flag?
  items?
    | .array items => some items
    | _ => none
  form?
    | .object members =>
        (Json.Draft.keyed? members).map .entries
    | .array items => some (.positions items)
    | _ => none
  isAbsent? d := some (leaf? d = some .null)
  settle? d := d.value?.map fun _ => d

end Reading

end Federation
