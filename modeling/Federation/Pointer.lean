import Federation.Json.Basic

/-
  This file defines pointers to the parts of a value, and
  their texts.

  Key definitions include:
    * `PointerStep`
    * `Pointer`
    * `Pointer.render`
    * `Pointer.label`
    * `Pointer.resolve?`
-/

namespace Federation

/- A step from a value to one of its parts. -/
inductive PointerStep where
| key (name : String)
| index (i : Nat)
deriving DecidableEq, Repr

/- The way from a document's root to one of its parts. -/
abbrev Pointer := List PointerStep

namespace Pointer

/- The way to the value of a key. -/
def key
    (p : Pointer)
    (name : String) : Pointer :=
  p ++ [.key name]

/- The way to an item. -/
def index
    (p : Pointer)
    (i : Nat) : Pointer :=
  p ++ [.index i]

/- A key inside a pointer: tildes and slashes are escaped. -/
def escapeKey (name : String) : String :=
  String.ofList
    (name.toList.flatMap fun c =>
      if c = '~' then ['~', '0']
      else if c = '/' then ['~', '1']
      else [c])

/- The text of a step. -/
def stepText : PointerStep → String
| .key name => escapeKey name
| .index i => toString i

/- The text of a pointer, a slash before each step. -/
def render (p : Pointer) : String :=
  String.join (p.map fun step => "/" ++ stepText step)

/- A step of a label, with a point between keys. -/
def labelStep
    (isFirst : Bool) : PointerStep → String
| .key name => if isFirst then name else "." ++ name
| .index i => s!"[{i}]"

/- The text of a pointer with points and square brackets. -/
def label : Pointer → String
| [] => ""
| step :: rest =>
    labelStep true step ++
      String.join (rest.map (labelStep false))

/- The part of a value that a step leads to. -/
def step? : PointerStep → Json → Option Json
| .key name, v => v.get? name
| .index i, v => v.asArray?.bind fun items => items[i]?

/- The part of a value that a pointer leads to. -/
def resolve? (p : Pointer) (v : Json) : Option Json :=
  p.foldlM (fun part step => step? step part) v

end Pointer

end Federation
