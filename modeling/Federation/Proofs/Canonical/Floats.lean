import Federation.Proofs.Canonical
import Federation.Proofs.Json.Normal
import Federation.Proofs.Pointer
import Federation.Proofs.Text

/-
  The floats of a normal value by the pointers to them, and
  which of them is the first: depth first, the keys of an
  object in ascending order of their bytes.

  Main declarations:
    * `Pointer.Precedes`
    * `Canonical.FloatAt`
    * `Canonical.IsFirstFloat`
    * `Canonical.hasNoFloat_iff`
    * `Canonical.firstFloat?_eq_some_iff`
-/

namespace Federation

------------------------------------------------------------
-- Depth-First Order
------------------------------------------------------------

/- Of two parts of one array or object, which comes first. -/
inductive PointerStep.Precedes :
    PointerStep → PointerStep → Prop where
| key {name other : String} :
    Text.toBytes name < Text.toBytes other →
    Precedes (.key name) (.key other)
| index {i j : Nat} :
    i < j → Precedes (.index i) (.index j)

namespace PointerStep

theorem Precedes.asymm
    {first second : PointerStep}
    (hFirst : Precedes first second) :
    ¬Precedes second first := by
  intro hSecond
  cases hFirst with
  | key hLess =>
      cases hSecond with
      | key hGreater => exact List.lt_asymm hLess hGreater
  | index hLess =>
      cases hSecond with
      | index hGreater => omega

/- Two keys of one object are in order. -/
theorem key_precedes_or
    {name other : String}
    (hNe : name ≠ other) :
    Precedes (.key name) (.key other) ∨ other < name := by
  rcases Std.lt_trichotomy name other with
    hLess | hEqual | hGreater
  · exact Or.inl (.key (Text.toBytes_lt_iff.mpr hLess))
  · exact absurd hEqual hNe
  · exact Or.inr hGreater

end PointerStep

/- A part is visited before another, depth first. -/
def Pointer.Precedes (p q : Pointer) : Prop :=
  List.Lex PointerStep.Precedes p q

theorem Pointer.Precedes.asymm
    {p q : Pointer}
    (hFirst : p.Precedes q) :
    ¬q.Precedes p :=
  List.lex_asymm (fun hStep => hStep.asymm) hFirst

namespace Canonical

open Json (IsNormal)

------------------------------------------------------------
-- Places of Floats
------------------------------------------------------------

/- A pointer leads to a float. -/
def FloatAt
    (value : Json)
    (p : Pointer)
    (x : Binary64) : Prop :=
  p.resolve? value = some (.float x)

/- A float that comes before all others, depth first. -/
def IsFirstFloat
    (value : Json)
    (x : Binary64) : Prop :=
  ∃ p, FloatAt value p x ∧
    ∀ q y, FloatAt value q y → p = q ∨ p.Precedes q

theorem IsFirstFloat.unique
    {value : Json}
    {x y : Binary64}
    (hFirst : IsFirstFloat value x)
    (hSecond : IsFirstFloat value y) :
    x = y := by
  rcases hFirst with ⟨p, hp, hpFirst⟩
  rcases hSecond with ⟨q, hq, hqFirst⟩
  have hSame : p = q := by
    rcases hpFirst q y hq with hEqual | hBefore
    · exact hEqual
    · rcases hqFirst p x hp with hEqual | hAfter
      · exact hEqual.symm
      · exact absurd hAfter hBefore.asymm
  subst hSame
  rw [FloatAt, hp, Option.some.injEq, Json.float.injEq] at hq
  exact hq

------------------------------------------------------------
-- Parts
------------------------------------------------------------

theorem floatAt_cons_iff
    {value : Json}
    {step : PointerStep}
    {p : Pointer}
    {x : Binary64} :
    FloatAt value (step :: p) x ↔
      ∃ part, Pointer.step? step value = some part ∧
        FloatAt part p x :=
  Option.bind_eq_some_iff

/- A pointer into an array leads into one of its items. -/
theorem exists_item_of_floatAt
    {items : List Json}
    {p : Pointer}
    {x : Binary64}
    (hFloat : FloatAt (.array items) p x) :
    ∃ i item q, p = .index i :: q ∧ items[i]? = some item ∧
      FloatAt item q x := by
  cases p with
  | nil => cases hFloat
  | cons step q =>
      rcases floatAt_cons_iff.mp hFloat with
        ⟨item, hStep, hPart⟩
      cases step with
      | key name => cases hStep
      | index i => exact ⟨i, item, q, rfl, hStep, hPart⟩

/- A pointer into an object leads into one of its members. -/
theorem exists_member_of_floatAt
    {members : List (String × Json)}
    {p : Pointer}
    {x : Binary64}
    (hFloat : FloatAt (.object members) p x) :
    ∃ key part q, p = .key key :: q ∧
      members.lookup key = some part ∧ FloatAt part q x := by
  cases p with
  | nil => cases hFloat
  | cons step q =>
      rcases floatAt_cons_iff.mp hFloat with
        ⟨part, hStep, hPart⟩
      cases step with
      | key name => exact ⟨name, part, q, rfl, hStep, hPart⟩
      | index i => cases hStep

/- No pointer leads to a float where there is none. -/
theorem HasNoFloat.not_floatAt
    {value : Json}
    {p : Pointer}
    {x : Binary64}
    (hValue : HasNoFloat value) :
    ¬FloatAt value p x := by
  induction p generalizing value with
  | nil =>
      intro hFloat
      cases hFloat
      cases hValue
  | cons step p ih =>
      intro hFloat
      cases value with
      | array items =>
          rcases exists_item_of_floatAt hFloat with
            ⟨i, item, q, hPointer, hItem, hPart⟩
          cases hPointer
          exact ih ((hasNoFloat_array items).mp hValue item
            (List.mem_of_getElem? hItem)) hPart
      | object members =>
          rcases exists_member_of_floatAt hFloat with
            ⟨key, part, q, hPointer, hMember, hPart⟩
          cases hPointer
          exact ih ((hasNoFloat_object members).mp hValue
            (key, part) (Table.mem_of_lookup hMember)) hPart
      | null | bool _ | integer _ | float _ | string _ =>
          cases step <;> cases hFloat

theorem firstFloatOfItems?_eq_some
    {items : List Json}
    {x : Binary64}
    (hFirst : firstFloatOfItems? items = some x) :
    ∃ before item after, items = before ++ item :: after ∧
      (∀ other ∈ before, HasNoFloat other) ∧
      firstFloat? item = some x := by
  induction items with
  | nil => cases hFirst
  | cons first rest ih =>
      rw [firstFloatOfItems?] at hFirst
      cases hHead : firstFloat? first with
      | some y =>
          rw [hHead] at hFirst
          cases hFirst
          exact ⟨[], first, rest, rfl, List.forall_mem_nil _,
            hHead⟩
      | none =>
          rw [hHead] at hFirst
          rcases ih hFirst with
            ⟨before, item, after, rfl, hBefore, hItem⟩
          exact ⟨first :: before, item, after, rfl,
            List.forall_mem_cons.mpr ⟨hHead, hBefore⟩, hItem⟩

theorem firstFloatOfMembers?_eq_some
    {members : List (String × Json)}
    {x : Binary64}
    (hFirst : firstFloatOfMembers? members = some x) :
    ∃ before key part after,
      members = before ++ (key, part) :: after ∧
      (∀ other ∈ before, HasNoFloat other.2) ∧
      firstFloat? part = some x := by
  induction members with
  | nil => cases hFirst
  | cons first rest ih =>
      rcases first with ⟨name, value⟩
      rw [firstFloatOfMembers?] at hFirst
      cases hHead : firstFloat? value with
      | some y =>
          rw [hHead] at hFirst
          cases hFirst
          exact ⟨[], name, value, rest, rfl,
            List.forall_mem_nil _, hHead⟩
      | none =>
          rw [hHead] at hFirst
          rcases ih hFirst with
            ⟨before, key, part, after, rfl, hBefore, hPart⟩
          exact ⟨(name, value) :: before, key, part, after,
            rfl, List.forall_mem_cons.mpr ⟨hHead, hBefore⟩,
            hPart⟩

------------------------------------------------------------
-- The First Float
------------------------------------------------------------

/- The first item with a float has the first one. -/
theorem IsFirstFloat.array
    {before after : List Json}
    {item : Json}
    {x : Binary64}
    (hBefore : ∀ other ∈ before, HasNoFloat other)
    (hItem : IsFirstFloat item x) :
    IsFirstFloat (.array (before ++ item :: after)) x := by
  rcases hItem with ⟨p, hp, hFirst⟩
  refine ⟨.index before.length :: p, ?_, ?_⟩
  · exact floatAt_cons_iff.mpr ⟨item, by
      simp [Pointer.step?, Json.asArray?], hp⟩
  · intro q y hq
    rcases exists_item_of_floatAt hq with
      ⟨i, other, rest, rfl, hOther, hRest⟩
    rcases Nat.lt_trichotomy before.length i with
      hLess | rfl | hGreater
    · exact Or.inr (.rel (.index hLess))
    · rw [List.getElem?_append_right (Nat.le_refl _),
        Nat.sub_self] at hOther
      cases hOther
      rcases hFirst rest y hRest with rfl | hLater
      · exact Or.inl rfl
      · exact Or.inr (.cons hLater)
    · rw [List.getElem?_append_left hGreater] at hOther
      exact absurd hRest
        (hBefore other (List.mem_of_getElem? hOther)).not_floatAt

/- Of ordered members the ones with smaller keys come before. -/
theorem mem_before_of_lt
    {before after : List (String × Json)}
    {key name : String}
    {part other : Json}
    (hOrdered :
      Table.IsOrdered (before ++ (key, part) :: after))
    (hLess : name < key)
    (hMem : (name, other) ∈ before ++ (key, part) :: after) :
    (name, other) ∈ before := by
  rcases List.pairwise_append.mp hOrdered with
    ⟨-, hRest, -⟩
  have hGreater := (List.pairwise_cons.mp hRest).1
  rcases List.mem_append.mp hMem with hBefore | hHere
  · exact hBefore
  · rcases List.mem_cons.mp hHere with hSame | hAfter
    · cases hSame
      exact absurd hLess Std.lt_irrefl
    · exact absurd (Std.lt_trans hLess (hGreater _ hAfter))
        Std.lt_irrefl

/- The first member with a float has the first one. -/
theorem IsFirstFloat.object
    {before after : List (String × Json)}
    {key : String}
    {part : Json}
    {x : Binary64}
    (hOrdered :
      Table.IsOrdered (before ++ (key, part) :: after))
    (hBefore : ∀ other ∈ before, HasNoFloat other.2)
    (hPart : IsFirstFloat part x) :
    IsFirstFloat
      (.object (before ++ (key, part) :: after)) x := by
  rcases hPart with ⟨p, hp, hFirst⟩
  have hLookup :
      (before ++ (key, part) :: after).lookup key =
        some part :=
    Table.lookup_of_mem hOrdered.nodup_keys (by simp)
  refine ⟨.key key :: p, ?_, ?_⟩
  · exact floatAt_cons_iff.mpr ⟨part, hLookup, hp⟩
  · intro q y hq
    rcases exists_member_of_floatAt hq with
      ⟨name, other, rest, rfl, hOther, hRest⟩
    by_cases hKey : key = name
    · subst hKey
      rw [hLookup] at hOther
      cases hOther
      rcases hFirst rest y hRest with rfl | hLater
      · exact Or.inl rfl
      · exact Or.inr (.cons hLater)
    · rcases PointerStep.key_precedes_or hKey with
        hLater | hSmaller
      · exact Or.inr (.rel hLater)
      · have hMem := mem_before_of_lt hOrdered hSmaller
          (Table.mem_of_lookup hOther)
        exact absurd hRest (hBefore _ hMem).not_floatAt

/- By induction on the value, as the search goes through it. -/
theorem isFirstFloat_of_firstFloat?
    {value : Json}
    {x : Binary64}
    (hNormal : value.IsNormal)
    (hFirst : firstFloat? value = some x) :
    IsFirstFloat value x := by
  induction hNormal with
  | null | bool _ | integer _ | string _ => cases hFirst
  | float y =>
      cases hFirst
      refine ⟨[], rfl, ?_⟩
      intro q y hq
      cases q with
      | nil => exact Or.inl rfl
      | cons step q => cases step <;> cases hq
  | @array items hItems ih =>
      rw [firstFloat?] at hFirst
      rcases firstFloatOfItems?_eq_some hFirst with
        ⟨before, item, after, rfl, hBefore, hItem⟩
      exact .array hBefore (ih item (by simp) hItem)
  | @object members hOrdered hMembers ih =>
      rw [firstFloat?] at hFirst
      rcases firstFloatOfMembers?_eq_some hFirst with
        ⟨before, key, part, after, rfl, hBefore, hPart⟩
      exact .object hOrdered hBefore
        (ih (key, part) (by simp) hPart)

/- The search finds the float that comes first, if any. -/
theorem firstFloat?_eq_some_iff
    {value : Json}
    {x : Binary64}
    (hNormal : value.IsNormal) :
    firstFloat? value = some x ↔ IsFirstFloat value x := by
  refine ⟨isFirstFloat_of_firstFloat? hNormal, ?_⟩
  intro hFirst
  cases hFound : firstFloat? value with
  | none =>
      rcases hFirst with ⟨p, hp, -⟩
      exact absurd hp (HasNoFloat.not_floatAt hFound)
  | some y =>
      have hOther := isFirstFloat_of_firstFloat? hNormal hFound
      rw [hFirst.unique hOther]

theorem hasNoFloat_iff
    {value : Json}
    (hNormal : value.IsNormal) :
    HasNoFloat value ↔ ¬∃ p x, FloatAt value p x := by
  constructor
  · rintro hValue ⟨p, x, hFloat⟩
    exact hValue.not_floatAt hFloat
  · intro hNone
    cases hFound : firstFloat? value with
    | none => exact hFound
    | some x =>
        rcases isFirstFloat_of_firstFloat? hNormal hFound with
          ⟨p, hp, -⟩
        exact absurd ⟨p, x, hp⟩ hNone

end Canonical

end Federation
