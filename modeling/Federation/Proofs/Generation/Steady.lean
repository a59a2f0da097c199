import Federation.Proofs.Canonical.Subject
import Federation.Proofs.Generation.Clock
import Federation.Proofs.Schema.Places
import Mathlib.Data.List.Forall2

/-
  Documents that differ in the instant of their generation and
  in nothing else. If schemas accept both instants, they are
  judged alike, down to the wording of every violation. A
  generator is steady if it gives documents like that whenever
  it is asked.

  Main declarations:
    * `AreAlike`
    * `Document.SameButTime`
    * `Validation.validateDocument_congr`
    * `Generator.IsSteady`
    * `Generator.isSteady_of_standing`
    * `Generator.isSteady_ofContent`
-/

namespace Federation

------------------------------------------------------------
-- Results
------------------------------------------------------------

/- Two results are the same error, or values that are alike. -/
inductive AreAlike
    {ε α : Type}
    (like : α → α → Prop) : Except ε α → Except ε α → Prop
| error (e : ε) : AreAlike like (.error e) (.error e)
| ok
    {a b : α}
    (hLike : like a b) : AreAlike like (.ok a) (.ok b)

namespace AreAlike

variable {ε α β : Type}
variable {like : α → α → Prop}

theorem of_eq
    {x y : Except ε α}
    (hSame : x = y) :
    AreAlike Eq x y := by
  subst hSame
  cases x with
  | error e => exact .error e
  | ok a => exact .ok rfl

theorem bind
    {later : β → β → Prop}
    {x y : Except ε α}
    {f g : α → Except ε β}
    (hAlike : AreAlike like x y)
    (hNext : ∀ a b, like a b → AreAlike later (f a) (g b)) :
    AreAlike later (x.bind f) (y.bind g) := by
  cases hAlike with
  | error e => exact .error e
  | ok hLike => exact hNext _ _ hLike

end AreAlike

------------------------------------------------------------
-- Members
------------------------------------------------------------

namespace Table

variable {κ α : Type}
variable {like : κ → α → α → Prop}

/- Entries of the same keys, with values that are alike. -/
def AllLike
    (like : κ → α → α → Prop)
    (xs ys : List (κ × α)) : Prop :=
  List.Forall₂
    (fun x y => x.1 = y.1 ∧ like x.1 x.2 y.2) xs ys

theorem AllLike.keys_eq
    {xs ys : List (κ × α)}
    (hAll : AllLike like xs ys) :
    xs.map Prod.fst = ys.map Prod.fst := by
  unfold AllLike at hAll
  induction hAll with
  | nil => rfl
  | cons hFirst _ ih =>
      rw [List.map_cons, List.map_cons, ih, hFirst.1]

variable [DecidableEq κ]

theorem AllLike.lookup_eq
    {xs ys : List (κ × α)}
    {key : κ}
    (hAll : AllLike like xs ys)
    (hSame : ∀ x y, like key x y → x = y) :
    xs.lookup key = ys.lookup key := by
  unfold AllLike at hAll
  induction hAll with
  | nil => rfl
  | @cons x y xs ys hFirst _ ih =>
      rcases x with ⟨k, v⟩
      rcases y with ⟨k', v'⟩
      rcases hFirst with ⟨rfl, hLike⟩
      rw [List.lookup_cons, List.lookup_cons, ih]
      by_cases hKey : key = k
      · subst hKey
        have hValue : v = v' := hSame v v' hLike
        rw [hValue]
      · rw [beq_eq_false_iff_ne.mpr hKey]

variable [LT κ] [DecidableLT κ]

theorem AllLike.insert
    {xs ys : Table κ α}
    {key : κ}
    {x y : α}
    (hNew : like key x y)
    (hAll : AllLike like xs ys) :
    AllLike like (Table.insert key x xs)
      (Table.insert key y ys) := by
  unfold AllLike at hAll ⊢
  induction hAll with
  | nil => exact .cons ⟨rfl, hNew⟩ .nil
  | @cons x' y' xs ys hFirst hRest ih =>
      rcases x' with ⟨k, v⟩
      rcases y' with ⟨k', v'⟩
      rcases hFirst with ⟨rfl, hLike⟩
      simp only [Table.insert]
      split
      · exact .cons ⟨rfl, hNew⟩ (.cons ⟨rfl, hLike⟩ hRest)
      · split
        · exact .cons ⟨rfl, hNew⟩ hRest
        · exact .cons ⟨rfl, hLike⟩ ih

/- Lists that are alike make tables that are alike. -/
theorem AllLike.ofList
    {xs ys : List (κ × α)}
    (hAll : AllLike like xs ys) :
    AllLike like (Table.ofList xs) (Table.ofList ys) := by
  have hFold : ∀ first second : Table κ α,
      AllLike like first second →
      AllLike like
        (xs.foldl (fun table entry =>
          Table.insert entry.1 entry.2 table) first)
        (ys.foldl (fun table entry =>
          Table.insert entry.1 entry.2 table) second) := by
    unfold AllLike at hAll
    induction hAll with
    | nil => exact fun _ _ hTables => hTables
    | @cons x y xs ys hFirst _ ih =>
        intro first second hTables
        rcases x with ⟨k, v⟩
        rcases y with ⟨k', v'⟩
        rcases hFirst with ⟨rfl, hLike⟩
        exact ih _ _ (hTables.insert hLike)
  exact hFold [] [] .nil

end Table

------------------------------------------------------------
-- Schemas
------------------------------------------------------------

/-
  Values of a member: the same, or two instants that documents
  may tell of their generation.
-/
def Document.LikeValue
    (key : String)
    (x y : Json) : Prop :=
  x = y ∨
    key = "generatedAt" ∧
      Schema.Accepts Schema.timestamp x ∧
      Schema.Accepts Schema.timestamp y

namespace Schema

open Document (LikeValue)
open Table (AllLike)

variable {properties : List (String × Schema)}
variable {xs ys : Json.Members}

/- No schema tells one instant of generation from another. -/
theorem propertyMismatches_congr
    {name : String}
    {x y : Json}
    (hTime : properties.lookup "generatedAt" = some timestamp)
    (hLike : LikeValue name x y)
    (place : Pointer) :
    propertyMismatches properties name place x =
      propertyMismatches properties name place y := by
  rcases hLike with rfl | ⟨rfl, hFirst, hSecond⟩
  · rfl
  · have hNone : ∀ {value : Json},
        Accepts timestamp value →
        propertyMismatches properties "generatedAt" place
          value = [] := by
      intro value hAccepts
      rw [propertyMismatches_eq_nil_iff]
      intro schema hSchema
      rw [hTime] at hSchema
      cases hSchema
      exact hAccepts
    rw [hNone hFirst, hNone hSecond]

theorem flatMap_congr
    (hTime : properties.lookup "generatedAt" = some timestamp)
    (hAll : AllLike LikeValue xs ys)
    (place : Pointer) :
    (xs.flatMap fun (name, part) =>
        propertyMismatches properties name (place.key name)
          part) =
      ys.flatMap fun (name, part) =>
        propertyMismatches properties name (place.key name)
          part := by
  unfold AllLike at hAll
  induction hAll with
  | nil => rfl
  | @cons x y xs ys hFirst _ ih =>
      rcases x with ⟨name, x⟩
      rcases y with ⟨name', y⟩
      rcases hFirst with ⟨rfl, hLike⟩
      rw [List.flatMap_cons, List.flatMap_cons, ih]
      dsimp only
      rw [propertyMismatches_congr hTime hLike]

theorem violations_congr
    (hTime : properties.lookup "generatedAt" = some timestamp)
    (hAll : AllLike LikeValue xs ys) :
    (recordOf properties).violations (.object xs) =
      (recordOf properties).violations (.object ys) := by
  have hKeys := hAll.keys_eq
  have hMissing : ∀ name : String,
      (xs.lookup name).isNone = (ys.lookup name).isNone := by
    intro name
    rw [Bool.eq_iff_iff, Table.lookup_isNone_iff,
      Table.lookup_isNone_iff, hKeys]
  rw [violations, violations, recordOf]
  unfold mismatches
  dsimp only
  rw [flatMap_congr hTime hAll, extraMismatches,
    extraMismatches, unexpectedNames, unexpectedNames, hKeys,
    missingMismatches, missingMismatches]
  simp only [hMissing]

end Schema

/- Every document tells the instant of its generation. -/
theorem ParameterSchema.lookup_generatedAt
    {kind : DocumentKind}
    {version : Version}
    {schema : ParameterSchema}
    (hSchema : find? kind version = some schema) :
    schema.properties.lookup "generatedAt" =
      some Schema.timestamp := by
  have hEach : ∀ schema ∈ all,
      schema.properties.lookup "generatedAt" =
        some Schema.timestamp := by
    simp only [all, List.forall_mem_cons]
    exact ⟨rfl, rfl, rfl, rfl, List.forall_mem_nil _⟩
  exact hEach _ (mem_all_of_find hSchema).1

------------------------------------------------------------
-- Documents
------------------------------------------------------------

/- Schemas accept the instant of a document's generation. -/
def Document.TellsTime
    {kind : DocumentKind}
    (d : Document kind) : Prop :=
  Schema.Accepts Schema.timestamp
    (.string d.generatedAt.display)

/-
  Two documents have the same content, and they have been
  generated at the same instant or at two that schemas accept.
-/
structure Document.SameButTime
    {kind : DocumentKind}
    (d e : Document kind) : Prop where
  content : d.SameContent e
  time : d.generatedAt = e.generatedAt ∨
    d.TellsTime ∧ e.TellsTime

namespace Document

variable {kind : DocumentKind}
variable {d e : Document kind}

theorem SameButTime.refl (d : Document kind) :
    d.SameButTime d :=
  ⟨⟨rfl, rfl⟩, Or.inl rfl⟩

theorem SameContent.digest_eq (hSame : d.SameContent e) :
    d.digest = e.digest := by
  rw [digest, digest, subject_eq_of_sameContent hSame]

theorem SameButTime.allLike_members
    (hSame : d.SameButTime e) :
    Table.AllLike LikeValue d.members e.members := by
  have hTime : LikeValue "generatedAt"
      (.string d.generatedAt.display)
      (.string e.generatedAt.display) := by
    rcases hSame.time with hEqual | hBoth
    · exact Or.inl (by rw [hEqual])
    · exact Or.inr ⟨rfl, hBoth⟩
  rw [members, members, hSame.content.1, hSame.content.2]
  refine .cons ⟨rfl, Or.inl rfl⟩ (.cons ⟨rfl, hTime⟩ ?_)
  exact List.forall₂_same.mpr fun _ _ => ⟨rfl, Or.inl rfl⟩

end Document

/- Documents that differ in their time only are judged alike. -/
theorem Validation.validateDocument_congr
    {kind : DocumentKind}
    {d e : Document kind}
    (version : Version)
    (hSame : d.SameButTime e) :
    validateDocument version d = validateDocument version e := by
  have hAll := hSame.allLike_members.ofList
  have hGet : ∀ key, key ≠ "generatedAt" →
      d.toJson.get? key = e.toJson.get? key := by
    intro key hKey
    apply hAll.lookup_eq
    rintro x y (hEqual | ⟨hTime, -⟩)
    · exact hEqual
    · exact absurd hTime hKey
  rw [validateDocument, validateDocument, validate, validate]
  cases hSchema : ParameterSchema.find? kind version with
  | none => rfl
  | some schema =>
      have hForm : schema.root.violations d.toJson =
          schema.root.violations e.toJson :=
        Schema.violations_congr
          (ParameterSchema.lookup_generatedAt hSchema) hAll
      have hRules : Rules.violations kind version d.toJson =
          Rules.violations kind version e.toJson := by
        rw [Rules.violations, Rules.violations,
          Rules.findings_congr kind version hGet]
      dsimp only
      rw [declaredVersion?, declaredVersion?,
        hGet "version" (by decide), hForm, hRules]

------------------------------------------------------------
-- Generators
------------------------------------------------------------

namespace Generator

variable {told : Instant → Prop}
variable {g : Generator}
variable {r : Registry}

/-
  What generators are to be: functions of the registry, but
  for the time. At whichever of some instants it is asked, the
  generator fails with the same error, or it gives documents
  that differ in their time only and that it judges alike.
-/
def IsSteady
    (told : Instant → Prop)
    (r : Registry)
    (g : Generator) : Prop :=
  ∀ kind t t', told t → told t' →
    AreAlike
      (fun d e => d.SameButTime e ∧
        g.validate kind d = g.validate kind e)
      (g.generate kind t r) (g.generate kind t' r)

/- At a single instant every generator is steady. -/
theorem isSteady_of_standing
    {now : Instant}
    (g : Generator)
    (r : Registry)
    (hStands : ∀ t, told t → t = now) :
    g.IsSteady told r := by
  intro kind t t' hTold hTold'
  rw [hStands t hTold, hStands t' hTold']
  cases g.generate kind now r with
  | error e => exact .error e
  | ok d => exact .ok ⟨.refl d, rfl⟩

/- A generator of given content is steady in plain instants. -/
theorem isSteady_ofContent
    (version : Version)
    (content : DocumentKind → Registry →
      Except GenerationFault Json.Members)
    (r : Registry)
    (hPlain : ∀ t, told t → t.IsPlain) :
    (ofContent version content).IsSteady told r := by
  intro kind t t' hTold hTold'
  simp only [ofContent]
  cases content kind r with
  | error fault => exact .error _
  | ok members =>
      have hSame : (Document.new kind version t
          members).SameButTime
            (Document.new kind version t' members) :=
        ⟨⟨rfl, rfl⟩, Or.inr
          ⟨Schema.accepts_generatedAt (hPlain t hTold),
            Schema.accepts_generatedAt (hPlain t' hTold')⟩⟩
      exact .ok ⟨hSame,
        Validation.validateDocument_congr version hSame⟩

end Generator

end Federation
