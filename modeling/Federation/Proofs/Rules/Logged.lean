import Federation.Proofs.Rules.Looking

/-
  What the rules see of a document is decided by what their
  lookups find: if every lookup finds the same text, or as
  many items, in two documents, these are seen alike. So
  nothing is looked at without a lookup that is recorded.

  Main declarations:
    * `Rules.Looking.glimpses`
    * `Rules.Looking.Agree`
    * `Rules.IsLogged`
    * `Rules.result_eq_of_glimpses_eq`
-/

namespace Federation

namespace Rules

------------------------------------------------------------
-- Glimpses
------------------------------------------------------------

/-
  What a lookup tells of the value that it finds: a text, the
  number of a list's items, and nothing of a record, whose
  parts are looked up by themselves.
-/
inductive Glimpse where
| text (s : Option String)
| list (size : Nat)
| record

def Form.glimpse : Form → Option Json → Glimpse
| .text, found => .text (textOf found)
| .list, found =>
    .list ((found.bind Json.asArray?).getD []).length
| .record, _ => .record

/- What a lookup tells, with its place. -/
def Lookup.glimpse (l : Lookup) : Pointer × Glimpse :=
  (l.place, l.wanted.glimpse l.found)

namespace Looking

variable {α β γ δ : Type}

/- What all lookups tell, one after the other. -/
def glimpses (x : Looking α) : List (Pointer × Glimpse) :=
  x.lookups.map Lookup.glimpse

@[simp] theorem glimpses_bind
    (x : Looking α)
    (next : α → Looking β) :
    (x >>= next).glimpses =
      x.glimpses ++ (next x.result).glimpses :=
  List.map_append

theorem glimpses_each_cons
    (look : Part → Looking α)
    (p : Part)
    (parts : List Part) :
    (each look (p :: parts)).glimpses =
      (look p).glimpses ++ (each look parts).glimpses := by
  simp only [glimpses, each, List.flatMap_cons,
    List.map_append]

/-
  If two begin alike with what their lookups tell, then their
  results are related, and what comes later is the same.
-/
def Agree
    (R : α → β → Prop)
    (x : Looking α)
    (y : Looking β) : Prop :=
  ∀ rest more, x.glimpses ++ rest = y.glimpses ++ more →
    R x.result y.result ∧ rest = more

namespace Agree

variable {R : α → β → Prop} {S : γ → δ → Prop}

theorem pure
    {a : α}
    {b : β}
    (hRelated : R a b) :
    Agree R (Pure.pure a) (Pure.pure b) :=
  fun _ _ hSame => ⟨hRelated, hSame⟩

theorem bind
    {x : Looking α}
    {y : Looking β}
    {next : α → Looking γ}
    {other : β → Looking δ}
    (hFirst : Agree R x y)
    (hNext : ∀ a b, R a b → Agree S (next a) (other b)) :
    Agree S (x >>= next) (y >>= other) := by
  intro rest more hSame
  rw [glimpses_bind, glimpses_bind, List.append_assoc,
    List.append_assoc] at hSame
  rcases hFirst _ _ hSame with ⟨hRelated, hLater⟩
  exact hNext _ _ hRelated _ _ hLater

/- After the same result, only what comes next may differ. -/
theorem bind_same
    {x y : Looking α}
    {next : α → Looking γ}
    {other : α → Looking δ}
    (hFirst : Agree Eq x y)
    (hNext : ∀ a, Agree S (next a) (other a)) :
    Agree S (x >>= next) (y >>= other) := by
  apply hFirst.bind
  intro a b hSame
  rw [hSame]
  exact hNext b

theorem single
    {a : α}
    {b : β}
    {l m : Lookup}
    (hRelated : l.glimpse = m.glimpse → R a b) :
    Agree R ⟨a, [l]⟩ ⟨b, [m]⟩ := by
  intro rest more hSame
  rcases List.cons.inj hSame with ⟨hGlimpse, hLater⟩
  exact ⟨hRelated hGlimpse, hLater⟩

end Agree

end Looking

------------------------------------------------------------
-- Parts
------------------------------------------------------------

/- What comes of looking at a part is decided by the lookups. -/
def IsLogged
    {α : Type}
    (look : Part → Looking α) : Prop :=
  ∀ p q, Looking.Agree Eq (look p) (look q)

theorem isLogged_asText : IsLogged Part.asText := by
  intro p q
  apply Looking.Agree.single
  intro hGlimpse
  exact Glimpse.text.inj (congrArg Prod.snd hGlimpse)

section Parts

variable {α : Type} (p q : Part) (key : String)

theorem agree_look (wanted : Form) :
    Looking.Agree
      (fun u v => wanted.glimpse u = wanted.glimpse v)
      (p.look wanted key) (q.look wanted key) := by
  apply Looking.Agree.single
  intro hGlimpse
  exact congrArg Prod.snd hGlimpse

theorem agree_text? :
    Looking.Agree Eq (p.text? key) (q.text? key) := by
  apply (agree_look p q key .text).bind
  intro u v hGlimpse
  exact .pure (Glimpse.text.inj hGlimpse)

theorem agree_text :
    Looking.Agree Eq (p.text key) (q.text key) := by
  apply (agree_text? p q key).bind_same
  intro found
  exact .pure rfl

/- Of a part itself nothing is told. -/
theorem agree_part :
    Looking.Agree (fun _ _ => True)
      (p.part key) (q.part key) := by
  apply (agree_look p q key .record).bind
  intro u v _
  exact .pure trivial

theorem agree_items :
    Looking.Agree (fun ps qs => ps.length = qs.length)
      (p.items key) (q.items key) := by
  apply (agree_look p q key .list).bind
  intro u v hGlimpse
  apply Looking.Agree.pure
  simpa [Part.ofItems] using Glimpse.list.inj hGlimpse

/-
  As many items are looked at one after the other: by
  induction on the first ones.
-/
theorem agree_each
    {look : Part → Looking α}
    (hLook : IsLogged look) :
    Looking.Agree Eq (p.each key look) (q.each key look) := by
  apply (agree_items p q key).bind
  intro ps qs hLength
  induction ps generalizing qs with
  | nil =>
      rw [List.length_eq_zero_iff.mp hLength.symm]
      exact fun _ _ hSame => ⟨rfl, hSame⟩
  | cons u ps ih =>
      cases qs with
      | nil => cases hLength
      | cons v qs =>
          intro rest more hSame
          rw [Looking.glimpses_each_cons,
            Looking.glimpses_each_cons, List.append_assoc,
            List.append_assoc] at hSame
          rcases hLook u v _ _ hSame with ⟨hResult, hLater⟩
          rcases ih qs (Nat.succ.inj hLength) _ _ hLater with
            ⟨hResults, hEnd⟩
          exact ⟨congrArg₂ List.cons hResult hResults, hEnd⟩

end Parts

------------------------------------------------------------
-- Shared Parameters
------------------------------------------------------------

theorem isLogged_memberKey : IsLogged MemberKey.look := by
  intro p q
  apply (agree_text _ _ _).bind_same
  intro memberClass
  apply (agree_text _ _ _).bind_same
  intro memberCode
  exact .pure rfl

theorem isLogged_client : IsLogged SeenClient.look := by
  intro p q
  apply (isLogged_memberKey _ _).bind_same
  intro member
  apply (agree_text? _ _ _).bind_same
  intro subsystem
  exact .pure rfl

theorem isLogged_member : IsLogged SeenMember.look := by
  intro p q
  apply (isLogged_memberKey _ _).bind_same
  intro key
  apply (agree_each _ _ _ isLogged_asText).bind_same
  intro subsystems
  exact .pure rfl

theorem isLogged_server : IsLogged SeenServer.look := by
  intro p q
  apply (agree_part _ _ _).bind
  intro first second _
  apply (isLogged_memberKey _ _).bind_same
  intro owner
  apply (agree_text _ _ _).bind_same
  intro code
  apply (agree_each _ _ _ isLogged_asText).bind_same
  intro hashes
  apply (agree_each _ _ _ isLogged_client).bind_same
  intro clients
  exact .pure rfl

theorem isLogged_group : IsLogged SeenGroup.look := by
  intro p q
  apply (agree_text _ _ _).bind_same
  intro code
  apply (agree_each _ _ _ isLogged_client).bind_same
  intro members
  exact .pure rfl

theorem isLogged_cert : IsLogged fun p => p.text? "cert" :=
  fun _ _ => agree_text? _ _ _

theorem isLogged_info : IsLogged SeenInfo.look := by
  intro p q
  apply (agree_text? _ _ _).bind_same
  intro cert
  apply (agree_each _ _ _ isLogged_cert).bind_same
  intro responders
  exact .pure rfl

theorem isLogged_authority : IsLogged SeenAuthority.look := by
  intro p q
  apply (agree_text _ _ _).bind_same
  intro name
  apply (agree_part _ _ _).bind
  intro first second _
  apply (isLogged_info _ _).bind_same
  intro top
  apply (agree_each _ _ _ isLogged_info).bind_same
  intro intermediates
  exact .pure rfl

theorem isLogged_classes (version : Version) :
    IsLogged (lookClasses version) := by
  intro p q
  unfold lookClasses
  by_cases hVersion : Version.v2 ≤ version
  · rw [if_pos hVersion, if_pos hVersion]
    apply (agree_part _ _ _).bind
    intro first second _
    apply (agree_each _ _ _ fun _ _ =>
      agree_text _ _ _).bind_same
    intro codes
    exact .pure rfl
  · rw [if_neg hVersion, if_neg hVersion]
    exact .pure rfl

theorem isLogged_shared (version : Version) :
    IsLogged (SeenShared.look version) := by
  intro p q
  apply (isLogged_classes version _ _).bind_same
  intro classes
  apply (agree_each _ _ _ isLogged_member).bind_same
  intro members
  apply (agree_each _ _ _ isLogged_server).bind_same
  intro servers
  apply (agree_each _ _ _ isLogged_group).bind_same
  intro groups
  apply (agree_each _ _ _ isLogged_authority).bind_same
  intro authorities
  apply (agree_each _ _ _ isLogged_cert).bind_same
  intro timestamping
  exact .pure rfl

------------------------------------------------------------
-- Private Parameters
------------------------------------------------------------

theorem isLogged_source (version : Version) :
    IsLogged (SeenSource.look version) := by
  intro p q
  unfold SeenSource.look
  by_cases hFirst : version = .v1
  · rw [if_pos hFirst, if_pos hFirst]
    apply (agree_text? _ _ _).bind_same
    intro cert
    exact .pure rfl
  · rw [if_neg hFirst, if_neg hFirst]
    apply (agree_each _ _ _ isLogged_asText).bind_same
    intro certs
    exact .pure rfl

theorem isLogged_operatorServer :
    IsLogged SeenOperatorServer.look := by
  intro p q
  apply (agree_part _ _ _).bind
  intro first second _
  apply (isLogged_memberKey _ _).bind_same
  intro owner
  apply (agree_text _ _ _).bind_same
  intro code
  exact .pure rfl

/- The operator is looked up in the whole and in a part of it. -/
theorem agree_operator
    (p q management other : Part) :
    Looking.Agree Eq (SeenOperator.look p management)
      (SeenOperator.look q other) := by
  apply (agree_part _ _ _).bind
  intro first second _
  apply (isLogged_memberKey _ _).bind_same
  intro operator
  apply (agree_each _ _ _
    isLogged_operatorServer).bind_same
  intro servers
  apply (agree_part _ _ _).bind
  intro first second _
  apply (isLogged_memberKey _ _).bind_same
  intro provider
  apply (agree_text _ _ _).bind_same
  intro code
  exact .pure rfl

theorem isLogged_private (version : Version) :
    IsLogged (SeenPrivate.look version) := by
  intro p q
  apply (agree_part _ _ _).bind
  intro first second _
  apply (agree_each _ _ _
    (isLogged_source version)).bind_same
  intro sources
  apply (agree_part _ _ _).bind
  intro first second _
  apply (agree_text? _ _ _).bind_same
  intro management
  have hOperator : Looking.Agree Eq
      (lookOperator version p first)
      (lookOperator version q second) := by
    unfold lookOperator
    by_cases hVersion : Version.v2 ≤ version
    · rw [if_pos hVersion, if_pos hVersion]
      apply (agree_operator _ _ _ _).bind_same
      intro operator
      exact .pure rfl
    · rw [if_neg hVersion, if_neg hVersion]
      exact .pure rfl
  apply hOperator.bind_same
  intro operator
  exact .pure rfl

------------------------------------------------------------
-- Documents
------------------------------------------------------------

/- Documents are seen alike if all lookups tell the same of them. -/
theorem result_eq_of_glimpses_eq
    {kind : DocumentKind}
    {version : Version}
    {first second : Json}
    (hSame : (Seen.look kind version first).glimpses =
      (Seen.look kind version second).glimpses) :
    (Seen.look kind version first).result =
      (Seen.look kind version second).result := by
  have hAgree : Looking.Agree Eq
      (Seen.look kind version first)
      (Seen.look kind version second) := by
    cases kind with
    | privateParameters =>
        apply (isLogged_private version _ _).bind_same
        intro seen
        exact .pure rfl
    | sharedParameters =>
        apply (isLogged_shared version _ _).bind_same
        intro seen
        exact .pure rfl
  have hWhole := congrArg (· ++ []) hSame
  exact (hAgree _ _ hWhole).1

end Rules

end Federation
