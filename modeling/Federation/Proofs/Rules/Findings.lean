import Federation.Proofs.Rules.Places
import Federation.Rules.Shared

/-
  What each rule of shared parameters finds in one item, given
  the items before it.

  Main declarations:
    * `Rules.registeredMember?_eq_some_iff`
    * `Rules.holder?_eq_some_iff`
    * `Rules.mem_client_iff`
    * `Rules.mem_certificateHash_iff`
-/

namespace Federation

namespace Rules

------------------------------------------------------------
-- The Last of a List
------------------------------------------------------------

section Last

variable {α : Type} {xs : List α} {test : α → Bool}

/- No item from a place on passes a test. -/
def NoneAfter
    (test : α → Bool)
    (xs : List α)
    (i : Nat) : Prop :=
  ∀ j y, i < j → xs[j]? = some y → test y = false

/- The first item of the reverse that passes is the last one. -/
theorem findIdx?_reverse_eq_some_iff {d : Nat} :
    xs.reverse.findIdx? test = some d ↔
      d < xs.length ∧
        (∃ x, xs[xs.length - 1 - d]? = some x ∧
          test x = true) ∧
        NoneAfter test xs (xs.length - 1 - d) := by
  rw [List.findIdx?_eq_some_iff_getElem]
  simp only [List.length_reverse, List.getElem_reverse]
  constructor
  · rintro ⟨hLess, hTest, hBefore⟩
    refine ⟨hLess, ⟨_, List.getElem?_eq_getElem _, hTest⟩, ?_⟩
    intro j y hAfter hItem
    rcases List.getElem?_eq_some_iff.mp hItem with
      ⟨hBound, rfl⟩
    have hPlace : xs.length - 1 - (xs.length - 1 - j) = j := by
      omega
    have hFails := hBefore (xs.length - 1 - j) (by omega)
    simpa [hPlace] using hFails
  · rintro ⟨hLess, ⟨x, hItem, hTest⟩, hAfter⟩
    rcases List.getElem?_eq_some_iff.mp hItem with
      ⟨hBound, rfl⟩
    refine ⟨hLess, hTest, fun j hBefore => ?_⟩
    have hFails := hAfter (xs.length - 1 - j) _ (by omega)
      (List.getElem?_eq_getElem (by omega))
    simp [hFails]

theorem find?_reverse_eq_some_iff {x : α} :
    xs.reverse.find? test = some x ↔
      ∃ i, xs[i]? = some x ∧ test x = true ∧
        NoneAfter test xs i := by
  simp only [List.find?_eq_bind_findIdx?_getElem?,
    Option.bind_eq_some_iff, findIdx?_reverse_eq_some_iff]
  constructor
  · rintro ⟨d, ⟨hLess, ⟨y, hItem, hTest⟩, hAfter⟩, hFound⟩
    rw [List.getElem?_reverse hLess, hItem] at hFound
    cases hFound
    exact ⟨_, hItem, hTest, hAfter⟩
  · rintro ⟨i, hItem, hTest, hAfter⟩
    have hBound : i < xs.length :=
      (List.getElem?_eq_some_iff.mp hItem).1
    have hPlace : xs.length - 1 - (xs.length - 1 - i) = i := by
      omega
    refine ⟨xs.length - 1 - i, ⟨by omega, ?_, ?_⟩, ?_⟩
    · exact ⟨x, by rw [hPlace, hItem], hTest⟩
    · rwa [hPlace]
    · rw [List.getElem?_reverse (by omega), hPlace, hItem]

end Last

------------------------------------------------------------
-- Members
------------------------------------------------------------

theorem mem_memberClass_iff
    {p : Pointer}
    {earlier : List Json}
    {i : Nat}
    {v : Json}
    {fault : RuleFault} :
    (p, fault) ∈ memberClass earlier i v ↔
      (∃ y ∈ earlier, text "code" y = text "code" v) ∧
        p = (((at_ "globalSettings").key
          "memberClasses").index i).key "code" ∧
        fault = .repeatedClass (text "code" v) := by
  simp [memberClass]

theorem mem_member_iff
    {p : Pointer}
    {declared : Option (List String)}
    {earlier : List Json}
    {i : Nat}
    {v : Json}
    {fault : RuleFault} :
    (p, fault) ∈ member declared earlier i v ↔
      (∃ classes ∈ declared,
        (memberKey v).memberClass ∉ classes ∧
          p = ((at_ "members").index i).key "memberClass" ∧
          fault =
            .undeclaredClass (memberKey v).memberClass) ∨
      ((∃ y ∈ earlier, memberKey y = memberKey v) ∧
        p = (at_ "members").index i ∧
        fault = .repeatedMember (memberKey v)) := by
  cases declared <;> simp [member]

/-
  The entry that a member is looked up by is the last one of
  its class and code.
-/
theorem registeredMember?_eq_some_iff
    {members : List Json}
    {key : MemberKey}
    {entry : Json} :
    registeredMember? members key = some entry ↔
      ∃ i, members[i]? = some entry ∧
        memberKey entry = key ∧
        ∀ (j : Nat) (v : Json), i < j → members[j]? = some v →
          memberKey v ≠ key := by
  simp [registeredMember?, find?_reverse_eq_some_iff,
    NoneAfter]

theorem registeredMember?_eq_none_iff
    {members : List Json}
    {key : MemberKey} :
    registeredMember? members key = none ↔
      ∀ v ∈ members, memberKey v ≠ key := by
  simp [registeredMember?]

------------------------------------------------------------
-- Clients
------------------------------------------------------------

/- A client without a member, or without its subsystem. -/
theorem mem_client_iff
    {p place : Pointer}
    {members : List Json}
    {v : Json}
    {fault : RuleFault} :
    (p, fault) ∈ client members place v ↔
      p = place ∧
        ((registeredMember? members (memberKey v) = none ∧
            fault = .unknownMember (memberKey v)) ∨
          ∃ entry code,
            registeredMember? members (memberKey v) =
                some entry ∧
              (v.get? "subsystemCode").bind Json.asString? =
                some code ∧
              code ∉ subsystems entry ∧
              fault = .unknownSubsystem code (memberKey v)) := by
  cases hEntry : registeredMember? members (memberKey v) with
  | none => simp [client, hEntry]
  | some entry =>
      cases hCode :
          (v.get? "subsystemCode").bind Json.asString? with
      | none => simp [client, hEntry, hCode]
      | some code =>
          simp [client, hEntry, hCode, and_left_comm]

------------------------------------------------------------
-- Security Servers
------------------------------------------------------------

/- The holder of a hash is the last server that has it. -/
theorem holder?_eq_some_iff
    {servers : List Json}
    {k : Nat}
    {hash : Json} :
    holder? servers.reverse hash = some k ↔
      (∃ server, servers[k]? = some server ∧
        hash ∈ hashes server) ∧
      ∀ (j : Nat) (server : Json), k < j →
        servers[j]? = some server →
        hash ∉ hashes server := by
  simp only [holder?, Option.map_eq_some_iff,
    findIdx?_reverse_eq_some_iff, List.length_reverse,
    NoneAfter, List.contains_eq_mem, decide_eq_true_eq,
    decide_eq_false_iff_not]
  constructor
  · rintro ⟨d, ⟨-, hHas, hAfter⟩, rfl⟩
    exact ⟨hHas, hAfter⟩
  · rintro ⟨⟨server, hItem, hHas⟩, hAfter⟩
    have hBound : k < servers.length :=
      (List.getElem?_eq_some_iff.mp hItem).1
    have hPlace : servers.length - 1 -
        (servers.length - 1 - k) = k := by
      omega
    refine ⟨servers.length - 1 - k, ⟨by omega, ?_, ?_⟩,
      hPlace⟩
    · exact ⟨server, by rw [hPlace, hItem], hHas⟩
    · rwa [hPlace]

theorem mem_certificateHash_iff
    {p place : Pointer}
    {servers earlier : List Json}
    {j : Nat}
    {hash : Json}
    {fault : RuleFault} :
    (p, fault) ∈ certificateHash servers place earlier j hash ↔
      hash.asString?.isSome ∧ hash ∉ earlier ∧
        p = place.index j ∧
        ∃ k, holder? servers hash = some k ∧
          fault = .repeatedCertificate k := by
  unfold certificateHash
  cases hash.asString? with
  | none => simp
  | some s =>
      by_cases hKnown : hash ∈ earlier
      · simp [hKnown]
      · cases hHolder : holder? servers hash <;>
          simp [hKnown, and_comm]

end Rules

end Federation
