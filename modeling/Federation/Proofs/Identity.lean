import Federation.Generation.Content
import Federation.Proofs.Sorting

/-
  The orders of identifiers: members are compared by class and
  code, clients by member and subsystem, servers by owner and
  code. Each order is total, and identifiers that are equal in
  it are the same.

  Main declarations:
    * `MemberId.compare` is lawful
    * `ClientId.compare` is lawful
    * `Content.compareServerKeys` is lawful
-/

namespace Federation

------------------------------------------------------------
-- Pairs of Orders
------------------------------------------------------------

section Then

variable {α : Type} {first second : α → α → Ordering}

theorem transCmp_then
    (hFirst : Std.TransCmp first)
    (hSecond : Std.TransCmp second) :
    Std.TransCmp fun a b => (first a b).then (second a b) :=
  inferInstanceAs (Std.TransCmp (compareLex first second))

end Then

------------------------------------------------------------
-- Members
------------------------------------------------------------

namespace MemberId

instance : Std.TransCmp MemberId.compare :=
  transCmp_then (transCmp_on Ord.compare memberClass)
    (transCmp_on Ord.compare memberCode)

instance : Std.LawfulEqCmp MemberId.compare where
  compare_self {a} := by simp [MemberId.compare]
  eq_of_compare {a b} hSame := by
    rw [MemberId.compare, Ordering.then_eq_eq] at hSame
    rcases hSame with ⟨hClass, hCode⟩
    cases a
    cases b
    cases Std.LawfulEqCmp.eq_of_compare hClass
    cases Std.LawfulEqCmp.eq_of_compare hCode
    rfl

end MemberId

------------------------------------------------------------
-- Clients
------------------------------------------------------------

namespace ClientId

theorem compareCodes_eq :
    compareCodes = Ord.compare := by
  funext a b
  cases a <;> cases b <;> rfl

instance : Std.TransCmp ClientId.compare := by
  refine transCmp_then
    (transCmp_on MemberId.compare member) ?_
  rw [compareCodes_eq]
  exact transCmp_on Ord.compare subsystemCode

instance : Std.LawfulEqCmp ClientId.compare where
  compare_self {a} := by
    simp [ClientId.compare, compareCodes_eq]
  eq_of_compare {a b} hSame := by
    rw [ClientId.compare, Ordering.then_eq_eq,
      compareCodes_eq] at hSame
    rcases hSame with ⟨hMember, hCode⟩
    cases a
    cases b
    cases Std.LawfulEqCmp.eq_of_compare hMember
    cases Std.LawfulEqCmp.eq_of_compare hCode
    rfl

end ClientId

------------------------------------------------------------
-- Security Servers
------------------------------------------------------------

namespace Content

/- The owner and the code of a server, by which it is ordered. -/
def serverKey (s : SecurityServer) : MemberId × String :=
  (s.owner, s.serverCode)

/- Owners are compared before codes. -/
def compareServerKeys (a b : MemberId × String) : Ordering :=
  (a.1.compare b.1).then (Ord.compare a.2 b.2)

theorem sortServers_eq (servers : List SecurityServer) :
    sortServers servers =
      sortBy (fun a b => compareServerKeys (serverKey a)
        (serverKey b)) servers :=
  rfl

instance : Std.TransCmp compareServerKeys :=
  transCmp_then (transCmp_on MemberId.compare Prod.fst)
    (transCmp_on Ord.compare Prod.snd)

instance : Std.LawfulEqCmp compareServerKeys where
  compare_self {a} := by simp [compareServerKeys]
  eq_of_compare {a b} hSame := by
    rw [compareServerKeys, Ordering.then_eq_eq] at hSame
    rcases hSame with ⟨hOwner, hCode⟩
    exact Prod.ext (Std.LawfulEqCmp.eq_of_compare hOwner)
      (Std.LawfulEqCmp.eq_of_compare hCode)

end Content

end Federation
