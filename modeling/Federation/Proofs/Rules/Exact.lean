import Federation.Proofs.Rules.Broken

/-
  The rules of shared parameters find every broken reference
  of a document of the right form, and nothing else.

  Main declarations:
    * `Rules.mem_securityServer_iff`
    * `Rules.mem_globalGroup_iff`
    * `Rules.mem_sharedParameters_iff`
-/

namespace Federation

namespace Rules

------------------------------------------------------------
-- Items at Their Places
------------------------------------------------------------

@[simp] theorem resolve?_at
    (key : String)
    (v : Json) :
    (at_ key).resolve? v = v.get? key :=
  Pointer.resolve?_single _ v

theorem resolve?_index_at
    (key : String)
    (i : Nat)
    (v : Json) :
    ((at_ key).index i).resolve? v = (items key v)[i]? := by
  simp [items_getElem?]

theorem resolve?_classAt
    (i : Nat)
    (document : Json) :
    (classAt i).resolve? document =
      (memberClasses document)[i]? := by
  simp [classAt, memberClasses, items_getElem?, get?_part]

/- The items of a list that a part at a place has. -/
theorem resolve?_item_iff
    {document x : Json}
    {p : Pointer}
    {key : String}
    {j : Nat} :
    ((p.key key).index j).resolve? document = some x ↔
      ∃ v, p.resolve? document = some v ∧
        (items key v)[j]? = some x := by
  simp only [Pointer.resolve?_index, Pointer.resolve?_key,
    items_getElem?, Option.bind_eq_some_iff]
  grind

theorem hasText_key_iff
    {document : Json}
    {p : Pointer}
    {key s : String}
    (hTexts : ∀ v, p.resolve? document = some v →
      HasKeyText v key) :
    HasText document (p.key key) s ↔
      ∃ v, p.resolve? document = some v ∧ text key v = s := by
  rw [HasText, Pointer.resolve?_key, Option.bind_eq_some_iff]
  refine exists_congr fun v => and_congr_right fun hPart => ?_
  rcases hTexts v hPart with ⟨other, hText⟩
  simp [hText, text, Json.asString?]

theorem namesMember_iff
    {document : Json}
    {p : Pointer}
    {key : MemberKey}
    (hNaming : ∀ v, p.resolve? document = some v →
      IsNaming v) :
    NamesMember document p key ↔
      ∃ v, p.resolve? document = some v ∧
        memberKey v = key := by
  have hClass : ∀ s, HasText document (p.key "memberClass") s ↔
      ∃ v, p.resolve? document = some v ∧
        text "memberClass" v = s := fun s =>
    hasText_key_iff fun v hPart =>
      (hNaming v hPart).memberClass
  have hCode : ∀ s, HasText document (p.key "memberCode") s ↔
      ∃ v, p.resolve? document = some v ∧
        text "memberCode" v = s := fun s =>
    hasText_key_iff fun v hPart =>
      (hNaming v hPart).memberCode
  constructor
  · rintro ⟨hFirst, hSecond⟩
    rw [hClass] at hFirst
    rw [hCode] at hSecond
    rcases hFirst with ⟨v, hPart, hFirst⟩
    rcases hSecond with ⟨w, hSame, hSecond⟩
    rw [hPart] at hSame
    cases hSame
    exact ⟨v, hPart, by rw [memberKey, hFirst, hSecond]⟩
  · rintro ⟨v, hPart, rfl⟩
    exact ⟨(hClass _).mpr ⟨v, hPart, rfl⟩,
      (hCode _).mpr ⟨v, hPart, rfl⟩⟩

theorem namesMember_key_iff
    {document : Json}
    {p : Pointer}
    {key : String}
    {member : MemberKey}
    (hNamed : ∀ v, p.resolve? document = some v →
      HasKeyMember v key) :
    NamesMember document (p.key key) member ↔
      ∃ v, p.resolve? document = some v ∧
        memberKey (part key v) = member := by
  have hPart : ∀ w,
      (p.key key).resolve? document = some w ↔
        ∃ v, p.resolve? document = some v ∧
          v.get? key = some w := by
    simp [Option.bind_eq_some_iff]
  rw [namesMember_iff]
  · constructor
    · rintro ⟨w, hWhole, rfl⟩
      rcases (hPart w).mp hWhole with ⟨v, hOuter, hGet⟩
      exact ⟨v, hOuter, by simp [part, hGet]⟩
    · rintro ⟨v, hOuter, rfl⟩
      rcases hNamed v hOuter with ⟨w, hGet, -⟩
      exact ⟨w, (hPart w).mpr ⟨v, hOuter, hGet⟩,
        by simp [part, hGet]⟩
  · intro w hWhole
    rcases (hPart w).mp hWhole with ⟨v, hOuter, hGet⟩
    rcases hNamed v hOuter with ⟨other, hSame, hNaming⟩
    rw [hGet] at hSame
    cases hSame
    exact hNaming

------------------------------------------------------------
-- Classes and Members
------------------------------------------------------------

section Document

variable {version : Version} {document : Json}
variable (hParts : HasSharedParts version document)

include hParts

theorem classText_iff
    (hVersion : Version.v2 ≤ version)
    {i : Nat}
    {code : String} :
    HasText document ((classAt i).key "code") code ↔
      ∃ v, (memberClasses document)[i]? = some v ∧
        text "code" v = code := by
  rw [hasText_key_iff (hParts.classes hVersion i),
    resolve?_classAt]

theorem memberNames_iff
    {i : Nat}
    {key : MemberKey} :
    NamesMember document (memberAt i) key ↔
      ∃ v, (items "members" document)[i]? = some v ∧
        memberKey v = key := by
  rw [namesMember_iff (hParts.members i), memberAt,
    resolve?_index_at]

theorem mem_classes_iff
    {p : Pointer}
    {fault : RuleFault} :
    (p, fault) ∈ classes version document ↔
      Version.v2 ≤ version ∧ ∃ i j code, j < i ∧
        HasText document ((classAt j).key "code") code ∧
        HasText document ((classAt i).key "code") code ∧
        p = (classAt i).key "code" ∧
        fault = .repeatedClass code := by
  unfold classes
  by_cases hVersion : Version.v2 ≤ version
  · rw [if_pos hVersion, mem_overItems_iff]
    simp only [hVersion, true_and, mem_memberClass_iff,
      mem_take_reverse_iff, classText_iff hParts hVersion]
    constructor
    · rintro ⟨i, v, hItem, ⟨y, ⟨j, hBefore, hOther⟩, hSame⟩,
        rfl, rfl⟩
      exact ⟨i, j, _, hBefore, ⟨y, hOther, hSame⟩,
        ⟨v, hItem, rfl⟩, rfl, rfl⟩
    · rintro ⟨i, j, _, hBefore, ⟨y, hOther, hSame⟩,
        ⟨v, hItem, rfl⟩, rfl, rfl⟩
      exact ⟨i, v, hItem, ⟨y, ⟨j, hBefore, hOther⟩, hSame⟩,
        rfl, rfl⟩
  · simp [hVersion]

theorem mem_declaredClasses_iff
    (hVersion : Version.v2 ≤ version)
    {code : String} :
    (∃ classes ∈ declaredClasses version document,
        code ∉ classes) ↔
      ∀ j, ¬ HasText document ((classAt j).key "code") code := by
  have hDeclared :
      code ∈ (memberClasses document).map (text "code") ↔
        ∃ j, HasText document ((classAt j).key "code") code := by
    rw [List.mem_map]
    simp only [classText_iff hParts hVersion,
      List.mem_iff_getElem?]
    grind
  simp only [declaredClasses, if_pos hVersion, Option.mem_def,
    Option.some.injEq, exists_eq_left', hDeclared, not_exists]

theorem memberClass_iff
    {i : Nat}
    {code : String} :
    HasText document ((memberAt i).key "memberClass") code ↔
      ∃ v, (items "members" document)[i]? = some v ∧
        (memberKey v).memberClass = code := by
  rw [hasText_key_iff fun v hPart =>
      (hParts.members i v hPart).memberClass, memberAt,
    resolve?_index_at]
  rfl

theorem mem_members_iff
    {p : Pointer}
    {fault : RuleFault} :
    (p, fault) ∈
        overItems (member (declaredClasses version document))
          (items "members" document) ↔
      (Version.v2 ≤ version ∧ ∃ i code,
        HasText document ((memberAt i).key "memberClass")
          code ∧
        (∀ j, ¬ HasText document ((classAt j).key "code")
          code) ∧
        p = (memberAt i).key "memberClass" ∧
        fault = .undeclaredClass code) ∨
      ∃ i j key, j < i ∧
        NamesMember document (memberAt j) key ∧
        NamesMember document (memberAt i) key ∧
        p = memberAt i ∧ fault = .repeatedMember key := by
  have hUndeclared : ∀ i v,
      (∃ classes ∈ declaredClasses version document,
        (memberKey v).memberClass ∉ classes ∧
        p = ((at_ "members").index i).key "memberClass" ∧
        fault = .undeclaredClass (memberKey v).memberClass) ↔
      Version.v2 ≤ version ∧
        (∀ j, ¬ HasText document ((classAt j).key "code")
          (memberKey v).memberClass) ∧
        p = (memberAt i).key "memberClass" ∧
        fault =
          .undeclaredClass (memberKey v).memberClass := by
    intro i v
    by_cases hVersion : Version.v2 ≤ version
    · rw [← mem_declaredClasses_iff hParts hVersion, memberAt]
      grind
    · simp [declaredClasses, hVersion]
  simp only [mem_overItems_iff, mem_member_iff,
    mem_take_reverse_iff, memberNames_iff hParts, hUndeclared,
    memberClass_iff hParts]
  constructor
  · rintro ⟨i, v, hItem, ⟨hVersion, hNone, rfl, rfl⟩ |
      ⟨⟨y, ⟨j, hBefore, hOther⟩, hSame⟩, rfl, rfl⟩⟩
    · exact Or.inl ⟨hVersion, i, _, ⟨v, hItem, rfl⟩, hNone,
        rfl, rfl⟩
    · exact Or.inr ⟨i, j, _, hBefore, ⟨y, hOther, hSame⟩,
        ⟨v, hItem, rfl⟩, rfl, rfl⟩
  · rintro (⟨hVersion, i, _, ⟨v, hItem, rfl⟩, hNone, rfl,
      rfl⟩ | ⟨i, j, _, hBefore, ⟨y, hOther, hSame⟩,
        ⟨v, hItem, rfl⟩, rfl, rfl⟩)
    · exact ⟨i, v, hItem, Or.inl ⟨hVersion, hNone, rfl, rfl⟩⟩
    · exact ⟨i, v, hItem, Or.inr
        ⟨⟨y, ⟨j, hBefore, hOther⟩, hSame⟩, rfl, rfl⟩⟩

------------------------------------------------------------
-- Clients
------------------------------------------------------------

theorem isListed_iff {key : MemberKey} :
    IsListed document key ↔
      registeredMember? (items "members" document) key ≠
        none := by
  rw [ne_eq, registeredMember?_eq_none_iff]
  simp only [IsListed, memberNames_iff hParts,
    List.mem_iff_getElem?]
  grind

theorem isLastEntry_iff
    {i : Nat}
    {key : MemberKey} :
    IsLastEntry document i key ↔
      ∃ entry, (items "members" document)[i]? = some entry ∧
        memberKey entry = key ∧
        ∀ (j : Nat) (v : Json), i < j →
          (items "members" document)[j]? = some v →
          memberKey v ≠ key := by
  constructor
  · rintro ⟨hNames, hLast⟩
    rcases (memberNames_iff hParts).mp hNames with
      ⟨entry, hItem, hKey⟩
    refine ⟨entry, hItem, hKey, fun j v hAfter hOther hSame =>
      hLast j hAfter ?_⟩
    exact (memberNames_iff hParts).mpr ⟨v, hOther, hSame⟩
  · rintro ⟨entry, hItem, hKey, hLast⟩
    refine ⟨(memberNames_iff hParts).mpr ⟨entry, hItem, hKey⟩,
      fun j hAfter hNames => ?_⟩
    rcases (memberNames_iff hParts).mp hNames with
      ⟨v, hOther, hSame⟩
    exact hLast j v hAfter hOther hSame

omit hParts in
theorem asString?_eq_some_iff
    {v : Json}
    {s : String} :
    v.asString? = some s ↔ v = .string s := by
  cases v <;> simp [Json.asString?]

omit hParts in
theorem hasSubsystem_iff
    {i : Nat}
    {code : String}
    {entry : Json}
    (hItem : (items "members" document)[i]? = some entry) :
    HasSubsystem document i code ↔ code ∈ subsystems entry := by
  rw [subsystems, List.mem_filterMap]
  simp only [HasSubsystem, HasText, resolve?_item_iff, memberAt,
    resolve?_index_at, hItem, Option.some.injEq,
    exists_eq_left', asString?_eq_some_iff, exists_eq_right]
  exact List.mem_iff_getElem?.symm

theorem mem_client_iff_isUnknown
    {p q : Pointer}
    {v : Json}
    {fault : RuleFault}
    (hPlace : IsClientPlace q)
    (hPart : q.resolve? document = some v) :
    (p, fault) ∈ client (items "members" document) q v ↔
      p = q ∧ IsUnknownClient document q fault := by
  have hNames : ∀ key, NamesMember document q key ↔
      memberKey v = key := by
    intro key
    rw [namesMember_iff fun w hOther =>
      hParts.clients q w hPlace hOther]
    simp [hPart]
  have hCode : ∀ code,
      HasText document (q.key "subsystemCode") code ↔
        (v.get? "subsystemCode").bind Json.asString? =
          some code := by
    intro code
    simp [HasText, hPart, Option.bind_eq_some_iff,
      asString?_eq_some_iff]
  rw [mem_client_iff]
  refine and_congr_right fun _ => ?_
  constructor
  · rintro (⟨hNone, rfl⟩ |
      ⟨entry, code, hEntry, hSubsystem, hMissing, rfl⟩)
    · refine .member ((hNames _).mpr rfl) fun hListed => ?_
      exact (isListed_iff hParts).mp hListed hNone
    · rcases registeredMember?_eq_some_iff.mp hEntry with
        ⟨i, hItem, hKey, hLast⟩
      refine .subsystem ((hNames _).mpr rfl)
        ((hCode _).mpr hSubsystem)
        ((isLastEntry_iff hParts).mpr
          ⟨entry, hItem, hKey, hLast⟩) ?_
      rwa [hasSubsystem_iff hItem]
  · intro hUnknown
    cases hUnknown with
    | member hKey hNone =>
        rw [hNames] at hKey
        subst hKey
        refine Or.inl ⟨?_, rfl⟩
        rw [isListed_iff hParts] at hNone
        exact not_not.mp hNone
    | subsystem hKey hText hEntry hMissing =>
        rw [hNames] at hKey
        subst hKey
        rcases (isLastEntry_iff hParts).mp hEntry with
          ⟨entry, hItem, hKey, hLast⟩
        rw [hasSubsystem_iff hItem] at hMissing
        exact Or.inr ⟨entry, _,
          registeredMember?_eq_some_iff.mpr
            ⟨_, hItem, hKey, hLast⟩,
          (hCode _).mp hText, hMissing, rfl⟩

omit hParts in
theorem exists_part_of_isUnknown
    {p : Pointer}
    {fault : RuleFault}
    (hUnknown : IsUnknownClient document p fault) :
    ∃ v, p.resolve? document = some v := by
  have hNames : ∃ key, NamesMember document p key := by
    cases hUnknown with
    | member hNames _ => exact ⟨_, hNames⟩
    | subsystem hNames _ _ _ => exact ⟨_, hNames⟩
  rcases hNames with ⟨key, hClass, -⟩
  rw [HasText, Pointer.resolve?_key, Option.bind_eq_some_iff]
    at hClass
  exact hClass.imp fun v hPart => hPart.1

/- The clients of a part at a place that lists clients. -/
theorem mem_clients_iff
    {p place : Pointer}
    {key : String}
    {v : Json}
    {fault : RuleFault}
    (hPlaces : ∀ j, IsClientPlace ((place.key key).index j))
    (hPart : place.resolve? document = some v) :
    (p, fault) ∈ clients (items "members" document)
        (place.key key) (items key v) ↔
      ∃ j, p = (place.key key).index j ∧
        IsUnknownClient document p fault := by
  have hItem : ∀ j x, (items key v)[j]? = some x ↔
      ((place.key key).index j).resolve? document =
        some x := by
    intro j x
    rw [resolve?_item_iff]
    simp [hPart]
  rw [clients, mem_overItems_iff]
  constructor
  · rintro ⟨j, x, hClient, hFound⟩
    rcases (mem_client_iff_isUnknown hParts (hPlaces j)
      ((hItem j x).mp hClient)).mp hFound with
      ⟨rfl, hUnknown⟩
    exact ⟨j, rfl, hUnknown⟩
  · rintro ⟨j, rfl, hUnknown⟩
    rcases exists_part_of_isUnknown hUnknown with
      ⟨x, hClient⟩
    exact ⟨j, x, (hItem j x).mpr hClient,
      (mem_client_iff_isUnknown hParts (hPlaces j)
        hClient).mpr ⟨rfl, hUnknown⟩⟩

------------------------------------------------------------
-- Security Servers
------------------------------------------------------------

omit hParts in
theorem resolve?_serverAt (i : Nat) :
    (serverAt i).resolve? document =
      (items "securityServers" document)[i]? :=
  resolve?_index_at _ _ _

theorem serverOwner_iff
    {i : Nat}
    {owner : MemberKey} :
    NamesMember document ((serverAt i).key "owner") owner ↔
      ∃ server,
        (items "securityServers" document)[i]? =
          some server ∧
        (serverKey server).1 = owner := by
  rw [namesMember_key_iff (hParts.owners i), resolve?_serverAt]
  rfl

theorem serverNames_iff
    {i : Nat}
    {owner : MemberKey}
    {code : String} :
    NamesServer document i owner code ↔
      ∃ server,
        (items "securityServers" document)[i]? =
          some server ∧
        serverKey server = (owner, code) := by
  have hCode : HasText document
        ((serverAt i).key "serverCode") code ↔
      ∃ server,
        (items "securityServers" document)[i]? =
          some server ∧
        (serverKey server).2 = code := by
    rw [hasText_key_iff (hParts.codes i), resolve?_serverAt]
    rfl
  constructor
  · rintro ⟨hOwner, hText⟩
    rcases (serverOwner_iff hParts).mp hOwner with
      ⟨server, hItem, hFirst⟩
    rcases hCode.mp hText with ⟨other, hSame, hSecond⟩
    rw [hItem] at hSame
    cases hSame
    exact ⟨server, hItem, Prod.ext hFirst hSecond⟩
  · rintro ⟨server, hItem, hKey⟩
    exact ⟨(serverOwner_iff hParts).mpr
      ⟨server, hItem, by rw [hKey]⟩,
      hCode.mpr ⟨server, hItem, by rw [hKey]⟩⟩

omit hParts in
theorem hasText_hashAt_iff
    {i j : Nat}
    {hash : String} :
    HasText document (hashAt i j) hash ↔
      ∃ server,
        (items "securityServers" document)[i]? =
          some server ∧
        (hashes server)[j]? = some (.string hash) := by
  rw [HasText, hashAt, resolve?_item_iff, resolve?_serverAt]
  rfl

omit hParts in
theorem hasHash_iff
    {i : Nat}
    {hash : String} :
    HasHash document i hash ↔
      ∃ server,
        (items "securityServers" document)[i]? =
          some server ∧
        .string hash ∈ hashes server := by
  simp only [HasHash, hasText_hashAt_iff,
    List.mem_iff_getElem?]
  grind

omit hParts in
/- The holder that is told of is the last server before. -/
theorem isHolderBefore_iff
    {i k : Nat}
    {hash : String} :
    IsHolderBefore document i k hash ↔
      holder?
          ((items "securityServers" document).take i).reverse
          (.string hash) =
        some k := by
  rw [holder?_eq_some_iff]
  simp only [List.getElem?_take]
  constructor
  · rintro ⟨hBefore, hHas, hLast⟩
    simp only [hasHash_iff] at hHas hLast
    rw [if_pos hBefore]
    refine ⟨hHas, fun j server hAfter hItem hMem => ?_⟩
    split_ifs at hItem with hLess
    exact hLast j hAfter hLess ⟨server, hItem, hMem⟩
  · rintro ⟨⟨server, hItem, hMem⟩, hLast⟩
    split_ifs at hItem with hBefore
    refine ⟨hBefore, hasHash_iff.mpr ⟨server, hItem, hMem⟩,
      fun j hAfter hLess hHas => ?_⟩
    rcases hasHash_iff.mp hHas with ⟨other, hOther, hOwn⟩
    exact hLast j other hAfter (by rw [if_pos hLess, hOther])
      hOwn

/- The hashes of a server, all of which are different texts. -/
theorem mem_hashes_iff
    {p : Pointer}
    {fault : RuleFault}
    {i : Nat}
    {server : Json}
    (hItem : (items "securityServers" document)[i]? =
      some server) :
    (p, fault) ∈
        overItems
          (certificateHash
            ((items "securityServers" document).take i).reverse
            ((serverAt i).key "authCertHashes"))
          (hashes server) ↔
      ∃ j k hash, HasText document (hashAt i j) hash ∧
        IsHolderBefore document i k hash ∧
        p = hashAt i j ∧ fault = .repeatedCertificate k := by
  rcases hParts.hashes i server
    (by rw [resolve?_serverAt, hItem]) with
    ⟨texts, hTexts, hNodup⟩
  have hFirst : ∀ (j : Nat) (hash : String),
      texts[j]? = some hash →
      Json.string hash ∉
        ((texts.map Json.string).take j).reverse := by
    intro j hash hText hMem
    rcases mem_take_reverse_iff.mp hMem with
      ⟨k, hBefore, hOther⟩
    simp only [List.getElem?_map, Option.map_eq_some_iff,
      Json.string.injEq, exists_eq_right] at hOther
    rcases List.getElem?_eq_some_iff.mp hText with
      ⟨hBound, hFirst⟩
    rcases List.getElem?_eq_some_iff.mp hOther with
      ⟨hLess, hSecond⟩
    exact List.pairwise_iff_getElem.mp hNodup k j hLess hBound
      hBefore (hSecond.trans hFirst.symm)
  simp only [mem_overItems_iff, mem_certificateHash_iff,
    hasText_hashAt_iff, isHolderBefore_iff, hItem,
    Option.some.injEq, exists_eq_left', hTexts,
    List.getElem?_map, Option.map_eq_some_iff,
    Json.string.injEq, exists_eq_right]
  constructor
  · rintro ⟨j, _, ⟨hash, hText, rfl⟩, -, -, rfl, k, hHolder,
      rfl⟩
    exact ⟨j, k, hash, hText, hHolder, rfl, rfl⟩
  · rintro ⟨j, k, hash, hText, hHolder, rfl, rfl⟩
    exact ⟨j, _, ⟨hash, hText, rfl⟩, rfl, hFirst j hash hText,
      rfl, k, hHolder, rfl⟩

/- What the rule of servers finds in the server at a place. -/
theorem mem_securityServer_iff
    {p : Pointer}
    {fault : RuleFault}
    {i : Nat}
    {server : Json}
    (hItem : (items "securityServers" document)[i]? =
      some server) :
    (p, fault) ∈
        securityServer (items "members" document)
          ((items "securityServers" document).take i).reverse i
          server ↔
      (∃ owner,
        NamesMember document ((serverAt i).key "owner") owner ∧
        ¬ IsListed document owner ∧
        p = (serverAt i).key "owner" ∧
        fault = .unknownOwner owner) ∨
      (∃ j owner code, j < i ∧
        NamesServer document j owner code ∧
        NamesServer document i owner code ∧
        p = (serverAt i).key "serverCode" ∧
        fault = .repeatedServer owner code) ∨
      (∃ j k hash, HasText document (hashAt i j) hash ∧
        IsHolderBefore document i k hash ∧
        p = hashAt i j ∧ fault = .repeatedCertificate k) ∨
      ∃ j, p = ((serverAt i).key "clients").index j ∧
        IsUnknownClient document p fault := by
  have hPlace : (serverAt i).resolve? document =
      some server := by
    rw [resolve?_serverAt, hItem]
  have hOwner : ∀ owner,
      NamesMember document ((serverAt i).key "owner") owner ↔
        (serverKey server).1 = owner := by
    simp [serverOwner_iff hParts, hItem]
  have hNames : ∀ owner code,
      NamesServer document i owner code ↔
        serverKey server = (owner, code) := by
    simp [serverNames_iff hParts, hItem]
  simp only [securityServer, List.mem_append, or_assoc,
    mem_whenever_iff]
  refine or_congr ?_ (or_congr ?_ (or_congr ?_ ?_))
  · simp only [hOwner, isListed_iff hParts, exists_eq_left',
      Option.isNone_iff_eq_none, not_not, Prod.mk.injEq]
    rfl
  · simp only [hNames, serverNames_iff hParts,
      List.contains_eq_mem, List.mem_map,
      mem_take_reverse_iff, decide_eq_true_eq, Prod.mk.injEq]
    constructor
    · rintro ⟨⟨other, ⟨j, hBefore, hOther⟩, hSame⟩, rfl, rfl⟩
      exact ⟨j, _, _, hBefore, ⟨other, hOther, hSame⟩, rfl,
        rfl, rfl⟩
    · rintro ⟨j, owner, code, hBefore,
        ⟨other, hOther, hSame⟩, hKey, rfl, rfl⟩
      rw [hKey]
      exact ⟨⟨other, ⟨j, hBefore, hOther⟩, hSame⟩, rfl, rfl⟩
  · exact mem_hashes_iff hParts hItem
  · exact mem_clients_iff hParts (fun j => .ofServer i j)
      hPlace

/- What it finds in any of the servers of a document. -/
theorem mem_securityServers_iff
    {p : Pointer}
    {fault : RuleFault} :
    (p, fault) ∈
        overItems (securityServer (items "members" document))
          (items "securityServers" document) ↔
      (∃ i owner,
        NamesMember document ((serverAt i).key "owner") owner ∧
        ¬ IsListed document owner ∧
        p = (serverAt i).key "owner" ∧
        fault = .unknownOwner owner) ∨
      (∃ i j owner code, j < i ∧
        NamesServer document j owner code ∧
        NamesServer document i owner code ∧
        p = (serverAt i).key "serverCode" ∧
        fault = .repeatedServer owner code) ∨
      (∃ i j k hash, HasText document (hashAt i j) hash ∧
        IsHolderBefore document i k hash ∧
        p = hashAt i j ∧ fault = .repeatedCertificate k) ∨
      ∃ i j, p = ((serverAt i).key "clients").index j ∧
        IsUnknownClient document p fault := by
  rw [mem_overItems_iff]
  constructor
  · rintro ⟨i, server, hItem, hFound⟩
    rcases (mem_securityServer_iff hParts hItem).mp hFound
      with hOwner | hServer | hHash | hClient
    · exact Or.inl ⟨i, hOwner⟩
    · exact Or.inr (Or.inl ⟨i, hServer⟩)
    · exact Or.inr (Or.inr (Or.inl ⟨i, hHash⟩))
    · exact Or.inr (Or.inr (Or.inr ⟨i, hClient⟩))
  -- What is broken has its server at the index that it names.
  · rintro (⟨i, owner, hOwner, hRest⟩ |
      ⟨i, j, owner, code, hBefore, hOther, hOwn, hRest⟩ |
      ⟨i, j, k, hash, hText, hRest⟩ | ⟨i, j, rfl, hUnknown⟩)
    · rcases (serverOwner_iff hParts).mp hOwner with
        ⟨server, hItem, -⟩
      refine ⟨i, server, hItem, ?_⟩
      rw [mem_securityServer_iff hParts hItem]
      exact Or.inl ⟨owner, hOwner, hRest⟩
    · rcases (serverNames_iff hParts).mp hOwn with
        ⟨server, hItem, -⟩
      refine ⟨i, server, hItem, ?_⟩
      rw [mem_securityServer_iff hParts hItem]
      exact Or.inr (Or.inl
        ⟨j, owner, code, hBefore, hOther, hOwn, hRest⟩)
    · rcases hasText_hashAt_iff.mp hText with
        ⟨server, hItem, -⟩
      refine ⟨i, server, hItem, ?_⟩
      rw [mem_securityServer_iff hParts hItem]
      exact Or.inr (Or.inr (Or.inl
        ⟨j, k, hash, hText, hRest⟩))
    · rcases exists_part_of_isUnknown hUnknown with
        ⟨x, hClient⟩
      rcases resolve?_item_iff.mp hClient with
        ⟨server, hItem, -⟩
      rw [resolve?_serverAt] at hItem
      refine ⟨i, server, hItem, ?_⟩
      rw [mem_securityServer_iff hParts hItem]
      exact Or.inr (Or.inr (Or.inr ⟨j, rfl, hUnknown⟩))

------------------------------------------------------------
-- Groups and Authorities
------------------------------------------------------------

theorem groupText_iff
    {i : Nat}
    {code : String} :
    HasText document ((groupAt i).key "groupCode") code ↔
      ∃ v, (items "globalGroups" document)[i]? = some v ∧
        text "groupCode" v = code := by
  rw [hasText_key_iff (hParts.groups i), groupAt,
    resolve?_index_at]

theorem authorityText_iff
    {i : Nat}
    {name : String} :
    HasText document ((authorityAt i).key "name") name ↔
      ∃ v, (items "approvedCAs" document)[i]? = some v ∧
        text "name" v = name := by
  rw [hasText_key_iff (hParts.authorities i), authorityAt,
    resolve?_index_at]

/- What the rule of groups finds in the group at a place. -/
theorem mem_globalGroup_iff
    {p : Pointer}
    {fault : RuleFault}
    {i : Nat}
    {group : Json}
    (hItem : (items "globalGroups" document)[i]? =
      some group) :
    (p, fault) ∈
        globalGroup (items "members" document)
          ((items "globalGroups" document).take i).reverse i
          group ↔
      (∃ j code, j < i ∧
        HasText document ((groupAt j).key "groupCode") code ∧
        HasText document ((groupAt i).key "groupCode") code ∧
        p = (groupAt i).key "groupCode" ∧
        fault = .repeatedGroup code) ∨
      ∃ j, p = ((groupAt i).key "members").index j ∧
        IsUnknownClient document p fault := by
  have hPlace : (groupAt i).resolve? document = some group := by
    rw [groupAt, resolve?_index_at, hItem]
  simp only [globalGroup, List.mem_append, mem_whenever_iff]
  refine or_congr ?_ ?_
  · simp only [groupText_iff hParts, List.contains_eq_mem,
      List.mem_map, mem_take_reverse_iff, decide_eq_true_eq,
      Prod.mk.injEq, hItem, Option.some.injEq,
      exists_eq_left']
    constructor
    · rintro ⟨⟨other, ⟨j, hBefore, hOther⟩, hSame⟩, rfl, rfl⟩
      exact ⟨j, _, hBefore, ⟨other, hOther, hSame⟩, rfl, rfl,
        rfl⟩
    · rintro ⟨j, _, hBefore, ⟨other, hOther, hSame⟩, rfl, rfl,
        rfl⟩
      exact ⟨⟨other, ⟨j, hBefore, hOther⟩, hSame⟩, rfl, rfl⟩
  · exact mem_clients_iff hParts (fun j => .ofGroup i j)
      hPlace

/- What it finds in any of the groups of a document. -/
theorem mem_globalGroups_iff
    {p : Pointer}
    {fault : RuleFault} :
    (p, fault) ∈
        overItems (globalGroup (items "members" document))
          (items "globalGroups" document) ↔
      (∃ i j code, j < i ∧
        HasText document ((groupAt j).key "groupCode") code ∧
        HasText document ((groupAt i).key "groupCode") code ∧
        p = (groupAt i).key "groupCode" ∧
        fault = .repeatedGroup code) ∨
      ∃ i j, p = ((groupAt i).key "members").index j ∧
        IsUnknownClient document p fault := by
  rw [mem_overItems_iff]
  constructor
  · rintro ⟨i, group, hItem, hFound⟩
    rcases (mem_globalGroup_iff hParts hItem).mp hFound with
      hCode | hClient
    · exact Or.inl ⟨i, hCode⟩
    · exact Or.inr ⟨i, hClient⟩
  · rintro (⟨i, j, code, hBefore, hOther, hOwn, hRest⟩ |
      ⟨i, j, rfl, hUnknown⟩)
    · rcases (groupText_iff hParts).mp hOwn with
        ⟨group, hItem, -⟩
      refine ⟨i, group, hItem, ?_⟩
      rw [mem_globalGroup_iff hParts hItem]
      exact Or.inl ⟨j, code, hBefore, hOther, hOwn, hRest⟩
    · rcases exists_part_of_isUnknown hUnknown with
        ⟨x, hClient⟩
      rcases resolve?_item_iff.mp hClient with
        ⟨group, hItem, -⟩
      rw [groupAt, resolve?_index_at] at hItem
      refine ⟨i, group, hItem, ?_⟩
      rw [mem_globalGroup_iff hParts hItem]
      exact Or.inr ⟨j, rfl, hUnknown⟩

theorem mem_authorities_iff_of_reference
    {p : Pointer}
    {fault : RuleFault}
    (hFault : ¬ fault.IsOfCertificate) :
    (p, fault) ∈
        overItems authority (items "approvedCAs" document) ↔
      ∃ i j name, j < i ∧
        HasText document ((authorityAt j).key "name") name ∧
        HasText document ((authorityAt i).key "name") name ∧
        p = (authorityAt i).key "name" ∧
        fault = .repeatedAuthority name := by
  have hNone : ∀ place v,
      (p, fault) ∉ authorityCertificates place v := by
    intro place v hFound
    rcases mem_authorityCertificates_iff.mp hFound with
      ⟨q, -, -, encoded, -, hFailing⟩
    exact hFault hFailing.isOfCertificate
  have hInfos : ∀ (place : Nat → Pointer) (infos : List Json),
      (p, fault) ∉ overItems
        (fun _ k info => authorityCertificates (place k) info)
        infos := by
    intro place infos hFound
    rcases mem_overItems_iff.mp hFound with ⟨k, info, -, hInfo⟩
    exact hNone _ _ hInfo
  simp only [mem_overItems_iff, authority, List.mem_append,
    hNone, hInfos, or_false, mem_whenever_iff,
    authorityText_iff hParts, List.contains_eq_mem,
    List.mem_map, mem_take_reverse_iff, decide_eq_true_eq,
    Prod.mk.injEq]
  constructor
  · rintro ⟨i, v, hItem, ⟨other, ⟨j, hBefore, hOther⟩, hSame⟩,
      rfl, rfl⟩
    exact ⟨i, j, _, hBefore, ⟨other, hOther, hSame⟩,
      ⟨v, hItem, rfl⟩, rfl, rfl⟩
  · rintro ⟨i, j, _, hBefore, ⟨other, hOther, hSame⟩,
      ⟨v, hItem, rfl⟩, rfl, rfl⟩
    exact ⟨i, v, hItem, ⟨other, ⟨j, hBefore, hOther⟩, hSame⟩,
      rfl, rfl⟩

------------------------------------------------------------
-- Documents
------------------------------------------------------------

theorem isBroken_of_mem
    {p : Pointer}
    {fault : RuleFault}
    (hFault : ¬ fault.IsOfCertificate)
    (hFound :
      (p, fault) ∈ sharedParameters version document) :
    IsBroken version document p fault := by
  simp only [sharedParameters, List.mem_append, or_assoc,
    mem_classes_iff hParts, mem_members_iff hParts,
    mem_securityServers_iff hParts,
    mem_globalGroups_iff hParts,
    mem_authorities_iff_of_reference hParts hFault] at hFound
  rcases hFound with
    ⟨hVersion, i, j, code, hBefore, hOther, hOwn, rfl, rfl⟩ |
    ⟨hVersion, i, code, hOwn, hNone, rfl, rfl⟩ |
    ⟨i, j, key, hBefore, hOther, hOwn, rfl, rfl⟩ |
    ⟨i, owner, hOwner, hNone, rfl, rfl⟩ |
    ⟨i, j, owner, code, hBefore, hOther, hOwn, rfl, rfl⟩ |
    ⟨i, j, k, hash, hText, hHolder, rfl, rfl⟩ |
    ⟨i, j, rfl, hUnknown⟩ |
    ⟨i, j, code, hBefore, hOther, hOwn, rfl, rfl⟩ |
    ⟨i, j, rfl, hUnknown⟩ |
    ⟨i, j, name, hBefore, hOther, hOwn, rfl, rfl⟩ |
    hTimestamping
  · exact .repeatedClass hVersion hBefore hOther hOwn
  · exact .undeclaredClass hVersion hOwn hNone
  · exact .repeatedMember hBefore hOther hOwn
  · exact .unknownOwner hOwner hNone
  · exact .repeatedServer hBefore hOther hOwn
  · exact .repeatedCertificate hText hHolder
  · exact .client (.ofServer i j) hUnknown
  · exact .repeatedGroup hBefore hOther hOwn
  · exact .client (.ofGroup i j) hUnknown
  · exact .repeatedAuthority hBefore hOther hOwn
  · rcases mem_overItems_iff.mp hTimestamping with
      ⟨i, v, -, hFound⟩
    rw [timestamping, mem_certificate_of_key_iff] at hFound
    rcases hFound with ⟨-, encoded, -, hFailing⟩
    exact absurd hFailing.isOfCertificate hFault

theorem mem_of_isBroken
    {p : Pointer}
    {fault : RuleFault}
    (hFault : ¬ fault.IsOfCertificate)
    (hBroken : IsBroken version document p fault) :
    (p, fault) ∈ sharedParameters version document := by
  rw [sharedParameters, List.mem_append, List.mem_append,
    List.mem_append, List.mem_append, List.mem_append,
    mem_classes_iff hParts, mem_members_iff hParts,
    mem_securityServers_iff hParts,
    mem_globalGroups_iff hParts,
    mem_authorities_iff_of_reference hParts hFault]
  cases hBroken with
  | repeatedClass hVersion hBefore hOther hOwn =>
      left; left; left; left; left
      exact ⟨hVersion, _, _, _, hBefore, hOther, hOwn, rfl,
        rfl⟩
  | undeclaredClass hVersion hOwn hNone =>
      left; left; left; left; right
      exact Or.inl ⟨hVersion, _, _, hOwn, hNone, rfl, rfl⟩
  | repeatedMember hBefore hOther hOwn =>
      left; left; left; left; right
      exact Or.inr ⟨_, _, _, hBefore, hOther, hOwn, rfl, rfl⟩
  | unknownOwner hOwner hNone =>
      left; left; left; right
      exact Or.inl ⟨_, _, hOwner, hNone, rfl, rfl⟩
  | repeatedServer hBefore hOther hOwn =>
      left; left; left; right
      exact Or.inr (Or.inl
        ⟨_, _, _, _, hBefore, hOther, hOwn, rfl, rfl⟩)
  | repeatedCertificate hText hHolder =>
      left; left; left; right
      exact Or.inr (Or.inr (Or.inl
        ⟨_, _, _, _, hText, hHolder, rfl, rfl⟩))
  | client hPlace hUnknown =>
      cases hPlace with
      | ofServer i j =>
          left; left; left; right
          exact Or.inr (Or.inr (Or.inr ⟨i, j, rfl, hUnknown⟩))
      | ofGroup i j =>
          left; left; right
          exact Or.inr ⟨i, j, rfl, hUnknown⟩
  | repeatedGroup hBefore hOther hOwn =>
      left; left; right
      exact Or.inl ⟨_, _, _, hBefore, hOther, hOwn, rfl, rfl⟩
  | repeatedAuthority hBefore hOther hOwn =>
      left; right
      exact ⟨_, _, _, hBefore, hOther, hOwn, rfl, rfl⟩
  | certificate hField hFailing =>
      rcases hFailing with ⟨encoded, -, hFailing⟩
      exact absurd hFailing.isOfCertificate hFault

/- The rules find exactly the broken references. -/
theorem mem_sharedParameters_iff
    {p : Pointer}
    {fault : RuleFault} :
    (p, fault) ∈ sharedParameters version document ↔
      IsBroken version document p fault := by
  by_cases hFault : fault.IsOfCertificate
  · rw [mem_shared_iff_of_certificate hFault]
    constructor
    · rintro ⟨hField, hFailing⟩
      exact .certificate hField hFailing
    · intro hBroken
      cases hBroken with
      | certificate hField hFailing =>
          exact ⟨hField, hFailing⟩
      | client hPlace hUnknown =>
          cases hUnknown <;>
            simp [RuleFault.IsOfCertificate] at hFault
      | _ => simp [RuleFault.IsOfCertificate] at hFault
  · exact ⟨isBroken_of_mem hParts hFault,
      mem_of_isBroken hParts hFault⟩

end Document

end Rules

end Federation
