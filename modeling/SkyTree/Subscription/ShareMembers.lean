import SkyTree.Subscription.Reads

/-!
# The members of a share group

The members are collected from all shards and kept once per text `client|filter`. Client
identifiers and filters may contain the separator, so two members can have one text.
-/

namespace SkyTree.Subscription

open Foundation List

namespace MemorySubCenter

variable {center : MemorySubCenter} {group : String}

def ShareMember (center : MemorySubCenter) (group : String) (member : ClientID × String) : Prop :=
  ∃ shardKey core, center.shards.lookup shardKey = some core ∧
    ∃ option ∈ core.topicsOf member.1, SharedText option.topic group member.2

def MemberLt (first second : ClientID × String) : Prop :=
  first.1.toList < second.1.toList ∨ first.1 = second.1 ∧ first.2.toList < second.2.toList

def ListsMembers (center : MemorySubCenter) (group : String) : Prop :=
  ∀ answer ∈ center.answers (.shareGroupMembers group), ∃ members,
    answer = .members members ∧ members.Pairwise MemberLt ∧
      ∀ member, member ∈ members ↔ center.ShareMember group member

theorem mem_shareMembers {core : SubCore} {member : ClientID × String} :
    member ∈ core.shareMembers group ↔
      ∃ option ∈ core.topicsOf member.1, SharedText option.topic group member.2 := by
  obtain ⟨clientID, filter⟩ := member
  simp only [SubCore.shareMembers, mem_flatMap, mem_filterMap,
    ← parseSharedSubscription_eq_some_iff]
  constructor
  · rintro ⟨⟨client, topics⟩, hc, opt, ho, hp⟩
    split at hp
    · rename_i parsed actual he
      split_ifs at hp with hg
      cases hp
      cases hg
      refine ⟨opt, ?_, he⟩
      rw [SubCore.topicsOf, Assoc.lookup_eq_some_iff.mpr hc]
      exact ho
    · cases hp
  · rintro ⟨opt, ho, hp⟩
    cases hf : core.clients.lookup clientID with
    | none => simp [SubCore.topicsOf, hf] at ho
    | some topics =>
      rw [SubCore.topicsOf, hf] at ho
      exact ⟨(clientID, topics), Assoc.lookup_eq_some_iff.mp hf, opt, ho, by simp [hp]⟩

theorem mem_shardMembers {order : List String} (ho : order.Perm center.shardKeys)
    {member : ClientID × String} :
    member ∈ center.foundMembers order group ↔ center.ShareMember group member := by
  simp only [foundMembers, mem_flatMap, shardsAt, mem_filterMap, mem_shareMembers]
  constructor
  · rintro ⟨core, ⟨key, -, hf⟩, hm⟩
    exact ⟨key, core, hf, hm⟩
  · rintro ⟨key, core, hf, hm⟩
    have hk : key ∈ center.shardKeys :=
      mem_map.mpr ⟨(key, core), Assoc.lookup_eq_some_iff.mp hf, rfl⟩
    exact ⟨core, ⟨key, ho.mem_iff.mpr hk, hf⟩, hm⟩

/-! ## One member per text -/

def memberKey (member : ClientID × String) : String := member.1 ++ "|" ++ member.2

def MemberLe (first second : ClientID × String) : Prop :=
  first.1.toList < second.1.toList ∨ first.1 = second.1 ∧ first.2.toList ≤ second.2.toList

instance : DecidableRel MemberLe := fun _ _ => inferInstanceAs (Decidable (_ ∨ _))

instance : Std.Total MemberLe where
  total first second := by
    rcases lt_trichotomy first.1.toList second.1.toList with hl | he | hl
    · exact .inl (.inl hl)
    · rw [String.toList_inj] at he
      rcases le_total first.2.toList second.2.toList with hs | hs
      · exact .inl (.inr ⟨he, hs⟩)
      · exact .inr (.inr ⟨he.symm, hs⟩)
    · exact .inr (.inl hl)

instance : IsTrans (ClientID × String) MemberLe where
  trans first second third := by
    rintro (hl | ⟨he, hs⟩) (hm | ⟨hf, ht⟩)
    · exact .inl (hl.trans hm)
    · exact .inl (hf ▸ hl)
    · exact .inl (he ▸ hm)
    · exact .inr ⟨he.trans hf, hs.trans ht⟩

theorem sortedMembers_spec (found : List (ClientID × String)) :
    (sortedMembers found).Pairwise MemberLt ∧ ((sortedMembers found).map memberKey).Nodup ∧
      (∀ member ∈ sortedMembers found, member ∈ found) ∧
      ∀ member ∈ found, memberKey member ∈ (sortedMembers found).map memberKey := by
  obtain ⟨hn, hf, hc⟩ :=
    foldl_keep_first memberKey found (show (List.map memberKey []).Nodup from nodup_nil)
  have hp : (sortedMembers found).Perm _ := perm_insertionSort MemberLe _
  have hs : (sortedMembers found).Pairwise MemberLe := pairwise_insertionSort MemberLe _
  have hu := (hp.map memberKey).nodup_iff.mpr hn
  refine ⟨(hs.and hu.of_map).imp ?_, hu, fun member hm => ?_, fun member hm => ?_⟩
  · rintro first second ⟨hl | ⟨he, hl⟩, hne⟩
    · exact .inl hl
    · exact .inr ⟨he, lt_of_le_of_ne hl fun ht => hne (Prod.ext he (String.toList_inj.mp ht))⟩
  · simpa using hf member (hp.mem_iff.mp hm)
  · exact (hp.map memberKey).mem_iff.mpr (hc member (.inr hm))

/-- The members are listed exactly when no two of them have one text. -/
theorem listsMembers_iff (center : MemorySubCenter) (group : String) :
    center.ListsMembers group ↔ ∀ first second, center.ShareMember group first →
      center.ShareMember group second → first.1 ++ "|" ++ first.2 = second.1 ++ "|" ++ second.2 →
        first = second := by
  constructor
  · intro hl first second hf hs he
    obtain ⟨members, ha, -, hm⟩ := hl _ ⟨center.shardKeys, .refl _, _, .refl _, rfl⟩
    have hg : group ≠ "" := by
      obtain ⟨_, _, _, _, _, ht⟩ := hf
      exact ht.named
    have hu : (members.map memberKey).Nodup := by
      dsimp only at ha
      rw [if_neg hg] at ha
      cases ha
      exact (sortedMembers_spec _).2.1
    exact inj_on_of_nodup_map hu ((hm first).mpr hf) ((hm second).mpr hs) he
  · rintro hd answer ⟨order, ho, found, perm, rfl⟩
    have shown (member : ClientID × String) : member ∈ found ↔ center.ShareMember group member :=
      perm.mem_iff.trans (mem_shardMembers ho)
    refine ⟨_, rfl, ?_⟩
    split_ifs with hg
    · refine ⟨List.Pairwise.nil, fun member => iff_of_false (not_mem_nil) ?_⟩
      rintro ⟨_, _, _, _, _, ht⟩
      exact ht.named hg
    · obtain ⟨hp, -, hf, hc⟩ := sortedMembers_spec found
      refine ⟨hp, fun member => ⟨fun hm => (shown member).mp (hf member hm), fun hm => ?_⟩⟩
      obtain ⟨other, hi, he⟩ := mem_map.mp (hc member ((shown member).mpr hm))
      exact hd other member ((shown other).mp (hf other hi)) hm he ▸ hi

/-- Client `a|b` with filter `c` and client `a` with filter `b|c` have the text `a|b|c`: only one
of the two is listed. -/
theorem member_hidden_by_separator : ∃ center : MemorySubCenter, center.Reachable ∧
    center.ShareMember "g" ("a|b", "c") ∧ center.ShareMember "g" ("a", "b|c") ∧
    center.getShareGroupMembers center.shardKeys "g" = [("a|b", "c")] ∧
    ¬ center.ListsMembers "g" := by
  have he : ∃ center : MemorySubCenter, center.Reachable ∧
      center.foundMembers center.shardKeys "g" = [("a|b", "c"), ("a", "b|c")] :=
    ⟨_, ⟨[.createSub "a|b" "" [{ topic := "$share/g/c", qos := 1 }],
      .createSub "a" "" [{ topic := "$share/g/b|c", qos := 1 }]], rfl⟩, by decide⟩
  obtain ⟨center, hr, hf⟩ := he
  have hm (member) (hi : member ∈ [("a|b", "c"), ("a", "b|c")]) : center.ShareMember "g" member :=
    (mem_shardMembers (.refl _)).mp (hf ▸ hi)
  have ha : center.getShareGroupMembers center.shardKeys "g" = [("a|b", "c")] := by
    rw [getShareGroupMembers, if_neg (by decide), hf]
    decide
  refine ⟨center, hr, hm _ (by simp), hm _ (by simp), ha, fun hl => ?_⟩
  obtain ⟨members, hs, -, hi⟩ := hl _ ⟨center.shardKeys, .refl _, _, .refl _, rfl⟩
  obtain rfl : members = [("a|b", "c")] := (Answer.members.inj hs).symm.trans ha
  exact absurd ((hi ("a", "b|c")).mpr (hm _ (by simp))) (by decide)

end MemorySubCenter

end SkyTree.Subscription
