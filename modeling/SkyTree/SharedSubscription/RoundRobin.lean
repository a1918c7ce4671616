import SkyTree.Mqtt.Packet

/-!
# The round-robin selector

The counter of a group is reduced modulo the number of members of the call that moves it. The
next call may be given fewer members, and then reads behind its list. Whether it does is a
matter of the calls alone: the picks of a group since its last wrap have to stay below the
number of members of each call.
-/

namespace SkyTree.SharedSubscription.RoundRobin

open Mqtt List Option

/-- The counters by share group; an absent one reads as zero. -/
abbrev Selector := String → Nat

def newRoundRobinSelector : Selector := fun _ => 0

/-- A call; `none` among the members is a nil pointer. -/
structure Call where
  shareGroup : String
  members : List (Option ClientID)

def Call.validMembers (call : Call) : List ClientID :=
  call.members.filterMap fun member => member.filter fun clientID => clientID ≠ ""

/-- A call with an index out of range has no result. -/
def select (counters : Selector) (call : Call) : Option (Selector × ClientID) :=
  if call.members = [] then some (counters, "")
  else if call.validMembers = [] then some (counters, "")
  else
    let counter := counters call.shareGroup
    (call.validMembers[counter]?).map fun clientID =>
      (Function.update counters call.shareGroup
        ((counter + 1) % call.validMembers.length), clientID)

def selectAll : Selector → List Call → Option (Selector × List (String × ClientID))
  | counters, [] => some (counters, [])
  | counters, call :: calls =>
    (select counters call).bind fun first => (selectAll first.1 calls).map fun rest =>
      (rest.1, (call.shareGroup, first.2) :: rest.2)

/-- The picks of a group since its last wrap: the one that takes the last member of its own
list starts over. -/
def picksSinceWrap (shareGroup : String) (calls : List Call) : Nat :=
  calls.foldl (fun picks call =>
    if call.shareGroup ≠ shareGroup then picks
    else if picks + 1 = call.validMembers.length then 0
    else picks + 1) 0

/-- No call has fewer members than its group was picked from since the last wrap. -/
def Fits (calls : List Call) : Prop :=
  ∀ i : Fin calls.length,
    picksSinceWrap (calls.get i).shareGroup (calls.take i) < (calls.get i).validMembers.length

instance decidableFits : DecidablePred Fits := fun _ => Nat.decidableForallFin _

def InRange : Selector → List Call → Prop
  | _, [] => True
  | counters, call :: calls => counters call.shareGroup < call.validMembers.length ∧
      ∀ next clientID, select counters call = some (next, clientID) → InRange next calls

theorem select_of_lt {counters : Selector} {call : Call}
    (hl : counters call.shareGroup < call.validMembers.length) :
    select counters call = some (Function.update counters call.shareGroup
      ((counters call.shareGroup + 1) % call.validMembers.length),
      call.validMembers[counters call.shareGroup]) := by
  have hv : call.validMembers ≠ [] := ne_nil_of_length_pos (Nat.zero_lt_of_lt hl)
  have hm : call.members ≠ [] := by
    intro he
    exact hv (by rw [Call.validMembers, he]; rfl)
  rw [select, if_neg hm, if_neg hv]
  dsimp only
  rw [getElem?_eq_getElem hl]
  rfl

theorem lt_of_select {counters next : Selector} {call : Call} {clientID : ClientID}
    (named : call.validMembers ≠ []) (selected : select counters call = some (next, clientID)) :
    counters call.shareGroup < call.validMembers.length := by
  have members : call.members ≠ [] := by
    intro empty
    exact named (by rw [Call.validMembers, empty]; rfl)
  rw [select, if_neg members, if_neg named] at selected
  obtain ⟨_, found, -⟩ := map_eq_some_iff.mp selected
  exact (List.getElem?_eq_some_iff.mp found).1

theorem inRange_of_selectAll {counters last : Selector} {calls : List Call}
    {picks : List (String × ClientID)} (named : ∀ call ∈ calls, call.validMembers ≠ [])
    (selected : selectAll counters calls = some (last, picks)) : InRange counters calls := by
  induction calls generalizing counters last picks with
  | nil => trivial
  | cons call calls ih =>
    obtain ⟨⟨next, clientID⟩, first, rest⟩ := Option.bind_eq_some_iff.mp selected
    obtain ⟨⟨_, _⟩, later, -⟩ := map_eq_some_iff.mp rest
    refine ⟨lt_of_select (named call mem_cons_self) first, fun other otherID again => ?_⟩
    cases first.symm.trans again
    exact ih (fun call member => named call (mem_cons_of_mem _ member)) later

theorem select_picksSinceWrap {counters next : Selector} {before : List Call} {call : Call}
    {clientID : ClientID} (follows : ∀ group, counters group = picksSinceWrap group before)
    (below : counters call.shareGroup < call.validMembers.length)
    (selected : select counters call = some (next, clientID)) (group : String) :
    next group = picksSinceWrap group (before ++ [call]) := by
  rw [select_of_lt below] at selected
  cases selected
  rw [picksSinceWrap, foldl_append, foldl_cons, foldl_nil]
  change _ = if call.shareGroup ≠ group then picksSinceWrap group before
    else if picksSinceWrap group before + 1 = call.validMembers.length then 0
    else picksSinceWrap group before + 1
  rw [← follows group]
  by_cases same : group = call.shareGroup
  · subst same
    rw [Function.update_self, if_neg (not_not_intro rfl)]
    split
    next wraps => rw [wraps, Nat.mod_self]
    next => exact Nat.mod_eq_of_lt (by omega)
  · rw [Function.update_of_ne same, if_pos (Ne.symm same)]

theorem inRange_iff_fits {counters : Selector} {before calls : List Call}
    (follows : ∀ group, counters group = picksSinceWrap group before) :
    InRange counters calls ↔ ∀ i : Fin calls.length,
      picksSinceWrap (calls.get i).shareGroup (before ++ calls.take i) <
        (calls.get i).validMembers.length := by
  induction calls generalizing counters before with
  | nil => exact ⟨fun _ i => i.elim0, fun _ => trivial⟩
  | cons call calls ih =>
    have first : counters call.shareGroup < call.validMembers.length ↔
        picksSinceWrap call.shareGroup (before ++ []) < call.validMembers.length := by
      rw [append_nil, follows]
    have later (below : counters call.shareGroup < call.validMembers.length) :=
      @ih _ (before ++ [call]) (select_picksSinceWrap follows below (select_of_lt below))
    simp only [append_assoc, singleton_append] at later
    refine Iff.trans ?_ Fin.forall_fin_succ.symm
    refine (and_congr_right fun below => ?_).trans (and_congr_left fun _ => first)
    refine Iff.trans ⟨fun rest => rest _ _ (select_of_lt below), ?_⟩ (later below)
    intro rest next clientID selected
    cases (select_of_lt below).symm.trans selected
    exact rest

theorem inRange_new_iff {calls : List Call} :
    InRange newRoundRobinSelector calls ↔ Fits calls :=
  @inRange_iff_fits newRoundRobinSelector [] calls fun _ => rfl

theorem mem_members_of_valid {call : Call} {clientID : ClientID}
    (hv : clientID ∈ call.validMembers) : some clientID ∈ call.members := by
  obtain ⟨member, hm, hf⟩ := mem_filterMap.mp hv
  obtain ⟨rfl, -⟩ := filter_eq_some_iff.mp hf
  exact hm

def picksFor (shareGroup : String) (picks : List (String × ClientID)) : List ClientID :=
  (picks.filter fun pick => pick.1 = shareGroup).map Prod.snd

theorem take_rotate_succ {valid : List ClientID} {counter count : Nat} (hc : counter < valid.length)
    (hl : count < valid.length) : (valid.rotate counter).take (count + 1) =
      valid[counter] :: (valid.rotate (counter + 1)).take count := by
  have hh := head?_rotate hc
  rw [getElem?_eq_getElem hc] at hh
  rw [← rotate_rotate]
  cases hr : valid.rotate counter with
  | nil => simp [hr] at hh
  | cons first rest =>
    have hn : (first :: rest).length = valid.length := by rw [← hr, length_rotate]
    obtain rfl : first = valid[counter] := by simpa [hr] using hh
    rw [length_cons] at hn
    rw [take_succ_cons, rotate_cons_succ, rotate_zero, take_append_of_le_length (by omega)]

theorem picksFor_eq_take {counters last : Selector} {calls : List Call} {shareGroup : String}
    {valid : List ClientID} {picks : List (String × ClientID)} (hc : InRange counters calls)
    (hv : ∀ call ∈ calls, call.shareGroup = shareGroup → call.validMembers = valid)
    (hl : (calls.filter fun call => call.shareGroup = shareGroup).length ≤ valid.length)
    (hs : selectAll counters calls = some (last, picks)) :
    picksFor shareGroup picks = (valid.rotate (counters shareGroup)).take
      (calls.filter fun call => call.shareGroup = shareGroup).length := by
  induction calls generalizing counters picks with
  | nil =>
    cases hs
    rfl
  | cons call calls ih =>
    obtain ⟨hi, hr⟩ := hc
    rw [selectAll, select_of_lt hi, bind_some] at hs
    obtain ⟨⟨last', rest⟩, hn, he⟩ := map_eq_some_iff.mp hs
    cases he
    have hk hl := ih (hr _ _ (select_of_lt hi))
      (fun other hm => hv other (mem_cons_of_mem _ hm)) hl hn
    by_cases hg : call.shareGroup = shareGroup
    · subst hg
      cases hv call mem_cons_self rfl
      simp only [filter_cons, decide_true, if_true, length_cons] at hl ⊢
      rw [take_rotate_succ hi (by omega), ← rotate_mod]
      have hp := hk (by omega)
      rw [Function.update_self] at hp
      simp only [picksFor, filter_cons, decide_true, if_true, map_cons] at hp ⊢
      rw [hp]
    · simp only [filter_cons, decide_eq_true_eq, if_neg hg] at hl ⊢
      have hp := hk hl
      rw [Function.update_of_ne (Ne.symm hg)] at hp
      simpa [picksFor, hg] using hp

variable {counters : Selector}

theorem inRange_append {before after : List Call}
    (hc : InRange counters (before ++ after)) : InRange counters before ∧
      ∀ next picks, selectAll counters before = some (next, picks) → InRange next after := by
  induction before generalizing counters with
  | nil =>
    refine ⟨trivial, fun next picks hs => ?_⟩
    cases hs
    exact hc
  | cons call calls ih =>
    obtain ⟨hi, hr⟩ := hc
    refine ⟨⟨hi, fun next clientID hs => (ih (hr next clientID hs)).1⟩, fun next picks hs => ?_⟩
    rw [selectAll, select_of_lt hi, bind_some] at hs
    obtain ⟨⟨last, rest⟩, hn, he⟩ := map_eq_some_iff.mp hs
    cases he
    exact (ih (hr _ _ (select_of_lt hi))).2 _ _ hn

theorem selectAll_append {before after : List Call} : selectAll counters (before ++ after) =
      (selectAll counters before).bind fun first => (selectAll first.1 after).map fun rest =>
        (rest.1, first.2 ++ rest.2) := by
  induction before generalizing counters with
  | nil => simp [selectAll]
  | cons call calls ih =>
    simp only [cons_append, selectAll]
    cases select counters call with
    | none => rfl
    | some first =>
      simp only [bind_some, ih]
      cases selectAll first.1 calls with
      | none => rfl
      | some next =>
        simp only [Option.bind_some, Option.map_some, Option.map_map]
        rfl

theorem selectAll_of_inRange {calls : List Call}
    (hc : InRange counters calls) : ∃ last picks, selectAll counters calls = some (last, picks) ∧
      List.Forall₂ (fun call pick => pick.1 = call.shareGroup ∧ some pick.2 ∈ call.members)
        calls picks := by
  induction calls generalizing counters with
  | nil => exact ⟨_, _, rfl, .nil⟩
  | cons call calls ih =>
    obtain ⟨hi, hr⟩ := hc
    obtain ⟨last, picks, hs, hp⟩ := ih (hr _ _ (select_of_lt hi))
    refine ⟨last, (call.shareGroup, call.validMembers[counters call.shareGroup]) :: picks, ?_,
      .cons ⟨rfl, mem_members_of_valid (getElem_mem hi)⟩ hp⟩
    rw [selectAll, select_of_lt hi, bind_some, hs]
    rfl

theorem distinct_picks {calls before block after : List Call} {shareGroup : String}
    {valid : List ClientID} {last : Selector} {picks : List (String × ClientID)}
    (inRange : InRange counters calls) (selected : selectAll counters calls = some (last, picks))
    (split : calls = before ++ block ++ after)
    (constant : ∀ call ∈ block, call.shareGroup = shareGroup → call.validMembers = valid)
    (distinct : valid.Nodup)
    (short : (block.filter fun call => call.shareGroup = shareGroup).length ≤ valid.length) :
    (picksFor shareGroup ((picks.drop before.length).take block.length)).Nodup := by
  subst split
  rw [append_assoc] at selected inRange
  obtain ⟨first, rest⟩ := inRange_append inRange
  obtain ⟨middle, earlier, picked, listed⟩ := selectAll_of_inRange first
  obtain ⟨inBlock, -⟩ := inRange_append (rest middle earlier picked)
  obtain ⟨next, window, blockPicked, blockListed⟩ := selectAll_of_inRange inBlock
  rw [selectAll_append, picked, bind_some, selectAll_append, blockPicked, bind_some] at selected
  obtain ⟨⟨_, later⟩, tail, same⟩ := map_eq_some_iff.mp selected
  cases same
  obtain ⟨⟨_, rest⟩, -, same⟩ := map_eq_some_iff.mp tail
  cases same
  rw [drop_left' listed.length_eq.symm, take_left' blockListed.length_eq.symm,
    picksFor_eq_take inBlock constant short blockPicked]
  exact (nodup_rotate.mpr distinct).sublist (take_sublist _ _)

/-- A run of calls whose lists all name a member picks a member of each list, and distinct ones
over a window with one list, exactly when no list is shorter than the picks since the last wrap
need. -/
theorem round_robin_iff_fits (calls : List Call)
    (named : ∀ call ∈ calls, call.validMembers ≠ []) :
    (∃ last picks, selectAll newRoundRobinSelector calls = some (last, picks) ∧
      List.Forall₂ (fun call pick => pick.1 = call.shareGroup ∧ some pick.2 ∈ call.members)
        calls picks ∧
      ∀ before block after shareGroup (valid : List ClientID), calls = before ++ block ++ after →
        (∀ call ∈ block, call.shareGroup = shareGroup → call.validMembers = valid) →
        valid.Nodup →
        (block.filter fun call => call.shareGroup = shareGroup).length ≤ valid.length →
        (picksFor shareGroup ((picks.drop before.length).take block.length)).Nodup) ↔
    Fits calls := by
  constructor
  · rintro ⟨last, picks, selected, -⟩
    exact inRange_new_iff.mp (inRange_of_selectAll named selected)
  · intro fits
    have inRange := inRange_new_iff.mpr fits
    obtain ⟨last, picks, selected, listed⟩ := selectAll_of_inRange inRange
    exact ⟨last, picks, selected, listed, fun before block after shareGroup valid split constant
      distinct short => distinct_picks inRange selected split constant distinct short⟩

/-- Two groups whose lists change; the third pick of `g` wraps, so one member is enough after. -/
def changingLists : List Call :=
  [⟨"g", [some "a", none, some "b"]⟩, ⟨"h", [some "x", some "y"]⟩,
    ⟨"g", [some "c", some "a", some "b", some "d"]⟩, ⟨"g", [some "a", some "b", some "d"]⟩,
    ⟨"g", [some "e"]⟩, ⟨"h", [some "y", some ""]⟩]

theorem round_robin_iff_fits_changing :
    (∃ last picks, selectAll newRoundRobinSelector (changingLists.take 5) = some (last, picks) ∧
      picks.map Prod.snd = ["a", "x", "a", "d", "e"]) ∧
    selectAll newRoundRobinSelector changingLists = none ∧ ¬ Fits changingLists := by
  obtain ⟨last, picks, selected, -⟩ :=
    (round_robin_iff_fits (changingLists.take 5) (by decide)).mpr (by decide)
  refine ⟨⟨last, picks, selected, ?_⟩, rfl, by decide⟩
  cases selected
  rfl

/-- After a pick of two the counter of the group is one, and the call with one member fails. -/
theorem shorter_list_out_of_range :
    selectAll newRoundRobinSelector [⟨"g", [some "a", some "b"]⟩, ⟨"g", [some "c"]⟩] = none := by
  rfl

end SkyTree.SharedSubscription.RoundRobin
